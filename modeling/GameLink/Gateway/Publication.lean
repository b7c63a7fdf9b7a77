import GameLink.Gateway.Flights

namespace GameLink.Gateway

open Foundation

structure Flight.Keeps (f f' : Flight) : Prop where
  view : f'.view = f.view
  generation : f'.generation = f.generation
  bearerKey : f'.bearerKey = f.bearerKey
  sealed : f.sealed = true → f'.sealed = true

theorem Flight.Keeps.refl (f : Flight) : f.Keeps f := ⟨rfl, rfl, rfl, fun h => h⟩

theorem Flight.Keeps.trans {f f' f'' : Flight} (h : f.Keeps f') (h' : f'.Keeps f'') : f.Keeps f'' :=
  ⟨h'.view.trans h.view, h'.generation.trans h.generation, h'.bearerKey.trans h.bearerKey, fun hs => h'.sealed (h.sealed hs)⟩

def Call.Withheld (c : Call) : Prop := ∀ id status, c ≠ .ended (some id) (some (.result status))

namespace World

structure Sound (w : World) : Prop where
  known : ∀ id ∈ w.webFlights, w.flights id ≠ none
  held : ∀ id f, w.flights id = some f → f.sealed = false → id ∈ w.webFlights
  counted : ∀ t task, w.tasks t = some task → task.outcome = none →
    task.flight ∈ w.webFlights ∧ ∃ f, w.flights task.flight = some f ∧ t ∈ f.tasks
  quota : Quota 4 2 w.bearer w.webFlights

structure Goes (w w' : World) : Prop where
  sound : w.Sound → w'.Sound
  same : ∀ id f, w.flights id = some f → ∃ f', w'.flights id = some f' ∧ f.Keeps f'

structure Quiet (w w' : World) : Prop extends Goes w w' where
  fresh : ∀ id, w.flights id = none → w'.flights id = none
  calls : w'.calls = w.calls

section

variable {w w' w'' : World} {id i t : ℕ} {f : Flight} {g : Flight → Flight} {proof : Bool}

theorem Goes.refl (w : World) : w.Goes w := ⟨fun h => h, fun _ f hf => ⟨f, hf, .refl f⟩⟩

theorem Goes.trans (h : w.Goes w') (h' : w'.Goes w'') : w.Goes w'' where
  sound hw := h'.sound (h.sound hw)
  same id f hf := by
    obtain ⟨f', hf', hkeeps⟩ := h.same id f hf
    obtain ⟨f'', hf'', hkeeps'⟩ := h'.same id f' hf'
    exact ⟨f'', hf'', hkeeps.trans hkeeps'⟩

theorem Quiet.refl (w : World) : w.Quiet w := ⟨.refl w, fun _ h => h, rfl⟩

theorem Quiet.trans (h : w.Quiet w') (h' : w'.Quiet w'') : w.Quiet w'' :=
  ⟨h.toGoes.trans h'.toGoes, fun id hnone => h'.fresh id (h.fresh id hnone), h'.calls.trans h.calls⟩

theorem goes_setCall {call : Call} : w.Goes (w.setCall i call) :=
  ⟨fun h => ⟨h.known, h.held, h.counted, h.quota⟩, fun _ f hf => ⟨f, hf, .refl f⟩⟩

theorem flights_modify (w : World) (id : ℕ) (g : Flight → Flight) (id' : ℕ) :
    (w.modify id g).flights id' = if id' = id then (w.flights id).map g else w.flights id' := by
  change Function.update w.flights id ((w.flights id).map g) id' = _
  rw [Function.update_apply]

theorem modify_same (hg : ∀ f, w.flights id = some f → f.Keeps (g f)) :
    ∀ id' f, w.flights id' = some f → ∃ f', (w.modify id g).flights id' = some f' ∧ f.Keeps f' := by
  intro id' f hf
  rw [flights_modify]
  by_cases hid : id' = id
  · rw [if_pos hid]
    rw [hid] at hf
    rw [hf]
    exact ⟨g f, rfl, hg f hf⟩
  · rw [if_neg hid]
    exact ⟨f, hf, .refl f⟩

theorem modify_fresh : ∀ id', w.flights id' = none → (w.modify id g).flights id' = none := by
  intro id' hnone
  rw [flights_modify]
  split
  · rename_i hid
    rw [← hid, hnone]
    rfl
  · exact hnone

theorem modify_of_some {id' : ℕ} {f' : Flight} (h : (w.modify id g).flights id' = some f') :
    ∃ f, w.flights id' = some f ∧ f' = if id' = id then g f else f := by
  rw [flights_modify] at h
  by_cases hid : id' = id
  · rw [if_pos hid] at h
    obtain ⟨f, hf, rfl⟩ := Option.map_eq_some_iff.mp h
    rw [← hid] at hf
    exact ⟨f, hf, (if_pos hid).symm⟩
  · rw [if_neg hid] at h
    exact ⟨f', h, (if_neg hid).symm⟩

theorem bearer_of_same (hsame : ∀ id f, w.flights id = some f → ∃ f', w'.flights id = some f' ∧ f.Keeps f')
    (hknown : w.flights id ≠ none) : w'.bearer id = w.bearer id := by
  obtain ⟨f, hf⟩ := Option.ne_none_iff_exists'.mp hknown
  obtain ⟨f', hf', hkeeps⟩ := hsame id f hf
  rw [bearer, bearer, hf, hf', Option.map_some, Option.map_some, hkeeps.bearerKey]

theorem known_of_same (hsame : ∀ id f, w.flights id = some f → ∃ f', w'.flights id = some f' ∧ f.Keeps f')
    (hknown : w.flights id ≠ none) : w'.flights id ≠ none := by
  obtain ⟨f, hf⟩ := Option.ne_none_iff_exists'.mp hknown
  obtain ⟨f', hf', -⟩ := hsame id f hf
  rw [hf']
  exact Option.some_ne_none _

theorem quiet_modify (hkeeps : ∀ f, w.flights id = some f → f.Keeps (g f))
    (htasks : ∀ f, w.flights id = some f → f.tasks ⊆ (g f).tasks) : w.Quiet (w.modify id g) where
  sound h := by
    have hsame := modify_same hkeeps
    refine ⟨fun id' hid' => known_of_same hsame (h.known id' hid'), ?_, ?_,
      h.quota.congr fun id' hid' => bearer_of_same hsame (h.known id' hid')⟩
    · intro id' f' hf' hopen
      obtain ⟨f, hf, rfl⟩ := modify_of_some hf'
      apply h.held id' f hf
      by_cases hid : id' = id
      · rw [if_pos hid] at hopen
        rw [hid] at hf
        have hsealed := (hkeeps f hf).sealed
        rw [hopen] at hsealed
        exact Bool.eq_false_iff.mpr fun hs => Bool.noConfusion (hsealed hs)
      · rw [if_neg hid] at hopen
        exact hopen
    · intro t task htask hruns
      obtain ⟨hmem, f, hf, ht⟩ := h.counted t task htask hruns
      refine ⟨hmem, ?_⟩
      rw [flights_modify]
      by_cases hid : task.flight = id
      · rw [if_pos hid]
        rw [hid] at hf
        rw [hf]
        exact ⟨g f, rfl, htasks f hf ht⟩
      · rw [if_neg hid]
        exact ⟨f, hf, ht⟩
  same := modify_same hkeeps
  fresh := modify_fresh
  calls := rfl

theorem quiet_retire (hkeeps : ∀ f, w.flights id = some f → f.Keeps (g f))
    (hdone : ∀ f, w.flights id = some f → f.sealed = true ∧ ∀ t ∈ f.tasks, w.done t = true) :
    w.Quiet ((w.pop id).modify id g) where
  sound h := by
    have hsame : ∀ id' f, w.flights id' = some f → ∃ f', ((w.pop id).modify id g).flights id' = some f' ∧ f.Keeps f' :=
      modify_same (w := w.pop id) hkeeps
    have hsub : ((w.pop id).modify id g).webFlights.Sublist w.webFlights := List.filter_sublist
    refine ⟨fun id' hid' => known_of_same hsame (h.known id' (hsub.subset hid')), ?_, ?_,
      (h.quota.congr fun id' hid' => bearer_of_same hsame (h.known id' hid')).sublist hsub⟩
    · intro id' f' hf' hopen
      obtain ⟨f, hf, rfl⟩ := modify_of_some hf'
      change w.flights id' = some f at hf
      by_cases hid : id' = id
      · rw [if_pos hid] at hopen
        rw [hid] at hf
        have hsealed := (hkeeps f hf).sealed (hdone f hf).1
        rw [hopen] at hsealed
        cases hsealed
      · rw [if_neg hid] at hopen
        exact List.mem_filter.mpr ⟨h.held id' f hf hopen, decide_eq_true hid⟩
    · intro t task htask hruns
      change w.tasks t = some task at htask
      obtain ⟨hmem, f, hf, ht⟩ := h.counted t task htask hruns
      have hid : task.flight ≠ id := by
        intro hid
        rw [hid] at hf
        have hover := (hdone f hf).2 t ht
        rw [done, htask, Option.all_some, hruns] at hover
        cases hover
      refine ⟨List.mem_filter.mpr ⟨hmem, decide_eq_true hid⟩, f, ?_, ht⟩
      rw [flights_modify, if_neg hid]
      exact hf
  same := modify_same (w := w.pop id) hkeeps
  fresh := modify_fresh (w := w.pop id)
  calls := rfl

theorem quiet_releaseIfDone : w.Quiet (w.releaseIfDone id) := by
  unfold releaseIfDone
  split
  · rename_i h
    apply quiet_retire
    · exact fun f _ => ⟨rfl, rfl, rfl, fun hs => hs⟩
    intro f hf
    rw [hf, Option.any_some, finished, Bool.and_eq_true, Bool.and_eq_true] at h
    exact ⟨h.1.1, List.all_eq_true.mp h.2⟩
  · exact .refl w

theorem quiet_seal : w.Quiet (w.seal id) := by
  refine Quiet.trans (quiet_modify ?_ ?_) quiet_releaseIfDone
  · exact fun f _ => ⟨rfl, rfl, rfl, fun _ => rfl⟩
  · exact fun f _ => List.Subset.refl _

theorem quiet_check : w.Quiet (w.check id proof).2 := by
  unfold check
  split
  · exact .refl w
  split
  · exact .refl w
  · exact quiet_seal

theorem check_passed (hknown : w.flights id ≠ none) (h : (w.check id proof).1 = true) :
    (w.check id proof).2 = w ∧ ∃ f, w.flights id = some f ∧ f.sealed = false := by
  obtain ⟨f, hf⟩ := Option.ne_none_iff_exists'.mp hknown
  unfold check at h ⊢
  split at h
  · cases h
  rename_i hopen
  rw [if_neg hopen]
  split at h
  · rename_i hrequired
    rw [if_pos hrequired]
    refine ⟨rfl, f, hf, ?_⟩
    rw [hf, Option.any_some, Bool.or_eq_true, Bool.or_eq_true, not_or, not_or] at hopen
    exact Bool.eq_false_iff.mpr hopen.1.1
  · cases h

theorem quiet_addTask (hid : id ∈ w.webFlights) : w.Quiet (w.addTask id t) := by
  have hmodify : w.Quiet (w.modify id fun f => { f with tasks := t :: f.tasks }) := by
    apply quiet_modify
    · exact fun f _ => ⟨rfl, rfl, rfl, fun hs => hs⟩
    · exact fun f _ => List.subset_cons_self t f.tasks
  refine ⟨⟨?_, hmodify.same⟩, hmodify.fresh, rfl⟩
  intro h
  have hm := hmodify.sound h
  refine ⟨hm.known, hm.held, ?_, hm.quota⟩
  intro t' task htask hruns
  change Function.update w.tasks t _ t' = some task at htask
  by_cases ht : t' = t
  · rw [ht, Function.update_self] at htask
    cases htask
    obtain ⟨f, hf⟩ := Option.ne_none_iff_exists'.mp (h.known id hid)
    refine ⟨hid, { f with tasks := t :: f.tasks }, ?_, ?_⟩
    · change (w.modify id _).flights id = _
      rw [flights_modify, if_pos rfl, hf]
      rfl
    · rw [ht]
      exact List.mem_cons_self
  · rw [Function.update_of_ne ht] at htask
    exact hm.counted t' task htask hruns

theorem quiet_register (hid : id ∈ w.webFlights) : w.Quiet (w.register id t proof).2 :=
  (quiet_addTask hid).trans quiet_check

theorem Sound.spawn (h : w.Sound) (hknown : w.flights id ≠ none) {first second : Bool} :
    w.Quiet (w.spawn id t first second) := by
  have hcheck : w.Quiet (w.check id first).2 := quiet_check
  have hpassed : (w.check id first).1 = true → _ := check_passed hknown
  unfold World.spawn
  cases hresult : w.check id first with
  | mk passed u =>
    rw [hresult] at hcheck hpassed
    cases passed with
    | false => exact hcheck
    | true =>
      obtain ⟨heq, f, hf, hopen⟩ := hpassed rfl
      dsimp only at heq ⊢
      rw [heq]
      exact quiet_register (h.held id f hf hopen)

theorem quiet_tasks {tasks : ℕ → Option Task} (h : ∀ t task', tasks t = some task' → task'.outcome = none →
    ∃ task, w.tasks t = some task ∧ task.outcome = none ∧ task.flight = task'.flight) :
    w.Quiet { w with tasks := tasks } where
  sound hw := by
    refine ⟨hw.known, hw.held, ?_, hw.quota⟩
    intro t task' htask hruns
    obtain ⟨task, ht, hrun, hflight⟩ := h t task' htask hruns
    rw [← hflight]
    exact hw.counted t task ht hrun
  same _ f hf := ⟨f, hf, .refl f⟩
  fresh _ hnone := hnone
  calls := rfl

theorem quiet_complete {outcome : Outcome} :
    w.Quiet { w with tasks := Function.update w.tasks t ((w.tasks t).map fun task => { task with outcome := some outcome }) } := by
  apply quiet_tasks
  intro t' task' htask hruns
  by_cases ht : t' = t
  · rw [ht, Function.update_self] at htask
    obtain ⟨task, -, rfl⟩ := Option.map_eq_some_iff.mp htask
    cases hruns
  · rw [Function.update_of_ne ht] at htask
    exact ⟨task', htask, hruns, rfl⟩

theorem quiet_callback {task : Task} (htask : w.tasks t = some task) : w.Quiet (w.callback t task) := by
  have hcalled : w.Quiet { w with tasks := Function.update w.tasks t (some { task with called := true }) } := by
    apply quiet_tasks
    intro t' task' htask' hruns
    by_cases ht : t' = t
    · rw [ht, Function.update_self] at htask'
      cases htask'
      rw [ht]
      exact ⟨task, htask, hruns, rfl⟩
    · rw [Function.update_of_ne ht] at htask'
      exact ⟨task', htask', hruns, rfl⟩
  unfold callback
  dsimp only
  refine hcalled.trans (Quiet.trans ?_ quiet_releaseIfDone)
  split
  · split
    · exact quiet_seal
    apply quiet_modify
    · exact fun f _ => ⟨rfl, rfl, rfl, fun hs => hs⟩
    · exact fun f _ => List.Subset.refl _
  · exact .refl _

theorem quiet_sealAll (ids : List ℕ) : w.Quiet (sealAll ids w) := by
  induction ids generalizing w with
  | nil => exact .refl w
  | cons id ids ih => exact quiet_seal.trans ih

theorem quiet_same {closed : Bool} {generation : ℕ} {clock : ℚ} {around : Surroundings} :
    w.Quiet { w with clock := clock, webClosed := closed, webGeneration := generation, around := around } :=
  ⟨⟨fun h => ⟨h.known, h.held, h.counted, h.quota⟩, fun _ f hf => ⟨f, hf, .refl f⟩⟩, fun _ h => h, rfl⟩

theorem quiet_fencePublicWeb : w.Quiet w.fencePublicWeb := by
  have hclose : w.Quiet (if w.webClosed then w else { w with webClosed := true, webGeneration := w.webGeneration + 1 }) := by
    split
    · exact .refl w
    · exact quiet_same
  exact hclose.trans (quiet_sealAll _)

theorem quiet_drainPublicWeb (ids : List ℕ) : w.Quiet (drainPublicWeb ids w) := by
  induction ids generalizing w with
  | nil => exact .refl w
  | cons id ids ih => exact quiet_releaseIfDone.trans ih

theorem quiet_disturb (a : Return) : w.Quiet (w.disturb a) := by
  unfold disturb
  dsimp only
  split
  · exact quiet_same.trans quiet_fencePublicWeb
  · exact quiet_same

theorem goes_addFlight {view : View} {binding : PublicWebBinding} (hnone : w.flights id = none)
    (hroom : w.hasRoom binding.bearerKey = true) : w.Goes (w.addFlight id (newFlight view binding)) := by
  have hflights : ∀ id', (w.addFlight id (newFlight view binding)).flights id' =
      if id' = id then some (newFlight view binding) else w.flights id' := by
    intro id'
    change Function.update w.flights id _ id' = _
    rw [Function.update_apply]
  have hne : ∀ id' f, w.flights id' = some f → id' ≠ id := by
    rintro id' f hf rfl
    rw [hnone] at hf
    cases hf
  have hsame : ∀ id' f, w.flights id' = some f →
      ∃ f', (w.addFlight id (newFlight view binding)).flights id' = some f' ∧ f.Keeps f' := by
    intro id' f hf
    rw [hflights, if_neg (hne id' f hf)]
    exact ⟨f, hf, .refl f⟩
  refine ⟨?_, hsame⟩
  intro h
  rw [hasRoom, Bool.and_eq_true, decide_eq_true_eq, decide_eq_true_eq] at hroom
  have hquota := h.quota.congr fun id' hid' => bearer_of_same hsame (h.known id' hid')
  have hbearer : (w.addFlight id (newFlight view binding)).bearer id = some binding.bearerKey := by
    rw [bearer, hflights, if_pos rfl]
    rfl
  refine ⟨?_, ?_, ?_, hquota.admitted hroom.1 ?_⟩
  · intro id' hid'
    rw [hflights]
    split
    · exact Option.some_ne_none _
    rename_i hid
    cases List.mem_append.mp hid' with
    | inl hold => exact h.known id' hold
    | inr hnew => exact absurd (List.mem_singleton.mp hnew) hid
  · intro id' f' hf' hopen
    rw [hflights] at hf'
    split at hf'
    · rename_i hid
      exact List.mem_append_right _ (List.mem_singleton.mpr hid)
    · exact List.mem_append_left _ (h.held id' f' hf' hopen)
  · intro t task htask hruns
    obtain ⟨hmem, f, hf, ht⟩ := h.counted t task htask hruns
    obtain ⟨f', hf', -⟩ := hsame task.flight f hf
    refine ⟨List.mem_append_left _ hmem, f, ?_, ht⟩
    rw [hflights, if_neg (hne _ f hf)]
    exact hf
  · rw [hbearer]
    have hfilter : (w.webFlights.filter fun b => decide ((w.addFlight id (newFlight view binding)).bearer b =
        some binding.bearerKey)) = w.webFlights.filter fun b => decide (w.bearer b = some binding.bearerKey) := by
      apply List.filter_congr
      intro id' hid'
      rw [bearer_of_same hsame (h.known id' hid')]
    rw [hfilter]
    exact hroom.2

theorem Sound.launch (h : w.Sound) {a : Admission} (hid : a.flight ∈ w.webFlights)
    (hidle : ∀ f, w.flights a.flight = some f → f.tasks = []) :
    ∃ u call, w.Quiet u ∧ w.launch i a = u.setCall i call ∧ call.Withheld := by
  unfold World.launch
  split
  · have hroot : w.Quiet (w.modify a.flight fun f => { f with root := some a.task }) := by
      apply quiet_modify
      · exact fun f _ => ⟨rfl, rfl, rfl, fun hs => hs⟩
      · exact fun f _ => List.Subset.refl _
    have hregister : (w.modify a.flight fun f => { f with root := some a.task }).Quiet
        ((w.modify a.flight fun f => { f with root := some a.task }).register a.flight a.task a.registered).2 :=
      quiet_register hid
    cases hresult : (w.modify a.flight fun f => { f with root := some a.task }).register a.flight a.task a.registered with
    | mk passed u =>
      rw [hresult] at hregister
      cases passed with
      | false =>
        refine ⟨_, _, (hroot.trans hregister).trans quiet_seal, rfl, ?_⟩
        rintro id status ⟨⟩
      | true =>
        refine ⟨_, _, (hroot.trans hregister).trans (quiet_modify ?_ ?_), rfl, ?_⟩
        · exact fun f _ => ⟨rfl, rfl, rfl, fun hs => hs⟩
        · exact fun f _ => List.Subset.refl _
        · rintro id status ⟨⟩
  · have hsealed : ∀ f, (w.seal a.flight).flights a.flight = some f → f.sealed = true ∧ f.tasks = [] := by
      intro f hf
      obtain ⟨x, hx⟩ := Option.ne_none_iff_exists'.mp (h.known a.flight hid)
      have hmodified : (w.modify a.flight fun f => { f with sealed := true, issued := f.issued && f.sealed }).flights a.flight =
          some { x with sealed := true, issued := x.issued && x.sealed } := by
        rw [flights_modify, if_pos rfl, hx]
        rfl
      unfold «seal» releaseIfDone at hf
      split at hf
      · rw [flights_modify, if_pos rfl] at hf
        change Option.map _ ((w.modify a.flight _).flights a.flight) = _ at hf
        rw [hmodified] at hf
        cases hf
        exact ⟨rfl, rfl⟩
      rw [hmodified] at hf
      cases hf
      exact ⟨rfl, hidle x hx⟩
    have hpop : (w.seal a.flight).Quiet ((w.seal a.flight).pop a.flight) := by
      have hretire : (w.seal a.flight).Quiet (((w.seal a.flight).pop a.flight).modify a.flight id) := by
        apply quiet_retire
        · exact fun f _ => .refl f
        intro f hf
        obtain ⟨hs, hnil⟩ := hsealed f hf
        rw [hnil]
        exact ⟨hs, fun t ht => absurd ht List.not_mem_nil⟩
      have hsame : ((w.seal a.flight).pop a.flight).modify a.flight id = (w.seal a.flight).pop a.flight := by
        unfold modify
        rw [Option.map_id, id, Function.update_eq_self]
      rw [hsame] at hretire
      exact hretire
    refine ⟨_, _, quiet_seal.trans hpop, rfl, ?_⟩
    rintro id status ⟨⟩

structure Starts (w : World) (f : Flight) : Prop where
  opened : w.webClosed = false
  generation : w.webGeneration = f.generation
  target : ∃ m, w.around.modules f.view.moduleId = some m ∧ m.epoch = f.view.moduleEpoch
  deployed : (f.view.moduleId, f.view.capabilityId) ∈ w.around.deployment
  deadline : w.clock < f.view.deadline

theorem Sound.invoke (h : w.Sound) {r : Request} {a : Admission} (hnone : w.flights a.flight = none) :
    (∃ call, w.invoke i r a = w.setCall i call ∧ call.Withheld) ∨
      ∃ f u call, w.Starts f ∧ w.Goes (w.addFlight a.flight f) ∧ (w.addFlight a.flight f).Quiet u ∧
        w.invoke i r a = u.setCall i call ∧ call.Withheld := by
  have herror : ∀ code, ∃ call, w.reply i none (.error code) = w.setCall i call ∧ call.Withheld := by
    intro code
    refine ⟨_, rfl, ?_⟩
    rintro id status ⟨⟩
  unfold World.invoke
  split
  · exact .inl (herror _)
  rename_i hopen
  rw [Bool.not_eq_true] at hopen
  cases hmodule : w.around.modules r.moduleId with
  | none => exact .inl (herror _)
  | some m =>
    dsimp only
    split
    · cases hissued : w.issuePublicWeb r m a with
      | none => exact .inl (herror _)
      | some pair =>
        obtain ⟨view, binding⟩ := pair
        dsimp only
        split
        · exact .inl (herror _)
        split
        · rename_i hroom
          right
          unfold issuePublicWeb at hissued
          split at hissued
          · rename_i hdeployed
            obtain ⟨b, -, hpair⟩ := Option.bind_eq_some_iff.mp hissued
            split at hpair
            · rename_i hbinding
              cases hpair
              have hadded : w.Goes (w.addFlight a.flight (newFlight ⟨r.moduleId, r.capabilityId, m.epoch,
                  min a.deadline binding.deadlineMonotonic⟩ binding)) := goes_addFlight hnone hroom
              have hidle : ∀ f, (w.addFlight a.flight (newFlight ⟨r.moduleId, r.capabilityId, m.epoch,
                  min a.deadline binding.deadlineMonotonic⟩ binding)).flights a.flight = some f → f.tasks = [] := by
                intro f hf
                change Function.update w.flights a.flight _ a.flight = _ at hf
                rw [Function.update_self] at hf
                cases hf
                rfl
              obtain ⟨u, call, hquiet, heq, hcall⟩ := (hadded.sound h).launch (i := i) (a := a)
                (List.mem_append_right _ (List.mem_singleton.mpr rfl)) hidle
              exact ⟨_, u, call, ⟨hopen, hbinding.2.2.1.symm, ⟨m, hmodule, rfl⟩, hdeployed, hbinding.2.2.2.2⟩, hadded,
                hquiet, heq, hcall⟩
            · cases hpair
          · cases hissued
        · exact .inl (herror _)
    · exact .inl (herror _)

structure Current (w : World) (id : ℕ) : Prop where
  opened : w.webClosed = false
  flight : ∃ f, w.flights id = some f ∧ w.webGeneration = f.generation ∧
    w.around.guard f.view.moduleId f.view.moduleEpoch = true ∧
    (f.view.moduleId, f.view.capabilityId) ∈ w.around.deployment ∧ w.clock < f.view.deadline

theorem current_of_publishable (hf : w.flights id = some f) (h : w.publishable f = true) : w.Current id := by
  rw [publishable, Bool.and_eq_true, Bool.and_eq_true, Bool.and_eq_true, Bool.and_eq_true, Bool.not_eq_true',
    decide_eq_true_eq, decide_eq_true_eq] at h
  obtain ⟨⟨⟨⟨hopen, hgeneration⟩, htarget⟩, hguard⟩, hclock⟩ := h
  refine ⟨hopen, f, hf, hgeneration, hguard, ?_, hclock⟩
  rw [Option.any_eq_true] at htarget
  obtain ⟨m, -, hm⟩ := htarget
  rw [Bool.and_eq_true, Option.any_eq_true] at hm
  obtain ⟨-, c, hc, hallowed⟩ := hm
  have hname := List.find?_some hc
  rw [decide_eq_true_eq] at hname
  rw [Surroundings.allowsPublicWeb, Bool.and_eq_true, decide_eq_true_eq, hname] at hallowed
  exact hallowed.2

theorem resume_cases (w : World) (i : ℕ) (a : Return) :
    w.resume i a = w ∨ ∃ u call, w.Quiet u ∧ w.resume i a = u.setCall i call ∧
      ∀ id status, call = .ended (some id) (some (.result status)) → status.publishes = true → u.Current id := by
  unfold resume
  cases w.calls i with
  | idle => exact .inl rfl
  | ended flight reply => exact .inl rfl
  | waiting id =>
    dsimp only
    split
    · right
      refine ⟨_, _, quiet_seal, rfl, ?_⟩
      rintro id status ⟨⟩
    cases hf : w.flights id with
    | none => exact .inl rfl
    | some f =>
      right
      rw [Option.elim_some]
      have hquiet : w.Quiet ((w.seal id).disturb a) := quiet_seal.trans (quiet_disturb a)
      generalize (w.seal id).disturb a = u at hquiet
      obtain ⟨f', hf', -⟩ := hquiet.same id f hf
      cases w.result f a with
      | error code =>
        refine ⟨u, _, hquiet, rfl, ?_⟩
        rintro id status ⟨⟩
      | result status =>
        unfold publish
        dsimp only
        split
        · refine ⟨u, _, hquiet, rfl, ?_⟩
          rintro id status ⟨⟩
        rename_i hpublished
        refine ⟨u, _, hquiet, rfl, ?_⟩
        rintro id' status' ⟨⟩ hpublishes
        rw [hpublishes, Bool.true_and, Bool.not_eq_true', Bool.not_eq_false, hf', Option.any_some] at hpublished
        exact current_of_publishable hf' hpublished

end

section

variable {w w' : World} {a : Action}

theorem Sound.quiet_next (h : w.Sound) (ha : w.allowed a) (hinvoke : ∀ i r b, a ≠ .invoke i r b)
    (hresume : ∀ i b, a ≠ .resume i b) : w.Quiet (w.next a) := by
  cases a with
  | tick elapsed => exact quiet_same
  | change around => exact quiet_same
  | invoke i r b => exact absurd rfl (hinvoke i r b)
  | resume i b => exact absurd rfl (hresume i b)
  | check id proof => exact quiet_check
  | spawn id t first second => exact h.spawn ha.1
  | complete t outcome => exact quiet_complete
  | callback t =>
    obtain ⟨task, htask, -⟩ := ha
    change w.Quiet ((w.tasks t).elim w (w.callback t))
    rw [htask]
    exact quiet_callback htask
  | timer id => exact quiet_seal
  | release id =>
    apply quiet_modify
    · exact fun f _ => ⟨rfl, rfl, rfl, fun hs => hs⟩
    · exact fun f _ => List.Subset.refl _
  | fence => exact quiet_fencePublicWeb
  | drain => exact quiet_drainPublicWeb _

theorem Sound.goes_next (h : w.Sound) (ha : w.allowed a) : w.Goes (w.next a) := by
  by_cases hinvoke : ∃ i r b, a = .invoke i r b
  · obtain ⟨i, r, b, rfl⟩ := hinvoke
    change w.Goes (w.invoke i r b)
    obtain ⟨call, heq, -⟩ | ⟨f, u, call, -, hadded, hquiet, heq, -⟩ := h.invoke (i := i) (r := r) ha.2.1
    · rw [heq]
      exact goes_setCall
    · rw [heq]
      exact (hadded.trans hquiet.toGoes).trans goes_setCall
  · by_cases hresume : ∃ i b, a = .resume i b
    · obtain ⟨i, b, rfl⟩ := hresume
      change w.Goes (w.resume i b)
      obtain heq | ⟨u, call, hquiet, heq, -⟩ := resume_cases w i b
      · rw [heq]
        exact .refl w
      · rw [heq]
        exact hquiet.toGoes.trans goes_setCall
    · refine (h.quiet_next ha ?_ ?_).toGoes
      · exact fun i r b heq => hinvoke ⟨i, r, b, heq⟩
      · exact fun i b heq => hresume ⟨i, b, heq⟩

theorem sound_of_initial (h : w.initial) : w.Sound where
  known id hid := by
    rw [h.webFlights] at hid
    cases hid
  held id f hf := by
    rw [h.flights] at hf
    cases hf
  counted t task htask := by
    rw [h.tasks] at htask
    cases htask
  quota := by
    rw [h.webFlights]
    exact .nil

end

structure Bounded (w : World) : Prop where
  total : w.webFlights.length ≤ 4
  bearer : ∀ key, (w.webFlights.filter fun id => decide (w.bearer id = some key)).length ≤ 2
  counted : ∀ t task, w.tasks t = some task → task.outcome = none → task.flight ∈ w.webFlights

end World

/-- In every run the flights are bounded, and what is published is current: for the generation, the module and the
deployment that the flight started under. -/
theorem public_web_flights {w : World} (h : gateway.Reachable w) : w.Bounded ∧
      (∀ a, w.allowed a → ∀ i id status, (w.next a).calls i = .ended (some id) (some (.result status)) →
        (w.next a).calls i ≠ w.calls i → status.publishes = true → (w.next a).Current id) ∧
      (∀ a, w.allowed a → ∀ id f, w.flights id = none → (w.next a).flights id = some f → w.Starts f) ∧
      ∀ actions w', gateway.Trace w actions w' → ∀ id f, w.flights id = some f →
        ∃ f', w'.flights id = some f' ∧ f.Keeps f' := by
  have hw : w.Sound := by
    apply h.invariant
    · exact fun _ => World.sound_of_initial
    · exact fun u a hu ha => (hu.goes_next ha).sound hu
  refine ⟨⟨hw.quota.all, fun key => hw.quota.each (some key), fun t task ht hruns => (hw.counted t task ht hruns).1⟩,
    ?_, ?_, ?_⟩
  · intro a ha i id status hcall hnew hpublishes
    have hanswered : ∀ {u : World} {j : ℕ} {call : Call}, u.calls = w.calls → (u.setCall j call).calls i ≠ w.calls i →
        (u.setCall j call).calls i = call := by
      intro u j call hcalls hne
      change Function.update u.calls j call i ≠ _ at hne
      change Function.update u.calls j call i = _
      by_cases hi : i = j
      · rw [hi, Function.update_self]
      · rw [Function.update_of_ne hi, hcalls] at hne
        exact absurd rfl hne
    by_cases hinvoke : ∃ j r b, a = .invoke j r b
    · obtain ⟨j, r, b, rfl⟩ := hinvoke
      change (w.invoke j r b).calls i = _ at hcall
      change (w.invoke j r b).calls i ≠ _ at hnew
      obtain ⟨call, heq, hheld⟩ | ⟨f, u, call, -, -, hquiet, heq, hheld⟩ := hw.invoke (i := j) (r := r) ha.2.1
      · rw [heq] at hcall hnew
        rw [hanswered rfl hnew] at hcall
        exact absurd hcall (hheld id status)
      rw [heq] at hcall hnew
      rw [hanswered hquiet.calls hnew] at hcall
      exact absurd hcall (hheld id status)
    · by_cases hresume : ∃ j b, a = .resume j b
      · obtain ⟨j, b, rfl⟩ := hresume
        change (w.resume j b).calls i = _ at hcall
        change (w.resume j b).calls i ≠ _ at hnew
        change (w.resume j b).Current id
        obtain heq | ⟨u, call, hquiet, heq, hcurrent⟩ := World.resume_cases w j b
        · rw [heq] at hnew
          exact absurd rfl hnew
        rw [heq] at hcall hnew ⊢
        rw [hanswered hquiet.calls hnew] at hcall
        have hpublished := hcurrent id status hcall hpublishes
        exact ⟨hpublished.opened, hpublished.flight⟩
      · have hquiet := hw.quiet_next ha (fun j r b heq => hinvoke ⟨j, r, b, heq⟩) fun j b heq => hresume ⟨j, b, heq⟩
        exact absurd (congrFun hquiet.calls i) hnew
  · intro a ha id f hnone hf
    by_cases hinvoke : ∃ j r b, a = .invoke j r b
    · obtain ⟨j, r, b, rfl⟩ := hinvoke
      change (w.invoke j r b).flights id = _ at hf
      obtain ⟨call, heq, -⟩ | ⟨f', u, call, hstarts, -, hquiet, heq, -⟩ := hw.invoke (i := j) (r := r) ha.2.1
      · rw [heq] at hf
        change w.flights id = _ at hf
        rw [hnone] at hf
        cases hf
      rw [heq] at hf
      change u.flights id = _ at hf
      have hadded : ∀ id', (w.addFlight b.flight f').flights id' = if id' = b.flight then some f' else w.flights id' := by
        intro id'
        change Function.update w.flights b.flight _ id' = _
        rw [Function.update_apply]
      by_cases hid : id = b.flight
      · have hsome : (w.addFlight b.flight f').flights id = some f' := by rw [hadded, if_pos hid]
        obtain ⟨f'', hf'', hkeeps⟩ := hquiet.same id f' hsome
        rw [hf] at hf''
        cases hf''
        obtain ⟨hopen, hgeneration, htarget, hdeployed, hdeadline⟩ := hstarts
        refine ⟨hopen, hgeneration.trans hkeeps.generation.symm, ?_, ?_, ?_⟩
        · rw [hkeeps.view]
          exact htarget
        · rw [hkeeps.view]
          exact hdeployed
        · rw [hkeeps.view]
          exact hdeadline
      · have hstill := hquiet.fresh id (by rw [hadded, if_neg hid, hnone])
        rw [hstill] at hf
        cases hf
    · by_cases hresume : ∃ j b, a = .resume j b
      · obtain ⟨j, b, rfl⟩ := hresume
        change (w.resume j b).flights id = _ at hf
        obtain heq | ⟨u, call, hquiet, heq, -⟩ := World.resume_cases w j b
        · rw [heq, hnone] at hf
          cases hf
        rw [heq] at hf
        change u.flights id = _ at hf
        rw [hquiet.fresh id hnone] at hf
        cases hf
      · have hquiet := hw.quiet_next ha (fun j r b heq => hinvoke ⟨j, r, b, heq⟩) fun j b heq => hresume ⟨j, b, heq⟩
        rw [hquiet.fresh id hnone] at hf
        cases hf
  · intro actions w' htrace id f hf
    have hgoes : w.Goes w' := by
      refine htrace.relates World.Goes.refl (fun _ _ _ => World.Goes.trans) ?_ hw
      exact fun u a hu ha => ⟨(hu.goes_next ha).sound hu, hu.goes_next ha⟩
    exact hgoes.same id f hf

namespace Sample

def around : Surroundings where
  modules moduleId := if moduleId = "items" then
      some ⟨3, true, [⟨"query", .public, .readOnly, [.command, .webPublic]⟩]⟩
    else none
  states moduleId := if moduleId = "items" then some ⟨.active, some 3⟩ else none
  deployment := [("items", "query")]

def empty : World := ⟨0, false, 1, around, fun _ => none, [], fun _ => none, fun _ => .idle⟩

def admission (flight task : ℕ) : Admission :=
  ⟨some ⟨"items", "query", 1, "bearer", 20⟩, true, 30, true, flight, true, task, true⟩

def run : List Action := [.invoke 0 ⟨"items", "query"⟩ (admission 0 0), .invoke 1 ⟨"items", "query"⟩ (admission 1 1),
  .invoke 2 ⟨"items", "query"⟩ (admission 2 2), .spawn 0 3 true true, .tick 5, .complete 3 (.value .success),
  .complete 0 (.value .success), .callback 0]

def answer : Action := .resume 0 ⟨false, true, true, 1, false, around⟩

def permits (w : World) : Action → Bool
  | .tick elapsed => decide (0 ≤ elapsed)
  | .invoke i _ a => (w.calls i).over && (w.flights a.flight).isNone && (w.tasks a.task).isNone
  | .resume _ a => decide (0 ≤ a.elapsed)
  | .spawn id t _ _ => (w.flights id).isSome && (w.tasks t).isNone
  | .check id _ => (w.flights id).isSome
  | .complete t _ => (w.tasks t).any fun task => task.outcome.isNone
  | .callback t => (w.tasks t).any fun task => task.outcome.isSome && !task.called
  | .timer id => (w.flights id).any Flight.timer
  | _ => true

def permitted : System.CheckedRun World.next permits empty := ⟨run, by decide +kernel⟩

theorem allowed_of_permits {w : World} {a : Action} (h : permits w a = true) : w.allowed a := by
  cases a with
  | tick elapsed =>
    have hle : 0 ≤ elapsed := of_decide_eq_true h
    exact hle
  | invoke i r a =>
    simp only [permits, Bool.and_eq_true, Option.isNone_iff_eq_none] at h
    exact ⟨h.1.1, h.1.2, h.2⟩
  | resume i a =>
    have hle : 0 ≤ a.elapsed := of_decide_eq_true h
    exact hle
  | spawn id t first second =>
    simp only [permits, Bool.and_eq_true, Option.isNone_iff_eq_none, Option.isSome_iff_ne_none] at h
    exact h
  | check id proof =>
    simp only [permits, Option.isSome_iff_ne_none] at h
    exact h
  | complete t outcome =>
    simp only [permits, Option.any_eq_true, Option.isNone_iff_eq_none] at h
    exact h
  | callback t =>
    simp only [permits, Option.any_eq_true, Bool.and_eq_true, Bool.not_eq_true', Option.isSome_iff_ne_none] at h
    exact h
  | timer id => exact h
  | _ => trivial

end Sample

theorem public_web_flights_sample : ∃ w : World, w.webFlights = [0, 1] ∧ w.calls 2 = .ended none (some (.error .rateLimited)) ∧
    w.Bounded ∧ (w.next Sample.answer).Current 0 := by
  have hrun : gateway.Trace Sample.empty Sample.run (Sample.run.foldl World.next Sample.empty) :=
    System.Trace.of_checked (S := gateway)
      (fun w a (h : Sample.permits w a = true) => Sample.allowed_of_permits h) Sample.permitted.property
  have hproved := public_web_flights ⟨_, _, ⟨rfl, fun _ => rfl, rfl, fun _ => rfl, fun _ => rfl⟩, hrun⟩
  refine ⟨_, ?_, ?_, hproved.1, hproved.2.1 Sample.answer ?_ 0 0 .success ?_ ?_ rfl⟩
  · decide +kernel
  · decide +kernel
  · apply Sample.allowed_of_permits
    decide +kernel
  · decide +kernel
  · decide +kernel

end GameLink.Gateway

import GameLink.Executor.Runs

namespace GameLink.Executor

open Foundation

namespace World

variable (w : World)

def unfinished : ℕ := w.accepted.countP fun c => (w.futures c).isNone

end World

structure Lossless (w : World) : Prop where
  once : w.accepted.Nodup
  order : w.accepted = w.taken ++ w.queue.map Job.number
  run : w.taken = w.runs.map (fun e => e.1.number) ++ w.running.map Job.number
  alone : w.running.length ≤ 1
  called : ∀ e ∈ w.runs, e.2.called = if e.2.began then 1 else 0
  outcome : ∀ c o, w.callers c = .ended o → ∃ e ∈ w.runs, e.1.number = c ∧ e.2.closed = true ∧
    (o = some e.2.outcome ∨ o = none ∧ c ∈ w.cancels)
  committed : ∀ e ∈ w.runs, ∀ f, e.2.outcome = .error f → e.2.stored = e.2.own
  counted : w.outstanding = w.unfinished
  bounded : w.outstanding ≤ capacity
  closed : w.state = .closed → w.outstanding = 0 ∧ w.workers = []

namespace Sound

variable {w : World}

theorem split (h : Sound w) : ∃ done : List ℕ,
    w.accepted = done ++ (w.finishes.map (fun e => e.1.number) ++ w.running.map Job.number ++ w.queue.map Job.number) ∧
    ∀ c, (w.futures c).isSome = true ↔ c ∈ done := by
  obtain ⟨done, hdone, hfutures⟩ := h.futures
  refine ⟨done.map fun e => e.1.number, ?_, ?_⟩
  · have hruns : w.runs.map (fun e => e.1.number) = w.outcomes.map fun e => e.1.number := by
      unfold World.outcomes
      rw [List.map_map]
      rfl
    rw [h.order, h.begun, hruns, hdone, List.map_append]
    simp only [List.append_assoc]
  · intro c
    rw [Option.isSome_iff_exists, List.mem_map]
    constructor
    · rintro ⟨o, ho⟩
      obtain ⟨job, hnumber, hmem⟩ := (hfutures c o).mp ho
      exact ⟨(job, o), hmem, hnumber⟩
    · rintro ⟨e, hmem, hnumber⟩
      exact ⟨e.2, (hfutures c e.2).mpr ⟨e.1, hnumber, hmem⟩⟩

theorem unfinished_eq (h : Sound w) : w.outstanding = w.unfinished := by
  obtain ⟨done, hsplit, hdone⟩ := h.split
  have honce := h.once
  rw [hsplit, List.nodup_append] at honce
  have hnone : ∀ c, (w.futures c).isNone = true ↔ c ∉ done := by
    intro c
    rw [← hdone c, Option.isNone_iff_eq_none, Option.isSome_iff_ne_none, not_not]
  unfold World.unfinished
  rw [hsplit, List.countP_append, List.countP_eq_zero.mpr, Nat.zero_add, List.countP_eq_length.mpr]
  · simp only [List.length_append, List.length_map]
    rw [h.counted]
    omega
  · intro c hc
    rw [hnone c]
    exact fun hc' => honce.2.2 c hc' c hc rfl
  · intro c hc hn
    exact (hnone c).mp hn hc

theorem lossless (h : Sound w) : Lossless w := by
  constructor
  · exact h.once
  · exact h.order
  · exact h.begun
  · rcases h.worker with ⟨-, hw⟩ | ⟨n, job, -, hw⟩
    · unfold World.running
      rw [hw]
      exact Nat.zero_le 1
    unfold World.running
    rw [hw]
    exact List.length_filterMap_le _ _
  · exact fun e he => (h.runs e he).called
  · intro c o hc
    obtain ⟨o', ho', hor⟩ := h.ended c o hc
    obtain ⟨done, hdone, hfutures⟩ := h.futures
    obtain ⟨job, hnumber, hmem⟩ := (hfutures c o').mp ho'
    have hout : (job, o') ∈ w.outcomes := by
      rw [hdone]
      exact List.mem_append_left _ hmem
    obtain ⟨e, he, heq⟩ := List.mem_map.mp hout
    obtain ⟨hjob, hoe⟩ := Prod.mk.inj heq
    refine ⟨e, he, ?_, (h.runs e he).closed, ?_⟩
    · rw [hjob]
      exact hnumber
    · rw [hoe]
      exact hor
  · exact fun e he => (h.runs e he).stored
  · exact h.unfinished_eq
  · have hsum := h.slots
    omega
  · exact h.closed

end Sound

/-- What one step keeps: a submission that raises leaves everything as it was, `close` returns when all is
done, and a closed executor stays closed and accepts nothing. -/
structure Kept (w w' : World) : Prop where
  refused : ∀ c r, (∀ r, w.callers c ≠ .refused r) → w'.callers c = .refused r →
    w'.outstanding = w.outstanding ∧ w'.slots = w.slots ∧ w'.worker = w.worker
  returned : ∀ k, w.closers k ≠ .returned → w'.closers k = .returned →
    w'.state = .closed ∧ w'.outstanding = 0 ∧ w'.workers = []
  closed : w.state = .closed → w'.state = .closed ∧ w'.accepted = w.accepted

namespace Kept

variable {w w' : World}

theorem of_eq (hcallers : w'.callers = w.callers) (hclosers : w'.closers = w.closers) (hstate : w'.state = w.state)
    (haccepted : w'.accepted = w.accepted) : Kept w w' := by
  constructor
  · intro c r hn hc
    rw [hcallers] at hc
    exact absurd hc (hn r)
  · intro k hn hk
    rw [hclosers] at hk
    exact absurd hk hn
  · intro hs
    exact ⟨hstate.trans hs, haccepted⟩

theorem of_setCaller (c : ℕ) (s : Caller) : Kept w (w.setCaller c s) := by
  constructor
  · exact fun _ _ _ _ => ⟨rfl, rfl, rfl⟩
  · exact fun k hn hk => absurd hk hn
  · exact fun hs => ⟨hs, rfl⟩

end Kept

namespace Sound

variable {w : World}

theorem kept_enter (h : Sound w) {c : ℕ} {started : Bool} (ha : w.allowed (.enter c started) = true)
    (hs : w.smooth (.enter c started) = true) : Kept w (w.enter c started) := by
  obtain ⟨kind, hc, hslots⟩ := waiting_of_allowed ha
  rcases h.enter_cases hc hslots hs with ⟨-, heq⟩ | ⟨hopen, -, hcallers, hclosers, -⟩
  · rw [heq]
    exact Kept.of_setCaller c _
  constructor
  · intro c' r hn hc'
    rw [hcallers] at hc'
    by_cases heq : c' = c
    · subst heq
      rw [Function.update_self] at hc'
      cases hc'
    · rw [Function.update_of_ne heq] at hc'
      exact absurd hc' (hn r)
  · intro k hn hk
    rw [hclosers] at hk
    exact absurd hk hn
  · intro hs
    rw [hopen] at hs
    cases hs

theorem kept_closer {s : Closer} (k : ℕ) (hs : s = .returned → w.state = .closed ∧ w.outstanding = 0 ∧ w.workers = []) :
    Kept w (w.setCloser k s) := by
  constructor
  · exact fun c r hn hc => absurd hc (hn r)
  · intro k' hn hk'
    have hk'' : Function.update w.closers k s k' = .returned := hk'
    by_cases heq : k' = k
    · subst heq
      rw [Function.update_self] at hk''
      exact hs hk''
    · rw [Function.update_of_ne heq] at hk''
      exact absurd hk'' hn
  · exact fun hc => ⟨hc, rfl⟩

theorem kept (h : Sound w) {a : Action} (ha : w.allowed a = true) (hs : w.smooth a = true) : Kept w (w.next a) := by
  cases a with
  | submit kind =>
    constructor
    · exact fun _ _ _ _ => ⟨rfl, rfl, rfl⟩
    · exact fun k hn hk => absurd hk hn
    · exact fun hs => ⟨hs, rfl⟩
  | enter c started => exact h.kept_enter ha hs
  | cancel c =>
    change Kept w (w.cancel c)
    unfold World.cancel
    split
    · exact Kept.of_setCaller c _
    · constructor
      · exact fun _ _ _ _ => ⟨rfl, rfl, rfl⟩
      · exact fun k hn hk => absurd hk hn
      · exact fun hs => ⟨hs, rfl⟩
    · exact Kept.of_eq rfl rfl rfl rfl
  | take n =>
    change Kept w (w.take n)
    unfold World.take
    split <;> exact Kept.of_eq rfl rfl rfl rfl
  | complete n course =>
    change Kept w (w.complete n course)
    unfold World.complete
    split <;> exact Kept.of_eq rfl rfl rfl rfl
  | retire n =>
    change Kept w (w.retire n)
    unfold World.retire
    split <;> exact Kept.of_eq rfl rfl rfl rfl
  | finish =>
    change Kept w w.finish
    unfold World.finish
    split <;> exact Kept.of_eq rfl rfl rfl rfl
  | resume c =>
    change Kept w (w.resume c)
    unfold World.resume
    split
    · exact Kept.of_setCaller c _
    · exact Kept.of_eq rfl rfl rfl rfl
  | close k =>
    change Kept w (w.close k)
    unfold World.close
    split
    · rename_i hc
      exact kept_closer k fun _ => ⟨hc, h.closed hc⟩
    rename_i hc
    have hkept := kept_closer (w := { w with state := .closing }) (s := .polling) k fun hn => nomatch hn
    exact ⟨hkept.refused, hkept.returned, fun hs => absurd hs hc⟩
  | poll k =>
    change Kept w (w.poll k)
    unfold World.poll
    split
    · rename_i hp
      have hkept := kept_closer (w := { w with state := .closed }) (s := .returned) k
        fun _ => ⟨rfl, hp.1, h.workers_of_dead hp.2⟩
      exact ⟨hkept.refused, hkept.returned, fun _ => ⟨rfl, rfl⟩⟩
    · exact Kept.of_eq rfl rfl rfl rfl
  | timeOut k => exact kept_closer k fun hn => nomatch hn

end Sound

def Caller.over : Caller → Bool
  | .ended _ => true
  | _ => false

def Action.works : Action → Bool
  | .take _ => true
  | .complete _ _ => true
  | .finish => true
  | .resume _ => true
  | _ => false

def Action.submits : Action → Bool
  | .enter _ _ => true
  | _ => false

namespace World

variable (w : World)

def work : ℕ :=
  3 * w.queue.length + 2 * w.running.length + w.finishes.length + w.accepted.countP fun c => !(w.callers c).over

end World

structure Live (w : World) : Prop where
  goes : ∀ c ∈ w.accepted, (w.callers c).over = false → ∃ a, a.works = true ∧ w.allowed a = true ∧ w.smooth a = true
  shrinks : ∀ a, a.works = true → w.allowed a = true → (w.next a).work < w.work
  others : ∀ a, a.submits = false → w.allowed a = true → (w.next a).work ≤ w.work

theorem countP_lt {l : List ℕ} {p q : ℕ → Bool} {c : ℕ} (hc : c ∈ l) (hp : p c = true) (hq : q c = false)
    (h : ∀ a, q a = true → p a = true) : l.countP q < l.countP p := by
  obtain ⟨front, back, rfl⟩ := List.append_of_mem hc
  have hfront := List.countP_mono_left (l := front) fun a _ => h a
  have hback := List.countP_mono_left (l := back) fun a _ => h a
  rw [List.countP_append, List.countP_append, List.countP_cons_of_pos hp,
    List.countP_cons_of_neg (by rw [hq]; exact Bool.false_ne_true)]
  omega

namespace Sound

variable {w : World}

def well : Course := ⟨true, true, true, [], .ok 0, true, true, true⟩

variable {c : ℕ}

theorem goes_loop (h : Sound w) (hq : w.queue = []) (hrunning : w.running = []) (hc : c ∈ w.accepted)
    (hover : (w.callers c).over = false) : ∃ a, Action.works a = true ∧ w.allowed a = true ∧ w.smooth a = true := by
  by_cases hf : w.finishes = []
  · obtain ⟨done, hsplit, hdone⟩ := h.split
    rw [hf, hq, hrunning] at hsplit
    simp only [List.map_nil, List.append_nil] at hsplit
    refine ⟨.resume c, rfl, ?_, rfl⟩
    have hacc := (h.callers c).mp hc
    unfold World.allowed
    dsimp only
    cases hcaller : w.callers c with
    | awaiting x => exact (hdone c).mpr (hsplit ▸ hc)
    | ended o =>
      rw [hcaller] at hover
      cases hover
    | _ =>
      rw [hcaller] at hacc
      cases hacc
  · refine ⟨.finish, rfl, ?_, rfl⟩
    unfold World.allowed
    dsimp only
    cases hfin : w.finishes with
    | nil => exact absurd hfin hf
    | cons e rest => rfl

theorem goes (h : Sound w) (hc : c ∈ w.accepted) (hover : (w.callers c).over = false) :
    ∃ a, Action.works a = true ∧ w.allowed a = true ∧ w.smooth a = true := by
  rcases h.worker with ⟨-, hw⟩ | ⟨n, job, -, hw⟩
  · have hq : w.queue = [] := by
      by_contra hq
      exact h.served hq hw
    apply h.goes_loop hq _ hc hover
    unfold World.running
    rw [hw]
    rfl
  · have hlookup : w.workers.lookup n = some job := by
      rw [hw, List.lookup_cons, beq_self_eq_true]
    cases job with
    | some job =>
      refine ⟨.complete n well, rfl, ?_, rfl⟩
      unfold World.allowed
      dsimp only
      rw [hlookup]
    | none =>
      by_cases hq : w.queue = []
      · apply h.goes_loop hq _ hc hover
        unfold World.running
        rw [hw]
        rfl
      refine ⟨.take n, rfl, ?_, rfl⟩
      unfold World.allowed
      dsimp only
      rw [hlookup]
      cases hqueue : w.queue with
      | nil => exact absurd hqueue hq
      | cons job queue => rfl

theorem work_take (h : Sound w) {n : ℕ} (ha : w.allowed (.take n) = true) : (w.take n).work < w.work := by
  have ha' := Bool.and_eq_true_iff.mp ha
  obtain ⟨-, hw⟩ := h.single (of_decide_eq_true ha'.1)
  unfold World.take
  split
  · rename_i job queue hq
    have hworkers := workers_setWorker (w := { w with queue := queue, taken := w.taken ++ [job.number] }) hw (some job)
    unfold World.work World.running
    rw [hworkers, hw, hq]
    change 3 * queue.length + 2 * 1 + w.finishes.length + _ < 3 * (queue.length + 1) + 2 * 0 + w.finishes.length + _
    exact Nat.add_lt_add_right (by omega) _
  · rename_i hq
    rw [hq] at ha'
    exact absurd ha'.2 Bool.false_ne_true

theorem work_complete (h : Sound w) {n : ℕ} {course : Course} (ha : w.allowed (.complete n course) = true) :
    (w.complete n course).work < w.work := by
  unfold World.complete
  split
  · rename_i job hn
    obtain ⟨-, hw⟩ := h.single hn
    dsimp only
    generalize runJob job.kind course w.stored = r
    have hworkers := workers_setWorker (w := { w with
      stored := r.stored, runs := w.runs ++ [(job, r)], finishes := w.finishes ++ [(job, r.outcome)] }) hw none
    unfold World.work World.running
    rw [hworkers, hw]
    change 3 * w.queue.length + 2 * 0 + (w.finishes ++ [(job, r.outcome)]).length + _ <
      3 * w.queue.length + 2 * 1 + w.finishes.length + _
    rw [List.length_append, List.length_singleton]
    exact Nat.add_lt_add_right (by omega) _
  · rename_i hno
    unfold World.allowed at ha
    dsimp only at ha
    split at ha
    · rename_i job hn
      exact absurd hn (hno job)
    · exact absurd ha Bool.false_ne_true

theorem work_finish (ha : w.allowed .finish = true) : w.finish.work < w.work := by
  unfold World.finish
  split
  · rename_i job o finishes hf
    unfold World.work
    rw [hf, List.length_cons]
    change 3 * w.queue.length + 2 * w.running.length + finishes.length + _ <
      3 * w.queue.length + 2 * w.running.length + (finishes.length + 1) + _
    exact Nat.add_lt_add_right (by omega) _
  · rename_i hf
    unfold World.allowed at ha
    rw [hf] at ha
    exact absurd ha Bool.false_ne_true

theorem work_resume (h : Sound w) (ha : w.allowed (.resume c) = true) : (w.resume c).work < w.work := by
  unfold World.resume
  split
  · rename_i cancelled o hc ho
    apply Nat.add_lt_add_left
    change w.accepted.countP (fun c' => !(Function.update w.callers c (.ended (if cancelled then none else some o)) c').over) <
      w.accepted.countP fun c => !(w.callers c).over
    apply countP_lt (c := c)
    · rw [h.callers, hc]
      rfl
    · rw [hc]
      rfl
    · rw [Function.update_self]
      rfl
    intro c' hc'
    by_cases heq : c' = c
    · subst heq
      rw [Function.update_self] at hc'
      cases hc'
    · rw [Function.update_of_ne heq] at hc'
      exact hc'
  · rename_i hno
    unfold World.allowed at ha
    dsimp only at ha
    split at ha
    · rename_i x hc
      obtain ⟨o, ho⟩ := Option.isSome_iff_exists.mp ha
      exact absurd ho (hno x o hc)
    · exact absurd ha Bool.false_ne_true

theorem work_setCaller {s : Caller} (hs : s.over = false) (hc : (w.callers c).over = false) :
    (w.setCaller c s).work = w.work := by
  have hsame : ∀ c', (Function.update w.callers c s c').over = (w.callers c').over := by
    intro c'
    by_cases heq : c' = c
    · subst heq
      rw [Function.update_self, hs, hc]
    · rw [Function.update_of_ne heq]
  change _ + w.accepted.countP (fun c' => !(Function.update w.callers c s c').over) = _
  simp only [hsame]
  rfl

theorem shrinks (h : Sound w) {a : Action} (hworks : a.works = true) (ha : w.allowed a = true) :
    (w.next a).work < w.work := by
  cases a with
  | take n => exact h.work_take ha
  | complete n course => exact h.work_complete ha
  | finish => exact work_finish ha
  | resume c => exact h.work_resume ha
  | _ => cases hworks

theorem others (h : Sound w) {a : Action} (hsubmits : a.submits = false) (ha : w.allowed a = true) :
    (w.next a).work ≤ w.work := by
  by_cases hworks : a.works = true
  · exact Nat.le_of_lt (h.shrinks hworks ha)
  cases a with
  | submit kind =>
    apply Nat.le_of_eq
    apply work_setCaller (w := { w with requests := w.requests + 1 })
    · rfl
    change (w.callers w.requests).over = false
    rw [h.fresh w.requests (Nat.le_refl _)]
    rfl
  | cancel c =>
    apply Nat.le_of_eq
    change (w.cancel c).work = w.work
    unfold World.cancel
    split
    · rename_i kind hc
      apply work_setCaller
      · rfl
      · rw [hc]
        rfl
    · rename_i x hc
      apply work_setCaller (w := { w with cancels := c :: w.cancels })
      · rfl
      change (w.callers c).over = false
      rw [hc]
      rfl
    · rfl
  | retire n =>
    obtain ⟨-, hw⟩ := h.single (of_decide_eq_true ha)
    change (w.retire n).work ≤ w.work
    unfold World.retire
    split
    · unfold World.work World.running
      dsimp only
      rw [hw]
      simp
    · exact Nat.le_refl _
  | close k =>
    apply Nat.le_of_eq
    change (w.close k).work = w.work
    unfold World.close
    split <;> rfl
  | poll k =>
    apply Nat.le_of_eq
    change (w.poll k).work = w.work
    unfold World.poll
    split <;> rfl
  | timeOut k => exact Nat.le_refl _
  | enter c started => cases hsubmits
  | _ => exact absurd rfl hworks

theorem live (h : Sound w) : Live w :=
  ⟨fun _ hc hover => h.goes hc hover, fun _ hworks ha => h.shrinks hworks ha, fun _ hs ha => h.others hs ha⟩

end Sound

/-- No job is lost or repeated in a run whose threads start and whose connections can be rolled back. -/
theorem loses_and_repeats_no_job {w : World} (h : smooth.Reachable w) :
    Lossless w ∧ Live w ∧ ∀ a, smooth.allowed w a → Kept w (w.next a) := by
  have hs := Sound.of_reachable h
  exact ⟨hs.lossless, hs.live, fun a ha => hs.kept ha.1 ha.2⟩

namespace Sample

def unstarted : List Action := [.submit .read, .enter 0 false, .submit .read, .enter 1 true]

def stuck : System.CheckedRun World.next World.allowed (World.start []) := ⟨unstarted, by decide +kernel⟩

def returns : Course := ⟨true, true, true, [.write 7], .ok 1, true, true, true⟩

def raises : Course := ⟨true, true, true, [.write 8], .error (.callback 3), true, true, true⟩

def settled : List Action :=
  [.submit .transaction, .enter 0 true, .submit .transaction, .enter 1 true, .take 0, .cancel 1, .complete 0 returns,
    .finish, .resume 0, .take 0, .complete 0 raises, .close 0, .finish, .resume 1, .retire 0, .poll 0]

end Sample

/-- After a thread has failed to start, an accepted job has no worker, and no step that would work on it. -/
theorem job_lost_without_worker :
    ¬ ∀ w, system.Reachable w → Lossless w ∧ Live w ∧ ∀ a, system.allowed w a → Kept w (w.next a) := by
  intro hall
  have htrace : system.Trace (World.start []) Sample.unstarted (Sample.unstarted.foldl World.next (World.start [])) :=
    System.Trace.of_checked (fun _ _ h => h) Sample.stuck.property
  have hlive := (hall _ ⟨_, _, ⟨[], rfl⟩, htrace⟩).2.1
  obtain ⟨a, hworks, ha, -⟩ := hlive.goes 1 (by decide +kernel) (by decide +kernel)
  cases a with
  | take n => cases ha
  | complete n course => cases ha
  | finish => cases ha
  | resume c =>
    by_cases hc : c = 1
    · subst hc
      cases ha
    have hnone : (Sample.unstarted.foldl World.next (World.start [])).futures c = none := rfl
    unfold World.allowed at ha
    dsimp only at ha
    rw [hnone] at ha
    split at ha <;> exact Bool.false_ne_true ha
  | _ => cases hworks

theorem loses_and_repeats_no_job_settled : Lossless (Sample.settled.foldl World.next (World.start [])) ∧
      (Sample.settled.foldl World.next (World.start [])).stored = [7] := by
  have hcheck : ∀ (w : World) (a : Action), (w.allowed a && w.smooth a) = true → smooth.allowed w a :=
    fun _ _ h => Bool.and_eq_true_iff.mp h
  have htrace : smooth.Trace (World.start []) Sample.settled (Sample.settled.foldl World.next (World.start [])) :=
    System.Trace.of_checked hcheck (by decide +kernel)
  constructor
  · exact (loses_and_repeats_no_job ⟨World.start [], _, ⟨[], rfl⟩, htrace⟩).1
  · decide +kernel

end GameLink.Executor

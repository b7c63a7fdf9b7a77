import GameLink.Sources.Authorizations

namespace GameLink.Sources.Authorizations

open Foundation

structure Session.Sound (s : Session) : Prop where
  quiet : s.state ≠ .waiting → s.slots = [] ∧ s.qrUrl = none
  authorized : s.state = .authorized → s.stored = true
  stored : s.stored = true → s.state = .authorized ∨ s.state = .closed
  writes : s.writes ≤ 1
  unwritten : s.state = .waiting → s.committing = false → s.writes = 0
  committing : s.committing = s.lock.any fun h => h.stage.commits
  polls : s.polled.length ≤ s.polls ∧ s.polls ≤ s.policy.maxPolls
  spaced : s.polled.Pairwise fun later earlier => earlier + s.policy.pollIntervalSeconds ≤ later
  next : ∀ t ∈ s.polled, t + s.policy.pollIntervalSeconds ≤ s.nextPollAt

structure Session.Goes (s s' : Session) : Prop where
  sound : s.Sound → s'.Sound
  frozen : s.state ≠ .waiting → s'.state = s.state

namespace Session

variable {s s' s'' : Session} {state : SessionState} {now : ℚ}

theorem Goes.refl (s : Session) : s.Goes s := ⟨id, fun _ => rfl⟩

theorem Goes.trans (h : s.Goes s') (h' : s'.Goes s'') : s.Goes s'' where
  sound hs := h'.sound (h.sound hs)
  frozen hs := by
    have hsame := h.frozen hs
    rw [← hsame] at hs
    exact (h'.frozen hs).trans hsame

theorem goes_clear (h : s.state = .waiting ∨ s.state = state) (hwaiting : state ≠ .waiting)
    (hauthorized : state ≠ .authorized) (hclosed : state = .closed → s.state = .waiting) : s.Goes (s.clear state) where
  sound hs := by
    have hunstored : s.stored = false := by
      cases hstored : s.stored with
      | false => rfl
      | true =>
        have hstate := hs.stored hstored
        cases h with
        | inl hwait =>
          rw [hwait] at hstate
          cases hstate with
          | inl hbad => cases hbad
          | inr hbad => cases hbad
        | inr hsame =>
          rw [hsame] at hstate hclosed
          cases hstate with
          | inl hbad => exact absurd hbad hauthorized
          | inr hbad => exact absurd (hclosed hbad) hwaiting
    refine ⟨fun _ => ⟨rfl, rfl⟩, fun hbad => absurd hbad hauthorized, ?_, hs.writes, fun hbad => absurd hbad hwaiting,
      hs.committing, hs.polls, hs.spaced, hs.next⟩
    intro hstored
    change s.stored = true at hstored
    rw [hunstored] at hstored
    cases hstored
  frozen hs := (h.resolve_left hs).symm

theorem goes_release (h : s.state ≠ .waiting ∨ s.committing = false) : s.Goes s.release where
  sound hs := by
    refine ⟨hs.quiet, hs.authorized, hs.stored, hs.writes, ?_, rfl, hs.polls, hs.spaced, hs.next⟩
    intro hwait _
    cases h with
    | inl hleft => exact absurd hwait hleft
    | inr hidle => exact hs.unwritten hwait hidle
  frozen _ := rfl

theorem goes_acquire {i : ℕ} (h : s.lock = none) : s.Goes (s.acquire i) where
  sound hs := by
    refine ⟨hs.quiet, hs.authorized, hs.stored, hs.writes, hs.unwritten, ?_, hs.polls, hs.spaced, hs.next⟩
    have hcommitting := hs.committing
    rw [h] at hcommitting
    exact hcommitting
  frozen _ := rfl

variable {holder : Holder}

theorem goes_move {stage : Stage} (h : s.lock = some holder) (hold : holder.stage.commits = false)
    (hnew : stage.commits = false) : s.Goes (s.move stage) where
  sound hs := by
    refine ⟨hs.quiet, hs.authorized, hs.stored, hs.writes, hs.unwritten, ?_, hs.polls, hs.spaced, hs.next⟩
    have hcommitting := hs.committing
    rw [h, Option.any_some, hold] at hcommitting
    change s.committing = (s.lock.map _).any _
    rw [h, Option.map_some, Option.any_some, hnew]
    exact hcommitting
  frozen _ := rfl

theorem goes_apply {ticket url : String} (h : s.state = .waiting) : s.Goes (s.apply ticket url) where
  sound hs := ⟨fun hleft => absurd h hleft, hs.authorized, hs.stored, hs.writes, hs.unwritten, hs.committing, hs.polls,
    hs.spaced, hs.next⟩
  frozen _ := rfl

theorem goes_count (hpolls : s.polls < s.policy.maxPolls) (hnow : s.nextPollAt ≤ now) : s.Goes (s.count now) where
  sound hs := by
    refine ⟨hs.quiet, hs.authorized, hs.stored, hs.writes, hs.unwritten, hs.committing, ⟨hs.polls.1.trans (Nat.le_succ _), hpolls⟩,
      hs.spaced, ?_⟩
    intro t ht
    have hinterval := s.policy.timing.1
    exact ((hs.next t ht).trans hnow).trans (le_add_of_nonneg_right (le_of_lt hinterval))
  frozen _ := rfl

theorem goes_send (h : s.lock = some holder) (hold : holder.stage.commits = false)
    (hpolls : s.polls < s.policy.maxPolls) (hnow : s.nextPollAt ≤ now) : s.Goes ((s.count now).send now) where
  sound hs := by
    have hcounted := (goes_count hpolls hnow).sound hs
    have hsent : (s.count now).Goes ((s.count now).move .fetch) := goes_move h hold rfl
    have hmoved := hsent.sound hcounted
    refine ⟨hs.quiet, hs.authorized, hs.stored, hs.writes, hs.unwritten, hmoved.committing,
      ⟨Nat.succ_le_succ hs.polls.1, hpolls⟩, ?_, ?_⟩
    · exact List.pairwise_cons.mpr ⟨fun t ht => (hs.next t ht).trans hnow, hs.spaced⟩
    intro t ht
    cases List.mem_cons.mp ht with
    | inl hnew =>
      rw [hnew]
      exact le_rfl
    | inr hold' => exact hcounted.next t hold'
  frozen _ := rfl

variable {captures : Captures}

theorem goes_write (h : s.lock = some holder) (hold : holder.stage.commits = false)
    (hwaiting : s.state = .waiting) : s.Goes (s.write captures) where
  sound hs := by
    have hidle : s.committing = false := by
      rw [hs.committing, h, Option.any_some, hold]
    have hzero := hs.unwritten hwaiting hidle
    refine ⟨fun _ => ⟨rfl, rfl⟩, hs.authorized, hs.stored, ?_, fun _ => (by rintro ⟨⟩), ?_, hs.polls, hs.spaced, hs.next⟩
    · change s.writes + 1 ≤ 1
      rw [hzero]
    change true = (s.lock.map _).any _
    rw [h]
    rfl
  frozen _ := rfl

theorem goes_store (h : s.state = .closed) : s.Goes s.store where
  sound hs := by
    refine ⟨hs.quiet, fun _ => rfl, fun _ => .inr h, hs.writes, hs.unwritten, hs.committing, hs.polls, hs.spaced, hs.next⟩
  frozen _ := rfl

theorem goes_authorize (h : s.state = .waiting) : s.Goes (s.authorize captures) where
  sound hs := by
    refine ⟨fun _ => ⟨rfl, rfl⟩, fun _ => rfl, fun _ => .inl rfl, hs.writes, ?_, hs.committing, hs.polls, hs.spaced, hs.next⟩
    rintro ⟨⟩
  frozen hs := absurd h hs

end Session

namespace World

structure Lists (w : World) : Prop where
  active : w.active.length ≤ maxActiveSessions
  nodup : w.active.Nodup
  waits : ∀ id ∈ w.active, ∃ s, w.sessions id = some s ∧ s.state = .waiting
  held : ∀ id s, w.sessions id = some s → s.state = .waiting → id ∈ w.active
  terminal : w.terminal.length ≤ maxTerminalSessions
  closed : w.isClosed = true → w.active = []

def Reported (w : World) : Prop :=
  ∀ i id state, w.calls i = .ended (some (id, state)) → state ≠ .waiting → ∃ s, w.sessions id = some s ∧ s.state = state

structure Goes (w w' : World) : Prop where
  sessions : ∀ id s, w.sessions id = some s → ∃ s', w'.sessions id = some s' ∧ s.Goes s'
  fresh : ∀ id s', w'.sessions id = some s' → w.sessions id = none → s'.Sound
  lists : w.Lists → w'.Lists
  reported : w.Reported → w'.Reported

section

variable {w w' w'' : World} {id : String} {i : ℕ} {state : SessionState} {f : Session → Session} {a : Answer}

theorem Goes.refl (w : World) : w.Goes w :=
  ⟨fun _ s hs => ⟨s, hs, .refl s⟩, fun _ _ hs hnone => absurd (hs.symm.trans hnone) (Option.some_ne_none _), fun h => h,
    fun h => h⟩

theorem Goes.trans (h : w.Goes w') (h' : w'.Goes w'') : w.Goes w'' where
  sessions id s hs := by
    obtain ⟨s', hs', hgoes⟩ := h.sessions id s hs
    obtain ⟨s'', hs'', hgoes'⟩ := h'.sessions id s' hs'
    exact ⟨s'', hs'', hgoes.trans hgoes'⟩
  fresh id s'' hs'' hnone := by
    cases hs' : w'.sessions id with
    | none => exact h'.fresh id s'' hs'' hs'
    | some s' =>
      obtain ⟨t, ht, hgoes⟩ := h'.sessions id s' hs'
      rw [hs''] at ht
      cases ht
      exact hgoes.sound (h.fresh id s' hs' hnone)
  lists hl := h'.lists (h.lists hl)
  reported hr := h'.reported (h.reported hr)

theorem reported_of_sessions (hcalls : w'.calls = w.calls)
    (hsessions : ∀ id s, w.sessions id = some s → ∃ s', w'.sessions id = some s' ∧ s.Goes s') (h : w.Reported) :
    w'.Reported := by
  intro i id state hcall hstate
  rw [hcalls] at hcall
  obtain ⟨s, hs, rfl⟩ := h i id state hcall hstate
  obtain ⟨s', hs', hgoes⟩ := hsessions id s hs
  exact ⟨s', hs', hgoes.frozen hstate⟩

theorem goes_setCall {call : Call} (h : ∀ id state, call ≠ .ended (some (id, state))) : w.Goes (w.setCall i call) where
  sessions _ s hs := ⟨s, hs, .refl s⟩
  fresh _ _ hs hnone := absurd (hs.symm.trans hnone) (Option.some_ne_none _)
  lists hl := ⟨hl.active, hl.nodup, hl.waits, hl.held, hl.terminal, hl.closed⟩
  reported hr := by
    intro j id state hcall hstate
    change Function.update w.calls i call j = _ at hcall
    by_cases hj : j = i
    · rw [hj, Function.update_self] at hcall
      exact absurd hcall (h id state)
    · rw [Function.update_of_ne hj] at hcall
      exact hr j id state hcall hstate

theorem goes_leave : w.Goes (w.leave i) := by
  apply goes_setCall
  rintro id state ⟨⟩

theorem sessions_modify (w : World) (id : String) (f : Session → Session) (id' : String) :
    (w.modify id f).sessions id' = if id' = id then (w.sessions id).map f else w.sessions id' := by
  change Function.update w.sessions id ((w.sessions id).map f) id' = _
  rw [Function.update_apply]

theorem modify_goes (h : ∀ s, w.sessions id = some s → s.Goes (f s)) :
    ∀ id' s, w.sessions id' = some s → ∃ s', (w.modify id f).sessions id' = some s' ∧ s.Goes s' := by
  intro id' s hs
  rw [sessions_modify]
  by_cases hid : id' = id
  · rw [if_pos hid]
    rw [hid] at hs
    rw [hs]
    exact ⟨f s, rfl, h s hs⟩
  · rw [if_neg hid]
    exact ⟨s, hs, .refl s⟩

theorem modify_fresh : ∀ id' s', (w.modify id f).sessions id' = some s' → w.sessions id' = none → s'.Sound := by
  intro id' s' hs' hnone
  rw [sessions_modify] at hs'
  by_cases hid : id' = id
  · rw [if_pos hid, ← hid, hnone] at hs'
    cases hs'
  · rw [if_neg hid, hnone] at hs'
    cases hs'

theorem goes_modify (h : ∀ s, w.sessions id = some s → s.Goes (f s) ∧ (f s).state = s.state) : w.Goes (w.modify id f) where
  sessions := modify_goes fun s hs => (h s hs).1
  fresh := modify_fresh
  lists hl := by
    refine ⟨hl.active, hl.nodup, ?_, ?_, hl.terminal, hl.closed⟩
    · intro id' hid'
      obtain ⟨s, hs, hwait⟩ := hl.waits id' hid'
      rw [sessions_modify]
      by_cases hid : id' = id
      · rw [if_pos hid]
        rw [hid] at hs
        rw [hs]
        exact ⟨f s, rfl, (h s hs).2.trans hwait⟩
      · rw [if_neg hid]
        exact ⟨s, hs, hwait⟩
    · intro id' s' hs' hwait
      rw [sessions_modify] at hs'
      by_cases hid : id' = id
      · rw [if_pos hid] at hs'
        obtain ⟨s, hs, rfl⟩ := Option.map_eq_some_iff.mp hs'
        rw [hid]
        exact hl.held id s hs ((h s hs).2.symm.trans hwait)
      · rw [if_neg hid] at hs'
        exact hl.held id' s' hs' hwait
  reported := reported_of_sessions rfl (modify_goes fun s hs => (h s hs).1)

theorem lists_archive (hactive : w.active.length ≤ maxActiveSessions) (hnodup : w.active.Nodup)
    (hwaits : ∀ id' ∈ w.active, id' ≠ id → ∃ s, w.sessions id' = some s ∧ s.state = .waiting)
    (hid : id ∈ w.active → w.sessions id ≠ none)
    (hheld : ∀ id' s, w.sessions id' = some s → s.state = .waiting → id' ∈ w.active)
    (hterminal : w.terminal.length ≤ maxTerminalSessions) (hclosed : w.isClosed = true → w.active = []) :
    (w.archive id).Lists := by
  have herase : ∀ id' ∈ w.active.erase id, ∃ s, w.sessions id' = some s ∧ s.state = .waiting := by
    intro id' hid'
    obtain ⟨hne, hmem⟩ := (List.Nodup.mem_erase_iff hnodup).mp hid'
    exact hwaits id' hmem hne
  have hlength : (w.active.erase id).length ≤ maxActiveSessions := (List.erase_sublist.length_le).trans hactive
  unfold archive
  split
  · rename_i hwait
    refine ⟨hactive, hnodup, ?_, hheld, hterminal, hclosed⟩
    intro id' hid'
    by_cases hsame : id' = id
    · rw [hsame] at hid' ⊢
      obtain ⟨s, hs⟩ := Option.ne_none_iff_exists'.mp (hid hid')
      rw [waiting, hs, Option.any_some, decide_eq_true_eq] at hwait
      exact ⟨s, hs, hwait⟩
    · exact hwaits id' hid' hsame
  · rename_i hleft
    have hheld' : ∀ id' s, w.sessions id' = some s → s.state = .waiting → id' ∈ w.active.erase id := by
      intro id' s hs hwait
      apply (List.Nodup.mem_erase_iff hnodup).mpr
      refine ⟨?_, hheld id' s hs hwait⟩
      rintro rfl
      rw [waiting, hs, Option.any_some, decide_eq_true_eq] at hleft
      exact hleft hwait
    have hclosed' : w.isClosed = true → w.active.erase id = [] := by
      intro hc
      rw [hclosed hc]
      rfl
    split
    · exact ⟨hlength, hnodup.erase id, herase, hheld', hterminal, hclosed'⟩
    refine ⟨hlength, hnodup.erase id, herase, hheld', ?_, hclosed'⟩
    rw [List.length_drop, List.length_append, List.length_singleton]
    unfold maxTerminalSessions
    omega

theorem sessions_archive (w : World) (id : String) : (w.archive id).sessions = w.sessions := by
  unfold archive
  split
  · rfl
  split
  · rfl
  · rfl

theorem calls_archive (w : World) (id : String) : (w.archive id).calls = w.calls := by
  unfold archive
  split
  · rfl
  split
  · rfl
  · rfl

theorem goes_archive : w.Goes (w.archive id) where
  sessions id' s hs := by
    rw [sessions_archive]
    exact ⟨s, hs, .refl s⟩
  fresh id' s' hs' hnone := by
    rw [sessions_archive, hnone] at hs'
    cases hs'
  lists hl := by
    refine lists_archive hl.active hl.nodup (fun id' hid' _ => hl.waits id' hid') ?_ hl.held hl.terminal hl.closed
    intro hid
    obtain ⟨s, hs, -⟩ := hl.waits id hid
    rw [hs]
    exact Option.some_ne_none s
  reported := by
    apply reported_of_sessions (calls_archive w id)
    intro id' s hs
    rw [sessions_archive]
    exact ⟨s, hs, .refl s⟩

theorem goes_modify_archive (h : ∀ s, w.sessions id = some s → s.Goes (f s)) : w.Goes ((w.modify id f).archive id) where
  sessions := by
    rw [sessions_archive]
    exact modify_goes h
  fresh := by
    rw [sessions_archive]
    exact modify_fresh
  lists hl := by
    refine lists_archive hl.active hl.nodup ?_ ?_ ?_ hl.terminal hl.closed
    · intro id' hid' hne
      rw [sessions_modify, if_neg hne]
      exact hl.waits id' hid'
    · intro hid
      obtain ⟨s, hs, -⟩ := hl.waits id hid
      rw [sessions_modify, if_pos rfl, hs]
      exact Option.some_ne_none _
    intro id' s' hs' hwait
    rw [sessions_modify] at hs'
    by_cases hid : id' = id
    · rw [if_pos hid] at hs'
      obtain ⟨s, hs, rfl⟩ := Option.map_eq_some_iff.mp hs'
      rw [hid]
      apply hl.held id s hs
      by_contra hleft
      exact hleft (((h s hs).frozen hleft).symm.trans hwait)
    · rw [if_neg hid] at hs'
      exact hl.held id' s' hs' hwait
  reported := by
    apply reported_of_sessions (w := w) (calls_archive (w.modify id f) id)
    rw [sessions_archive]
    exact modify_goes h

def Open (w : World) (id : String) (state : SessionState) : Prop :=
  ∀ s, w.sessions id = some s → s.state = .waiting ∨ s.state = state

theorem goes_finish (h : w.Open id state) (hwaiting : state ≠ .waiting) (hauthorized : state ≠ .authorized)
    (hclosed : state ≠ .closed) : w.Goes (w.finish id state) :=
  goes_modify_archive fun s hs => Session.goes_clear (h s hs) hwaiting hauthorized fun hbad => absurd hbad hclosed

theorem goes_report : w.Goes (w.report i id) := by
  have harchive : w.Goes (w.archive id) := goes_archive
  unfold report
  generalize w.archive id = u at harchive ⊢
  refine harchive.trans ?_
  refine ⟨fun _ s hs => ⟨s, hs, .refl s⟩, fun _ _ hs hnone => absurd (hs.symm.trans hnone) (Option.some_ne_none _),
    fun hl => ⟨hl.active, hl.nodup, hl.waits, hl.held, hl.terminal, hl.closed⟩, ?_⟩
  intro hr j id' state' hcall hstate
  change Function.update u.calls i _ j = _ at hcall
  by_cases hj : j = i
  · rw [hj, Function.update_self] at hcall
    obtain ⟨s, hs, hpair⟩ := Option.map_eq_some_iff.mp (Call.ended.inj hcall)
    cases hpair
    exact ⟨s, hs, rfl⟩
  · rw [Function.update_of_ne hj] at hcall
    exact hr j id' state' hcall hstate

theorem waiting_iff : w.waiting id = true ↔ ∃ s, w.sessions id = some s ∧ s.state = .waiting := by
  rw [waiting, Option.any_eq_true]
  simp only [decide_eq_true_eq]

theorem open_of_waiting (h : w.waiting id = true) : w.Open id state := by
  obtain ⟨s, hs, hwait⟩ := waiting_iff.mp h
  intro t ht
  rw [hs] at ht
  cases ht
  exact .inl hwait

theorem goes_expire : w.Goes (w.expire id) := by
  unfold expire
  split
  · rename_i h
    rw [Option.any_eq_true] at h
    obtain ⟨s, hs, hwait⟩ := h
    rw [Bool.and_eq_true, decide_eq_true_eq] at hwait
    exact goes_finish (open_of_waiting (waiting_iff.mpr ⟨s, hs, hwait.1⟩)) (by decide) (by decide) (by decide)
  · exact .refl w

theorem goes_lapse : w.Goes (w.lapse id) := by
  unfold lapse
  split
  · exact goes_expire
  · exact .refl w

theorem goes_settled : w.Goes (if w.waiting id then w.finish id .error else w.archive id) := by
  split
  · rename_i h
    exact goes_finish (open_of_waiting h) (by decide) (by decide) (by decide)
  · exact goes_archive

theorem goes_abort : w.Goes (w.abort i id) := goes_settled.trans goes_leave

theorem waiting_finish (hwaiting : state ≠ .waiting) : (w.finish id state).waiting id = false := by
  rw [waiting, finish, sessions_archive, sessions_modify, if_pos rfl]
  cases w.sessions id with
  | none => rfl
  | some s => exact decide_eq_false hwaiting

theorem settled_waiting : (if w.waiting id then w.finish id .error else w.archive id).waiting id = false := by
  split
  · exact waiting_finish (by decide)
  rename_i h
  rw [waiting, sessions_archive]
  exact Bool.eq_false_iff.mpr h

theorem goes_release (h : w.waiting id = false ∨ ∀ s, w.sessions id = some s → s.committing = false) :
    w.Goes (w.modify id Session.release) := by
  apply goes_modify
  intro s hs
  refine ⟨Session.goes_release ?_, rfl⟩
  cases h with
  | inl hleft =>
    left
    intro hwait
    rw [waiting, hs, Option.any_some, decide_eq_false_iff_not] at hleft
    exact hleft hwait
  | inr hidle => exact .inr (hidle s hs)

theorem goes_conclude : w.Goes (w.conclude i id) :=
  (goes_settled.trans (goes_release (.inl settled_waiting))).trans goes_leave

theorem goes_answer (h : w.waiting id = false ∨ ∀ s, w.sessions id = some s → s.committing = false) :
    w.Goes (w.answer i id) := by
  refine goes_report.trans (goes_release ?_)
  have hsessions : (w.report i id).sessions = w.sessions := sessions_archive w id
  rw [waiting, hsessions]
  exact h

theorem current_cases (w : World) (id : String) (a : Answer) :
    (w.current id a = (true, w) ∧ a.raised = false ∧ w.isClosed = false ∧ w.waiting id = true) ∨
      ∃ u, w.current id a = (false, u) ∧ ((a.raised = true ∧ u = w.finish id .revoked) ∨ u = w ∨ u = w.lapse id) := by
  unfold current
  cases hraised : a.raised with
  | true => exact .inr ⟨_, rfl, .inl ⟨rfl, rfl⟩⟩
  | false =>
    cases hclosed : w.isClosed with
    | true => exact .inr ⟨_, rfl, .inr (.inl rfl)⟩
    | false =>
      simp only [Bool.false_eq_true, ↓reduceIte]
      cases hwaits : (w.lapse id).waiting id with
      | false => exact .inr ⟨_, rfl, .inr (.inr rfl)⟩
      | true =>
        have hsame : w.lapse id = w := by
          unfold lapse at hwaits ⊢
          split
          · rename_i hlate
            rw [if_pos hlate] at hwaits
            unfold expire at hwaits ⊢
            split
            · rename_i hidle
              rw [if_pos hidle, waiting_finish (by decide)] at hwaits
              cases hwaits
            · rfl
          · rfl
        rw [hsame] at hwaits ⊢
        exact .inl ⟨rfl, trivial, trivial, hwaits⟩

theorem goes_current (h : a.raised = true → w.Open id .revoked) : w.Goes (w.current id a).2 := by
  obtain ⟨heq, -⟩ | ⟨u, heq, hu⟩ := current_cases w id a
  · rw [heq]
    exact .refl w
  rw [heq]
  obtain ⟨hraised, rfl⟩ | rfl | rfl := hu
  · exact goes_finish (h hraised) (by decide) (by decide) (by decide)
  · exact .refl u
  · exact goes_lapse

end

structure Sound (w : World) : Prop where
  sessions : ∀ id s, w.sessions id = some s → s.Sound
  lists : w.Lists
  reported : w.Reported

def Heeded (w : World) : Action → Prop
  | .advance i a => match w.calls i with
    | .beginCurrent id _ => a.raised = true → w.Open id .revoked
    | .pollGuard id => a.raised = true → w.Open id .revoked
    | .qrGuard id => a.raised = true → w.Open id .revoked
    | .qrCurrent id => a.raised = true → w.Open id .revoked
    | .polling id => ∀ s holder, w.sessions id = some s → s.lock = some holder → holder.call = i →
      match holder.stage with
      | .fetch => True
      | .commit _ => a.raised = false → w.Open id .closed
      | _ => a.raised = true → w.Open id .revoked
    | _ => True
  | _ => True

section

variable {w : World} {id : String} {i : ℕ} {s : Session} {holder : Holder} {a : Answer} {c : Action}
  {flowId : String} {binding : AuthorizationBinding} {policies : String → Option AuthorizationFlowPolicy}

theorem Sound.goes {w' : World} (h : w.Sound) (hgoes : w.Goes w') : w'.Sound where
  sessions id s' hs' := by
    cases hs : w.sessions id with
    | none => exact hgoes.fresh id s' hs' hs
    | some s =>
      obtain ⟨t, ht, hsame⟩ := hgoes.sessions id s hs
      rw [hs'] at ht
      cases ht
      exact hsame.sound (h.sessions id s hs)
  lists := hgoes.lists h.lists
  reported := hgoes.reported h.reported

structure Held (w : World) (id : String) (s : Session) (holder : Holder) : Prop where
  session : w.sessions id = some s
  sound : s.Sound
  lock : s.lock = some holder
  idle : holder.stage.commits = false

theorem Held.answers (h : w.Held id s holder) : ∀ t, w.sessions id = some t → t.committing = false := by
  intro t ht
  rw [h.session] at ht
  cases ht
  rw [h.sound.committing, h.lock, Option.any_some, h.idle]

theorem Held.move (h : w.Held id s holder) {stage : Stage} (hstage : stage.commits = false) :
    w.Goes (w.modify id (Session.move stage)) := by
  apply goes_modify
  intro t ht
  rw [h.session] at ht
  cases ht
  exact ⟨Session.goes_move h.lock h.idle hstage, rfl⟩

theorem goes_expired (hwaits : w.waiting id = true) : w.Goes ((w.finish id .expired).answer i id) :=
  (goes_finish (open_of_waiting hwaits) (by decide) (by decide) (by decide)).trans
    (goes_answer (.inl (waiting_finish (by decide))))

section

variable (h : w.Held id s holder)
include h

theorem Held.sendPoll (hwaits : w.waiting id = true) : w.Goes (w.sendPoll i id s) := by
  unfold World.sendPoll
  split
  · exact goes_answer (.inr h.answers)
  rename_i hdue
  split
  · exact goes_expired hwaits
  rename_i hpolls
  rw [not_lt] at hdue
  rw [not_le] at hpolls
  split
  · refine Goes.trans (goes_modify ?_) goes_conclude
    intro t ht
    rw [h.session] at ht
    cases ht
    exact ⟨Session.goes_count hpolls hdue, rfl⟩
  apply goes_modify
  intro t ht
  rw [h.session] at ht
  cases ht
  exact ⟨Session.goes_send h.lock h.idle hpolls hdue, rfl⟩

theorem Held.judge (hwaits : w.waiting id = true) (v : Verdict) : w.Goes (w.judge i id s v) := by
  cases v with
  | invalid => exact goes_conclude
  | success captures =>
    cases captures with
    | none => exact goes_conclude
    | some captures => exact h.move rfl
  | expired => exact goes_expired hwaits
  | pending =>
    unfold World.judge
    dsimp only
    split
    · exact goes_expired hwaits
    · exact goes_answer (.inr h.answers)
  | unknown => exact (goes_finish (open_of_waiting hwaits) (by decide) (by decide) (by decide)).trans goes_conclude

theorem Held.write (hwaits : w.waiting id = true) (captures : Captures) :
    w.Goes (w.modify id (Session.write captures)) := by
  apply goes_modify
  intro t ht
  obtain ⟨u, hu, hwait⟩ := waiting_iff.mp hwaits
  rw [hu] at ht
  cases ht
  rw [h.session] at hu
  cases hu
  exact ⟨Session.goes_write h.lock h.idle hwait, rfl⟩

theorem Held.passing (hheeded : a.raised = true → w.Open id .revoked)
    {next : World → Session → World} (hnext : w.waiting id = true → w.Goes (next w s)) :
    w.Goes (w.passing i id a next) := by
  unfold World.passing
  obtain ⟨heq, -, -, hwaits⟩ | ⟨u, heq, -⟩ := current_cases w id a
  · rw [heq]
    dsimp only
    rw [h.session]
    exact hnext hwaits
  have hcurrent := goes_current hheeded
  rw [heq] at hcurrent ⊢
  exact hcurrent.trans goes_conclude

end

theorem goes_settle {captures : Captures} (hl : w.Lists) (h : a.raised = false → w.Open id .closed) :
    w.Goes (w.settle i id captures a) := by
  unfold World.settle
  cases hraised : a.raised with
  | true => exact goes_conclude
  | false =>
    rw [if_neg Bool.false_ne_true]
    split
    · rename_i hover
      cases hwaits : w.waiting id with
      | false =>
        refine Goes.trans (goes_modify ?_) goes_conclude
        intro s hs
        refine ⟨Session.goes_store ?_, rfl⟩
        cases h hraised s hs with
        | inl hwait =>
          rw [waiting, hs, Option.any_some, decide_eq_false_iff_not] at hwaits
          exact absurd hwait hwaits
        | inr hclosed => exact hclosed
      | true =>
        -- after `close` nothing waits
        obtain ⟨s, hs, hwait⟩ := waiting_iff.mp hwaits
        have hactive := hl.held id s hs hwait
        rw [hwaits, Bool.not_true, Bool.or_false] at hover
        rw [hl.closed hover] at hactive
        cases hactive
    · rename_i hover
      rw [Bool.or_eq_true, not_or, Bool.not_eq_true', Bool.not_eq_false] at hover
      obtain ⟨s, hs, hwait⟩ := waiting_iff.mp hover.2
      refine Goes.trans (goes_modify_archive ?_) (goes_answer (.inl ?_))
      · intro t ht
        rw [hs] at ht
        cases ht
        exact Session.goes_authorize hwait
      · rw [waiting, sessions_archive, sessions_modify, if_pos rfl, hs]
        rfl

theorem Sound.locked (h : w.Sound) (hs : w.sessions id = some s) (hlock : s.lock = some holder)
    (hheeded : match holder.stage with
      | .fetch => True
      | .commit _ => a.raised = false → w.Open id .closed
      | _ => a.raised = true → w.Open id .revoked) : w.Goes (w.locked i id a holder.stage) := by
  have hheld : holder.stage.commits = false → w.Held id s holder := fun hidle => ⟨hs, h.sessions id s hs, hlock, hidle⟩
  cases hstage : holder.stage with
  | current =>
    rw [hstage] at hheld hheeded
    exact (hheld rfl).passing hheeded fun hwaits => (hheld rfl).sendPoll hwaits
  | fetch =>
    rw [hstage] at hheld
    unfold World.locked
    dsimp only
    split
    · exact goes_conclude
    · exact (hheld rfl).move rfl
  | fetched v =>
    rw [hstage] at hheld hheeded
    exact (hheld rfl).passing hheeded fun hwaits => (hheld rfl).judge hwaits v
  | captured captures =>
    rw [hstage] at hheld hheeded
    exact (hheld rfl).passing hheeded fun hwaits => (hheld rfl).write hwaits captures
  | commit captures =>
    rw [hstage] at hheeded
    exact goes_settle h.lists hheeded

theorem Sound.poll (h : w.Sound) (hs : w.sessions id = some s)
    (hheeded : ∀ holder, s.lock = some holder → holder.call = i → match holder.stage with
      | .fetch => True
      | .commit _ => a.raised = false → w.Open id .closed
      | _ => a.raised = true → w.Open id .revoked) : w.Goes (w.poll i id a s) := by
  unfold World.poll
  cases hlock : s.lock with
  | none =>
    dsimp only
    split
    · exact goes_leave
    split
    · exact goes_report
    split
    · exact goes_conclude
    apply goes_modify
    intro t ht
    rw [hs] at ht
    cases ht
    exact ⟨Session.goes_acquire hlock, rfl⟩
  | some holder =>
    dsimp only
    split
    · rename_i hcall
      exact h.locked hs hlock (hheeded holder hlock hcall)
    split
    · exact goes_leave
    · exact .refl w

theorem goes_supersede (hwaits : ∀ s, w.sessions id = some s → s.state = .waiting) :
    w.Goes ((if w.late id then w.expire id else w).finish id .cancelled) := by
  split
  · unfold expire
    split
    · have hclear : ∀ s, w.sessions id = some s → s.Goes ((s.clear .expired).clear .cancelled) := by
        intro s hs
        exact Session.goes_clear (.inl (hwaits s hs)) (by decide) (by decide) fun _ => hwaits s hs
      have hfirst : w.Goes (w.finish id .expired) :=
        goes_finish (fun s hs => .inl (hwaits s hs)) (by decide) (by decide) (by decide)
      have hsessions : ∀ id' s, w.sessions id' = some s →
          ∃ s', ((w.finish id .expired).finish id .cancelled).sessions id' = some s' ∧ s.Goes s' := by
        intro id' s hs
        rw [finish, sessions_archive, sessions_modify, finish, sessions_archive]
        rw [sessions_modify, sessions_modify]
        by_cases hid : id' = id
        · rw [if_pos hid, if_pos rfl]
          rw [hid] at hs
          rw [hs]
          exact ⟨_, rfl, hclear s hs⟩
        · rw [if_neg hid, if_neg hid]
          exact ⟨s, hs, .refl s⟩
      refine ⟨hsessions, ?_, ?_, ?_⟩
      · intro id' s' hs' hnone
        rw [finish, sessions_archive, sessions_modify, finish, sessions_archive, sessions_modify, sessions_modify] at hs'
        by_cases hid : id' = id
        · rw [if_pos hid, if_pos rfl, ← hid, hnone] at hs'
          cases hs'
        · rw [if_neg hid, if_neg hid, hnone] at hs'
          cases hs'
      · intro hl
        have hl' := hfirst.lists hl
        refine lists_archive hl'.active hl'.nodup ?_ ?_ ?_ hl'.terminal hl'.closed
        · intro id' hid' hne
          rw [sessions_modify, if_neg hne]
          exact hl'.waits id' hid'
        · intro hid
          obtain ⟨s, hs, -⟩ := hl'.waits id hid
          rw [sessions_modify, if_pos rfl, hs]
          exact Option.some_ne_none _
        intro id' s' hs' hwait
        rw [sessions_modify] at hs'
        by_cases hid : id' = id
        · rw [if_pos hid] at hs'
          obtain ⟨s, -, rfl⟩ := Option.map_eq_some_iff.mp hs'
          cases hwait
        · rw [if_neg hid] at hs'
          exact hl'.held id' s' hs' hwait
      · apply reported_of_sessions _ hsessions
        rw [finish, calls_archive]
        exact calls_archive _ id
    · exact goes_finish (fun s hs => .inl (hwaits s hs)) (by decide) (by decide) (by decide)
  · exact goes_finish (fun s hs => .inl (hwaits s hs)) (by decide) (by decide) (by decide)

variable {state : SessionState}

theorem sessions_finish_other {id' : String} (h : id' ≠ id) :
    (w.finish id state).sessions id' = w.sessions id' := by
  rw [finish, sessions_archive, sessions_modify, if_neg h]

theorem sessions_expire_other {id' : String} (h : id' ≠ id) : (w.expire id).sessions id' = w.sessions id' := by
  unfold expire
  split
  · exact sessions_finish_other h
  · rfl

theorem goes_sweep {ids : List String} (hnodup : ids.Nodup)
    (hwaits : ∀ id ∈ ids, ∀ s, w.sessions id = some s → s.state = .waiting) : w.Goes (sweep flowId binding ids w).2 := by
  induction ids generalizing w with
  | nil => exact .refl w
  | cons id ids ih =>
    obtain ⟨hnot, hrest⟩ := List.nodup_cons.mp hnodup
    have hother : ∀ id' ∈ ids, id' ≠ id := by
      rintro id' hid' rfl
      exact hnot hid'
    have hlate : ∀ id' ∈ ids, (if w.late id then w.expire id else w).sessions id' = w.sessions id' := by
      intro id' hid'
      split
      · exact sessions_expire_other (hother id' hid')
      · rfl
    have hexpired : w.Goes (if w.late id then w.expire id else w) := by
      split
      · exact goes_expire
      · exact .refl w
    have hsuperseded := goes_supersede (hwaits id List.mem_cons_self)
    unfold sweep
    dsimp only
    generalize (if w.late id then w.expire id else w) = u at hlate hexpired hsuperseded ⊢
    have hwaits' : ∀ id' ∈ ids, ∀ s, u.sessions id' = some s → s.state = .waiting := by
      intro id' hid' s hs
      rw [hlate id' hid'] at hs
      exact hwaits id' (List.mem_cons_of_mem _ hid') s hs
    split
    · split
      · exact hexpired
      refine hsuperseded.trans (ih hrest ?_)
      intro id' hid' s hs
      rw [sessions_finish_other (hother id' hid')] at hs
      exact hwaits' id' hid' s hs
    · exact hexpired.trans (ih hrest hwaits')

def Bounded (w w' : World) : Prop := w'.isClosed = w.isClosed ∧ ∀ id, w.sessions id = none → w'.sessions id = none

theorem bounded_finish : w.Bounded (w.finish id state) := by
  constructor
  · unfold finish archive
    split
    · rfl
    split
    · rfl
    · rfl
  · intro id' hnone
    rw [finish, sessions_archive, sessions_modify]
    split
    · rename_i hid
      rw [← hid, hnone]
      rfl
    · exact hnone

theorem Bounded.trans {w' w'' : World} (h : w.Bounded w') (h' : w'.Bounded w'') : w.Bounded w'' :=
  ⟨h'.1.trans h.1, fun id hnone => h'.2 id (h.2 id hnone)⟩

variable (ids : List String)

theorem bounded_sweep : w.Bounded (sweep flowId binding ids w).2 := by
  induction ids generalizing w with
  | nil => exact ⟨rfl, fun _ h => h⟩
  | cons id ids ih =>
    have hexpired : w.Bounded (if w.late id then w.expire id else w) := by
      split
      · unfold expire
        split
        · exact bounded_finish
        · exact ⟨rfl, fun _ h => h⟩
      · exact ⟨rfl, fun _ h => h⟩
    unfold sweep
    dsimp only
    generalize (if w.late id then w.expire id else w) = u at hexpired ⊢
    split
    · split
      · exact hexpired
      · exact hexpired.trans (bounded_finish.trans ih)
    · exact hexpired.trans ih

variable {policy : AuthorizationFlowPolicy}

theorem sound_newSession {now : ℚ} : (newSession now policy binding).Sound where
  quiet h := absurd rfl h
  authorized := by rintro ⟨⟩
  stored := by rintro ⟨⟩
  writes := Nat.zero_le 1
  unwritten _ _ := rfl
  committing := rfl
  polls := ⟨le_rfl, Nat.zero_le _⟩
  spaced := .nil
  next := by rintro t ⟨⟩

theorem goes_create (hclosed : w.isClosed = false) (hnone : w.sessions id = none)
    (hroom : w.active.length < maxActiveSessions) : w.Goes (w.create policy binding id) := by
  have hsessions : ∀ id', (w.create policy binding id).sessions id' =
      if id' = id then some (newSession w.clock policy binding) else w.sessions id' := by
    intro id'
    change Function.update w.sessions id _ id' = _
    rw [Function.update_apply]
  have hkept : ∀ id' s, w.sessions id' = some s → ∃ s', (w.create policy binding id).sessions id' = some s' ∧ s.Goes s' := by
    intro id' s hs
    have hne : id' ≠ id := by
      rintro rfl
      rw [hnone] at hs
      cases hs
    rw [hsessions, if_neg hne]
    exact ⟨s, hs, .refl s⟩
  refine ⟨hkept, ?_, ?_, reported_of_sessions rfl hkept⟩
  · intro id' s' hs' hnone'
    rw [hsessions] at hs'
    split at hs'
    · cases hs'
      exact sound_newSession
    · rw [hnone'] at hs'
      cases hs'
  · intro hl
    have hnot : id ∉ w.active := by
      intro hid
      obtain ⟨s, hs, -⟩ := hl.waits id hid
      rw [hnone] at hs
      cases hs
    refine ⟨?_, ?_, ?_, ?_, hl.terminal, ?_⟩
    · change (w.active ++ [id]).length ≤ _
      rw [List.length_append]
      exact hroom
    · apply List.nodup_append.mpr
      refine ⟨hl.nodup, by simp, ?_⟩
      rintro id' hid' id'' hid'' rfl
      rw [List.mem_singleton] at hid''
      rw [hid''] at hid'
      exact hnot hid'
    · intro id' hid'
      rw [hsessions]
      cases List.mem_append.mp hid' with
      | inl hold =>
        rw [if_neg (by rintro rfl; exact hnot hold)]
        exact hl.waits id' hold
      | inr hnew =>
        rw [if_pos (List.mem_singleton.mp hnew)]
        exact ⟨_, rfl, rfl⟩
    · intro id' s' hs' hwait
      rw [hsessions] at hs'
      split at hs'
      · rename_i hid
        rw [hid]
        exact List.mem_append_right _ (List.mem_singleton.mpr rfl)
      · exact List.mem_append_left _ (hl.held id' s' hs' hwait)
    · intro hc
      change w.isClosed = true at hc
      rw [hclosed] at hc
      cases hc

theorem Sound.start (h : w.Sound) (hclosed : w.isClosed = false)
    (hnone : w.sessions id = none) : w.Goes (w.start i policy binding id) := by
  have hwaits : ∀ id' ∈ w.active, ∀ s, w.sessions id' = some s → s.state = .waiting := by
    intro id' hid' s hs
    obtain ⟨t, ht, hwait⟩ := h.lists.waits id' hid'
    rw [hs] at ht
    cases ht
    exact hwait
  have hsweep : w.Goes (sweep policy.flowId binding w.active w).2 := goes_sweep h.lists.nodup hwaits
  have hbounded : w.Bounded (sweep policy.flowId binding w.active w).2 := bounded_sweep w.active
  unfold World.start
  cases hresult : sweep policy.flowId binding w.active w with
  | mk busy u =>
    rw [hresult] at hsweep hbounded
    cases busy with
    | true => exact hsweep.trans goes_leave
    | false =>
      dsimp only
      split
      · exact hsweep.trans goes_leave
      rename_i hroom
      have hcreate : u.Goes (u.create policy binding id) :=
        goes_create (hbounded.1.trans hclosed) (hbounded.2 id hnone) (not_le.mp hroom)
      refine hsweep.trans (hcreate.trans ?_)
      apply goes_setCall
      rintro id' state ⟨⟩

theorem goes_revoke (hopen : ∀ id ∈ ids, w.Open id .revoked) : w.Goes (revoke flowId binding ids w) := by
  induction ids generalizing w with
  | nil => exact .refl w
  | cons id ids ih =>
    have hfirst := hopen id List.mem_cons_self
    have hrest : ∀ id' ∈ ids, (w.finish id .revoked).Open id' .revoked := by
      intro id' hid' s hs
      by_cases hsame : id' = id
      · rw [hsame, finish, sessions_archive, sessions_modify, if_pos rfl] at hs
        obtain ⟨t, -, rfl⟩ := Option.map_eq_some_iff.mp hs
        exact .inr rfl
      · rw [sessions_finish_other hsame] at hs
        exact hopen id' (List.mem_cons_of_mem _ hid') s hs
    unfold revoke
    split
    · exact (goes_finish hfirst (by decide) (by decide) (by decide)).trans (ih hrest)
    · exact ih fun id' hid' => hopen id' (List.mem_cons_of_mem _ hid')

theorem goes_invalidate (ownerId pageSessionId : Option String) (ids : List String) :
    w.Goes (invalidate ownerId pageSessionId ids w) := by
  induction ids generalizing w with
  | nil => exact .refl w
  | cons id ids ih =>
    unfold invalidate
    split
    · rename_i h
      rw [Option.any_eq_true] at h
      obtain ⟨s, hs, hmatch⟩ := h
      rw [Bool.and_eq_true, decide_eq_true_eq] at hmatch
      exact (goes_finish (open_of_waiting (waiting_iff.mpr ⟨s, hs, hmatch.2⟩)) (by decide) (by decide) (by decide)).trans ih
    · exact ih

theorem Sound.close (h : w.Sound) : w.Goes w.close := by
  have hkept : ∀ id s, w.sessions id = some s → ∃ s', w.close.sessions id = some s' ∧ s.Goes s' := by
    intro id s hs
    change ∃ s', (if id ∈ w.active then (w.sessions id).map _ else w.sessions id) = some s' ∧ _
    split
    · rename_i hid
      obtain ⟨t, ht, hwait⟩ := h.lists.waits id hid
      rw [hs] at ht
      cases ht
      rw [hs]
      exact ⟨_, rfl, Session.goes_clear (.inl hwait) (by decide) (by decide) fun _ => hwait⟩
    · exact ⟨s, hs, .refl s⟩
  refine ⟨hkept, ?_, ?_, reported_of_sessions rfl hkept⟩
  · intro id s' hs' hnone
    change (if id ∈ w.active then (w.sessions id).map _ else w.sessions id) = some s' at hs'
    rw [hnone] at hs'
    split at hs'
    · cases hs'
    · cases hs'
  · intro hl
    refine ⟨Nat.zero_le _, List.nodup_nil, ?_, ?_, Nat.zero_le _, fun _ => rfl⟩
    · rintro id ⟨⟩
    intro id s' hs' hwait
    change (if id ∈ w.active then (w.sessions id).map _ else w.sessions id) = some s' at hs'
    split at hs'
    · obtain ⟨t, -, rfl⟩ := Option.map_eq_some_iff.mp hs'
      cases hwait
    · rename_i hnot
      exact absurd (hl.held id s' hs' hwait) hnot

theorem goes_find {w' : World} (h : w.find id binding = some w') : w.Goes w' := by
  unfold find at h
  split at h
  · cases h
    exact goes_lapse
  · cases h

theorem goes_request (r : Request) : w.Goes (w.request i r) := by
  have hcall : ∀ {u : World} {call : Call}, (∀ id state, call ≠ .ended (some (id, state))) → w.Goes u →
      w.Goes (u.setCall i call) := fun hcall hgoes => hgoes.trans (goes_setCall hcall)
  have hfound : ∀ id binding (call : Call), (∀ id state, call ≠ .ended (some (id, state))) →
      w.Goes ((w.find id binding).elim (w.leave i) fun u => u.setCall i call) := by
    intro id binding call hnot
    cases hfind : w.find id binding with
    | none => exact goes_leave
    | some u => exact hcall hnot (goes_find hfind)
  cases r with
  | begin flowId binding =>
    unfold World.request
    dsimp only
    split
    · exact goes_leave
    · exact hcall (by rintro id state ⟨⟩) (.refl w)
  | poll id binding => exact hfound id binding _ (by rintro id state ⟨⟩)
  | qrPng id binding => exact hfound id binding _ (by rintro id state ⟨⟩)
  | cancel id binding => exact hfound id binding _ (by rintro id state ⟨⟩)
  | revoke flowId binding =>
    unfold World.request
    dsimp only
    split
    · exact goes_leave
    · exact hcall (by rintro id state ⟨⟩) (.refl w)

theorem goes_cancel : w.Goes (w.cancel i id) := by
  unfold cancel
  split
  · rename_i h
    exact (goes_finish (open_of_waiting h) (by decide) (by decide) (by decide)).trans goes_report
  · exact goes_report

theorem Sound.advance (h : w.Sound) (hheeded : w.Heeded (.advance i a)) (hnew : w.sessions a.sessionId = none) :
    w.Goes (w.advance policies i a) := by
  unfold World.Heeded at hheeded
  dsimp only at hheeded
  unfold World.advance
  cases hcall : w.calls i with
  | idle => exact .refl w
  | ended report => exact .refl w
  | beginGuard flowId binding =>
    dsimp only
    split
    · exact goes_leave
    rename_i hopen
    rw [Bool.or_eq_true, not_or, Bool.not_eq_true, Bool.not_eq_true] at hopen
    cases policies flowId with
    | none => exact goes_leave
    | some policy => exact h.start hopen.2 hnew
  | beginFetch id =>
    dsimp only
    split
    · exact goes_abort
    · apply goes_setCall
      rintro id state ⟨⟩
  | beginCurrent id payload =>
    rw [hcall] at hheeded
    dsimp only
    obtain ⟨heq, -, -, hwaits⟩ | ⟨u, heq, -⟩ := current_cases w id a
    · rw [heq]
      dsimp only
      cases payload with
      | none => exact goes_abort
      | some pair =>
        obtain ⟨s, hs, hwait⟩ := waiting_iff.mp hwaits
        refine Goes.trans (goes_modify ?_) goes_report
        intro t ht
        rw [hs] at ht
        cases ht
        exact ⟨Session.goes_apply hwait, rfl⟩
    · have hcurrent := goes_current hheeded
      rw [heq] at hcurrent ⊢
      exact hcurrent.trans goes_abort
  | pollGuard id =>
    rw [hcall] at hheeded
    dsimp only
    split
    · rename_i hraised
      exact (goes_finish (hheeded hraised) (by decide) (by decide) (by decide)).trans goes_leave
    split
    · apply goes_setCall
      rintro id state ⟨⟩
    · exact goes_report
  | polling id =>
    rw [hcall] at hheeded
    dsimp only
    cases hs : w.sessions id with
    | none => exact .refl w
    | some s => exact h.poll hs fun holder hlock hholder => hheeded s holder hs hlock hholder
  | qrGuard id =>
    rw [hcall] at hheeded
    have hcurrent := goes_current hheeded
    dsimp only
    cases hresult : w.current id a with
    | mk passed u =>
      rw [hresult] at hcurrent
      cases passed with
      | false => exact hcurrent.trans goes_leave
      | true =>
        dsimp only
        split
        · exact hcurrent.trans goes_leave
        · refine hcurrent.trans (goes_setCall ?_)
          rintro id state ⟨⟩
  | qrCurrent id =>
    rw [hcall] at hheeded
    exact (goes_current hheeded).trans goes_leave
  | cancelGuard id =>
    dsimp only
    split
    · exact goes_leave
    split
    · apply goes_setCall
      rintro id state ⟨⟩
    · exact goes_cancel
  | cancelLock id =>
    dsimp only
    split
    · exact goes_leave
    split
    · exact goes_cancel
    · exact .refl w
  | revokeGuard flowId binding =>
    dsimp only
    split
    · exact goes_leave
    refine Goes.trans (goes_revoke w.active ?_) (goes_setCall ?_)
    · intro id hid s hs
      obtain ⟨t, ht, hwait⟩ := h.lists.waits id hid
      rw [hs] at ht
      cases ht
      exact .inl hwait
    · rintro id state ⟨⟩
  | revokeWrite => exact goes_leave

theorem Sound.next (h : w.Sound) (ha : w.allowed c) (hheeded : w.Heeded c) : w.Goes (w.next policies c) := by
  cases c with
  | tick elapsed =>
    exact ⟨fun _ s hs => ⟨s, hs, .refl s⟩, fun _ _ hs hnone => absurd (hs.symm.trans hnone) (Option.some_ne_none _),
      fun hl => ⟨hl.active, hl.nodup, hl.waits, hl.held, hl.terminal, hl.closed⟩, fun hr => hr⟩
  | request i r => exact goes_request r
  | advance i a => exact h.advance hheeded ha
  | timer id => exact goes_expire
  | invalidate ownerId pageSessionId => exact goes_invalidate ownerId pageSessionId w.active
  | close => exact h.close

theorem sound_of_initial (h : w.initial) : w.Sound where
  sessions id s hs := by
    rw [h.sessions] at hs
    cases hs
  lists := by
    refine ⟨?_, ?_, ?_, ?_, ?_, fun _ => h.active⟩
    · rw [h.active]
      exact Nat.zero_le _
    · rw [h.active]
      exact List.nodup_nil
    · rw [h.active]
      rintro id ⟨⟩
    · intro id s hs
      rw [h.sessions] at hs
      cases hs
    · rw [h.terminal]
      exact Nat.zero_le _
  reported i id state hcall := by
    rw [h.calls] at hcall
    cases hcall

end

structure Settled (w : World) : Prop where
  writes : ∀ id s, w.sessions id = some s → s.writes ≤ 1
  authorized : ∀ i id, w.calls i = .ended (some (id, .authorized)) → ∃ s, w.sessions id = some s ∧ s.stored = true
  stored : ∀ id s, w.sessions id = some s → s.stored = true → s.state = .authorized ∨ s.state = .closed
  reported : ∀ i id state s, w.calls i = .ended (some (id, state)) → w.sessions id = some s → s.stored = true →
    state ∉ [.cancelled, .expired, .revoked, .error]
  left : ∀ id s, w.sessions id = some s → s.state ≠ .waiting → s.slots = [] ∧ s.qrUrl = none
  active : w.active.length ≤ 128 ∧ ∀ id s, w.sessions id = some s → s.state = .waiting → id ∈ w.active
  terminal : w.terminal.length ≤ 128
  polls : ∀ id s, w.sessions id = some s → s.polled.length ≤ s.policy.maxPolls
  spaced : ∀ id s, w.sessions id = some s →
    s.polled.Pairwise fun later earlier => earlier + s.policy.pollIntervalSeconds ≤ later

theorem Sound.settled {w : World} (h : w.Sound) : w.Settled where
  writes id s hs := (h.sessions id s hs).writes
  authorized i id hcall := by
    obtain ⟨s, hs, hstate⟩ := h.reported i id .authorized hcall (by decide)
    exact ⟨s, hs, (h.sessions id s hs).authorized hstate⟩
  stored id s hs := (h.sessions id s hs).stored
  reported i id state s hcall hs hstored hbad := by
    have hleft : state ≠ .waiting := by
      rintro rfl
      simp at hbad
    obtain ⟨t, ht, rfl⟩ := h.reported i id state hcall hleft
    rw [hs] at ht
    cases ht
    cases (h.sessions id s hs).stored hstored with
    | inl hauthorized =>
      rw [hauthorized] at hbad
      simp at hbad
    | inr hclosed =>
      rw [hclosed] at hbad
      simp at hbad
  left id s hs := (h.sessions id s hs).quiet
  active := ⟨h.lists.active, h.lists.held⟩
  terminal := h.lists.terminal
  polls id s hs := (h.sessions id s hs).polls.1.trans (h.sessions id s hs).polls.2
  spaced id s hs := (h.sessions id s hs).spaced

end World

def careful (policies : String → Option AuthorizationFlowPolicy) : System World Action where
  start := World.initial
  allowed w a := w.allowed a ∧ w.Heeded a
  next := World.next policies

/-- In the careful runs the outcome of a session matches the credential store, and is final. -/
theorem authorization_outcome {policies : String → Option AuthorizationFlowPolicy} {w : World}
    (h : (careful policies).Reachable w) :
    w.Settled ∧ ∀ actions w', (careful policies).Trace w actions w' → ∀ id s, w.sessions id = some s →
      s.state ≠ .waiting → ∃ s', w'.sessions id = some s' ∧ s'.state = s.state := by
  have hw : w.Sound := by
    apply h.invariant
    · exact fun _ => World.sound_of_initial
    · exact fun u a hu ha => hu.goes (hu.next ha.1 ha.2)
  refine ⟨hw.settled, ?_⟩
  intro actions w' htrace id s hs hleft
  have hgoes : w.Goes w' := by
    refine htrace.relates World.Goes.refl (fun _ _ _ => World.Goes.trans) ?_ hw
    exact fun u a hu ha => ⟨hu.goes (hu.next ha.1 ha.2), hu.next ha.1 ha.2⟩
  obtain ⟨s', hs', hsame⟩ := hgoes.sessions id s hs
  exact ⟨s', hs', hsame.frozen hleft⟩

namespace Sample

def policy : AuthorizationFlowPolicy := ⟨"login", "ticket", "subject", 2, 60, 5, by decide +kernel, by decide⟩

def policies (flowId : String) : Option AuthorizationFlowPolicy := if flowId = "login" then some policy else none

def binding : AuthorizationBinding := ⟨"owner", "actor", "page", "runtime", 1, 1⟩

def empty : World := ⟨0, false, fun _ => none, [], [], fun _ => .idle⟩

def answer (verdict : Verdict) : Answer := ⟨false, "new", some ("t", "https://example/code"), verdict, true⟩

def run : List Action := [.request 0 (.begin "login" binding), .advance 0 ⟨false, "s", none, .unknown, true⟩,
  .advance 0 (answer .pending), .advance 0 (answer .pending), .tick 3, .request 1 (.poll "s" binding),
  .advance 1 (answer .pending), .advance 1 (answer .pending), .advance 1 (answer .pending), .advance 1 (answer .pending),
  .advance 1 (answer .pending), .tick 2, .request 2 (.poll "s" binding), .advance 2 (answer .pending),
  .advance 2 (answer .pending), .advance 2 (answer .pending), .advance 2 (answer (.success (some [("subject", "me")]))),
  .advance 2 (answer .pending), .advance 2 (answer .pending), .advance 2 (answer .pending)]

def again : List Action := [.request 3 (.poll "s" binding), .advance 3 ⟨true, "new", none, .unknown, true⟩]

def permits (w : World) : Action → Bool
  | .tick elapsed => decide (0 ≤ elapsed)
  | .request i _ => (w.calls i).over
  | .advance _ a => (w.sessions a.sessionId).isNone
  | .timer id => (w.sessions id).any Session.expiryTimer
  | _ => true

theorem allowed_of_permits {w : World} {a : Action} (h : permits w a = true) : w.allowed a := by
  cases a with
  | tick elapsed =>
    have hle : 0 ≤ elapsed := of_decide_eq_true h
    exact hle
  | request i r => exact h
  | advance i a => exact Option.isNone_iff_eq_none.mp h
  | timer id => exact h
  | invalidate ownerId pageSessionId => trivial
  | close => trivial

def gentle (w : World) : Action → Bool
  | .advance i a => !a.raised && match w.calls i with
    | .polling id => w.waiting id
    | _ => true
  | _ => true

theorem heeded_of_gentle {w : World} {a : Action} (h : gentle w a = true) : w.Heeded a := by
  cases a with
  | advance i a =>
    unfold gentle at h
    dsimp only at h
    rw [Bool.and_eq_true, Bool.not_eq_true'] at h
    have hnever : ∀ {P : Prop}, a.raised = true → P := by
      intro P hraised
      rw [h.1] at hraised
      cases hraised
    unfold World.Heeded
    dsimp only
    cases hcall : w.calls i with
    | polling id =>
      rw [hcall] at h
      intro s holder _ _ _
      cases holder.stage with
      | fetch => trivial
      | commit captures => exact fun _ => World.open_of_waiting h.2
      | _ => exact hnever
    | beginCurrent id applied => exact hnever
    | pollGuard id => exact hnever
    | qrGuard id => exact hnever
    | qrCurrent id => exact hnever
    | _ => trivial
  | _ => trivial

end Sample

theorem authorization_outcome_sample :
    ∃ w : World, w.calls 2 = .ended (some ("s", .authorized)) ∧ w.terminal = ["s"] ∧ w.Settled := by
  have hrun : (careful Sample.policies).Trace Sample.empty Sample.run
      (Sample.run.foldl (World.next Sample.policies) Sample.empty) := by
    refine System.Trace.of_checked (S := careful Sample.policies)
      (fun w a (h : (Sample.permits w a && Sample.gentle w a) = true) => ?_) ?_
    · rw [Bool.and_eq_true] at h
      exact ⟨Sample.allowed_of_permits h.1, Sample.heeded_of_gentle h.2⟩
    · decide +kernel
  refine ⟨_, ?_, ?_, (authorization_outcome ⟨_, _, ⟨rfl, fun _ => rfl, rfl, rfl, fun _ => rfl⟩, hrun⟩).1⟩
  · decide +kernel
  · decide +kernel

/-- An authorized session turns revoked, although nothing was revoked. -/
theorem authorized_session_revoked : ¬ ∀ w, (authorizations Sample.policies).Reachable w → w.Settled := by
  intro hclaim
  have hrun : (authorizations Sample.policies).Trace Sample.empty (Sample.run ++ Sample.again)
      ((Sample.run ++ Sample.again).foldl (World.next Sample.policies) Sample.empty) := by
    refine System.Trace.of_checked (S := authorizations Sample.policies)
      (fun w a (h : Sample.permits w a = true) => Sample.allowed_of_permits h) ?_
    decide +kernel
  have hsettled := hclaim _ ⟨_, _, ⟨rfl, fun _ => rfl, rfl, rfl, fun _ => rfl⟩, hrun⟩
  generalize hw : (Sample.run ++ Sample.again).foldl (World.next Sample.policies) Sample.empty = w at hsettled
  have hstate : (w.sessions "s").any (fun s => s.stored && decide (s.state = .revoked)) = true := by
    rw [← hw]
    decide +kernel
  rw [Option.any_eq_true] at hstate
  obtain ⟨s, hs, hboth⟩ := hstate
  rw [Bool.and_eq_true, decide_eq_true_eq] at hboth
  cases hsettled.stored "s" s hs hboth.1 with
  | inl hbad =>
    rw [hboth.2] at hbad
    cases hbad
  | inr hbad =>
    rw [hboth.2] at hbad
    cases hbad

end GameLink.Sources.Authorizations

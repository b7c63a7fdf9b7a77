import GameLink.Outputs.Sends

namespace GameLink.Outputs

open Foundation Work Contracts World

variable {w w' : World} {as : List Action} {a : Action} {s : OutputStore} {root : String} {c d : RootOutputClaim}

def stage : Option OutputRow → ℕ
  | none => 0
  | some r =>
    match r.claim.state with
    | .claimed => 1
    | .sending => 2
    | .completed => 3
    | .unknown => 3

variable {r : OutputRow}

theorem stage_claimed (h : r.claim.state = .claimed) : stage (some r) = 1 := by simp [stage, h]

theorem stage_sending (h : r.claim.state = .sending) : stage (some r) = 2 := by simp [stage, h]

variable {n n' : ℕ}

theorem RowMove.stage_le {x y : Option OutputRow} (h : RowMove n n' x y) : stage x ≤ stage y := by
  cases h with
  | kept => exact le_rfl
  | created r hstate => exact Nat.zero_le _
  | retaken r r' hstate hstate' => rw [stage_claimed hstate, stage_claimed hstate']
  | begun r r' hstate hstate' =>
    rw [stage_claimed hstate, stage_sending hstate']
    omega
  | finished r r' hstate hstate' =>
    have hlast : stage (some r') = 3 := by simp [stage, hstate']
    rw [hlast]
    unfold stage
    dsimp only
    split
    all_goals omega
  | lost r r' hstate hstate' =>
    have hlast : stage (some r') = 3 := by simp [stage, hstate']
    rw [hlast, stage_sending hstate]
    omega

theorem RowMove.of_terminal {y : Option OutputRow} (h : RowMove n n' (some r) y)
    (hr : r.claim.state.terminal = true) : y = some r := by
  cases h with
  | kept => rfl
  | retaken r r' hstate =>
    rw [hstate] at hr
    cases hr
  | begun r r' hstate =>
    rw [hstate] at hr
    cases hr
  | finished r r' hstate =>
    rw [hstate] at hr
    cases hr
  | lost r r' hstate =>
    rw [hstate] at hr
    cases hr

theorem RowMove.generation {x : Option OutputRow} {r' : OutputRow} (h : RowMove n n' x (some r')) :
    (∃ r, x = some r ∧ r'.claim.claimGeneration = r.claim.claimGeneration ∧
        r'.claim.ownerToken = r.claim.ownerToken ∧ (r'.claim.state = .claimed → r.claim.state = .claimed)) ∨
      (n ≤ r'.claim.claimGeneration ∧ r'.claim.claimGeneration < n') := by
  cases h with
  | kept => exact .inl ⟨r', rfl, rfl, rfl, fun h => h⟩
  | created _ _ hn hn' => exact .inr ⟨hn, hn'⟩
  | retaken r _ _ _ _ _ hn hn' => exact .inr ⟨hn, hn'⟩
  | begun r _ hstate hstate' hcarried =>
    exact .inl ⟨r, rfl, hcarried.claimGeneration, hcarried.ownerToken, fun _ => hstate⟩
  | finished r _ _ hstate' hcarried =>
    refine .inl ⟨r, rfl, hcarried.claimGeneration, hcarried.ownerToken, fun h => ?_⟩
    rw [hstate'] at h
    cases h
  | lost r _ _ hstate' hcarried =>
    refine .inl ⟨r, rfl, hcarried.claimGeneration, hcarried.ownerToken, fun h => ?_⟩
    rw [hstate'] at h
    cases h

theorem step_calls (w : World) (a : Action) :
    ((w.step a).store = w.store ∧ (w.step a).begun = w.begun ∧ w.calls a = none) ∨
      ∃ c, w.calls a = some c ∧ (w.step a).store = c.run w.store ∧
        (w.step a).begun = w.begun ++ (c.begins w.store).toList := by
  cases a with
  | call c => exact .inr ⟨c, rfl, rfl, rfl⟩
  | send i step =>
    cases hs : w.senders i
    all_goals cases step
    all_goals simp only [World.step, World.send, World.calls, hs]
    all_goals first
      | exact .inr ⟨_, rfl, rfl, rfl⟩
      | exact .inl ⟨by trivial, by trivial, by trivial⟩

theorem step_generation_le (w : World) (a : Action) : w.store.nextGeneration ≤ (w.step a).store.nextGeneration := by
  rcases step_calls w a with ⟨hstore, -, -⟩ | ⟨c, -, hstore, -⟩
  · rw [hstore]
  rw [hstore]
  obtain ⟨-, -, -, hle⟩ := c.moved w.store ""
  exact hle

theorem sparing_move (ha : (sparing root).allowed w a) :
    RowMove w.store.nextGeneration (w.step a).store.nextGeneration (w.store.rows.get root)
      ((w.step a).store.rows.get root) := by
  rcases step_calls w a with ⟨hstore, -, -⟩ | ⟨c, hc, hstore, -⟩
  · rw [hstore]
    exact .kept _
  rw [hstore]
  obtain ⟨x, hx, hmove, -⟩ := c.moved w.store root
  rcases hx with rfl | ⟨-, hexpunged⟩
  · exact hmove
  · exact absurd hexpunged (ha c hc)

def begunOf (w : World) (root : String) : List (String × ℕ) := w.begun.filter fun e => decide (e.1 = root)

theorem step_begins (w : World) (a : Action) (root : String) : begunOf (w.step a) root = begunOf w root ∨
      ∃ e, begunOf (w.step a) root = begunOf w root ++ [e] ∧ stage (w.store.rows.get root) = 1 ∧
        stage ((w.step a).store.rows.get root) = 2 := by
  rcases step_calls w a with ⟨-, hbegun, -⟩ | ⟨c, -, hstore, hbegun⟩
  · exact .inl (by rw [begunOf, hbegun, begunOf])
  cases hbegins : c.begins w.store with
  | none => exact .inl (by rw [begunOf, hbegun, hbegins, Option.toList_none, List.append_nil, begunOf])
  | some e =>
    have hfilter : begunOf (w.step a) root = begunOf w root ++ [e].filter fun e => decide (e.1 = root) := by
      rw [begunOf, hbegun, hbegins, Option.toList_some, List.filter_append, begunOf]
    by_cases he : e.1 = root
    · refine .inr ⟨e, ?_, ?_⟩
      · rw [hfilter, List.filter_cons, if_pos (decide_eq_true he), List.filter_nil]
      have hentry : c.begins w.store = some (root, e.2) := by
        rw [hbegins, ← he]
      obtain ⟨r, r', hr, hr', hstate, hstate', -⟩ := OutputCall.begins_spec hentry
      rw [hstore, hr, hr']
      exact ⟨stage_claimed hstate, stage_sending hstate'⟩
    · exact .inl (by rw [hfilter, List.filter_cons, if_neg (by simpa using he), List.filter_nil, List.append_nil])

section

variable (h : (sparing root).Trace w as w')
include h

theorem sparing_trace : outputs.Trace w as w' := by
  induction h with
  | nil w => exact .nil w
  | cons _ _ ih => exact .cons trivial ih

theorem life_begins :
    stage (w.store.rows.get root) ≤ stage (w'.store.rows.get root) ∧
      ∃ l, begunOf w' root = begunOf w root ++ l ∧ l.length ≤ 1 ∧
        (l ≠ [] → stage (w.store.rows.get root) ≤ 1 ∧ 2 ≤ stage (w'.store.rows.get root)) := by
  induction h with
  | nil w => exact ⟨le_rfl, [], (List.append_nil _).symm, Nat.zero_le _, fun h => absurd rfl h⟩
  | @cons w w' a as ha h ih =>
    obtain ⟨hle', l, hl, hlength, hstages⟩ := ih
    have hle := (sparing_move ha).stage_le
    change stage (w.store.rows.get root) ≤ stage (((sparing root).next w a).store.rows.get root) at hle
    refine ⟨hle.trans hle', ?_⟩
    rcases step_begins w a root with hsame | ⟨e, hone, hbefore, hafter⟩
    · refine ⟨l, hl.trans (by rw [← hsame]; rfl), hlength, ?_⟩
      intro hne
      exact ⟨hle.trans (hstages hne).1, (hstages hne).2⟩
    have hnil : l = [] := by
      by_contra hne
      have hagain := (hstages hne).1
      change stage ((w.step a).store.rows.get root) ≤ 1 at hagain
      omega
    subst hnil
    refine ⟨[e], ?_, le_rfl, fun _ => ⟨hbefore.le, hafter ▸ hle'⟩⟩
    rw [hl, List.append_nil]
    exact hone

theorem terminal_row_kept (hr : w.store.rows.get root = some r)
    (hterminal : r.claim.state.terminal = true) : w'.store.rows.get root = some r := by
  refine h.invariant (P := fun w => w.store.rows.get root = some r) ?_ hr
  intro u a hu ha
  have hmove := sparing_move ha
  rw [hu] at hmove
  exact hmove.of_terminal hterminal

end

structure Recorded (w : World) : Prop where
  rows : ∀ k r, w.store.rows.get k = some r → r.claim.claimGeneration < w.store.nextGeneration
  given : ∀ e ∈ w.begun, e.2 < w.store.nextGeneration
  past : ∀ k r, (k, r.claim.claimGeneration) ∈ w.begun → w.store.rows.get k = some r → r.claim.state ≠ .claimed
  once : w.begun.Nodup

theorem Recorded.fresh (h : Recorded w) {call : OutputCall} {e : String × ℕ} (he : call.begins w.store = some e) :
    e ∉ w.begun ∧ e.2 < w.store.nextGeneration := by
  obtain ⟨r, -, hr, -, hstate, -, hgeneration, -⟩ := OutputCall.begins_spec he
  refine ⟨?_, hgeneration ▸ h.rows e.1 r hr⟩
  intro hmem
  refine h.past e.1 r ?_ hr hstate
  rw [hgeneration]
  exact hmem

theorem Recorded.call (h : Recorded w) (call : OutputCall) : Recorded (w.call call) := by
  have hle : w.store.nextGeneration ≤ (call.run w.store).nextGeneration := by
    obtain ⟨-, -, -, hle⟩ := call.moved w.store ""
    exact hle
  have hbefore : ∀ {k : String} {r : OutputRow}, (call.run w.store).rows.get k = some r →
      (∃ r₀, w.store.rows.get k = some r₀ ∧ r.claim.claimGeneration = r₀.claim.claimGeneration ∧
        (r.claim.state = .claimed → r₀.claim.state = .claimed)) ∨ (w.store.nextGeneration ≤ r.claim.claimGeneration ∧
        r.claim.claimGeneration < (call.run w.store).nextGeneration) := by
    intro k r hr
    obtain ⟨x, hx, hmove, -⟩ := call.moved w.store k
    rw [hr] at hmove
    rcases hmove.generation with ⟨r₀, rfl, hgeneration, -, hstate⟩ | hnew
    · refine .inl ⟨r₀, ?_, hgeneration, hstate⟩
      rcases hx with hx | ⟨hx, -⟩
      · exact hx.symm
      · cases hx
    · exact .inr hnew
  have hmem : ∀ {e : String × ℕ}, e ∈ (w.call call).begun → e ∈ w.begun ∨ call.begins w.store = some e := by
    intro e he
    rcases List.mem_append.mp he with he | he
    · exact .inl he
    · exact .inr (Option.mem_toList.mp he)
  constructor
  · intro k r hr
    rcases hbefore hr with ⟨r₀, hr₀, hgeneration, -⟩ | ⟨-, hlt⟩
    · have hlt := h.rows k r₀ hr₀
      change r.claim.claimGeneration < (call.run w.store).nextGeneration
      omega
    · exact hlt
  · intro e he
    rcases hmem he with he | he
    · exact (h.given e he).trans_le hle
    · exact (h.fresh he).2.trans_le hle
  · intro k r he hr
    rcases hmem he with he | he
    · rcases hbefore hr with ⟨r₀, hr₀, hgeneration, hstate⟩ | ⟨hnew, -⟩
      · intro hclaimed
        rw [hgeneration] at he
        exact h.past k r₀ he hr₀ (hstate hclaimed)
      have hlt := h.given _ he
      dsimp only at hlt
      omega
    · obtain ⟨-, r', -, hr', -, hsending, -⟩ := OutputCall.begins_spec he
      change (call.run w.store).rows.get k = some r at hr
      rw [hr'] at hr
      obtain rfl := Option.some.inj hr
      rw [hsending]
      exact fun hclaimed => by cases hclaimed
  · change (w.begun ++ (call.begins w.store).toList).Nodup
    cases hbegins : call.begins w.store with
    | none =>
      rw [Option.toList_none, List.append_nil]
      exact h.once
    | some e =>
      rw [Option.toList_some, List.nodup_append]
      refine ⟨h.once, List.nodup_singleton e, ?_⟩
      rintro a ha b hb rfl
      rw [List.mem_singleton] at hb
      exact (h.fresh hbegins).1 (hb ▸ ha)

theorem Recorded.step (h : Recorded w) (a : Action) : Recorded (w.step a) := by
  rcases step_calls w a with ⟨hstore, hbegun, -⟩ | ⟨call, -, hstore, hbegun⟩
  · exact ⟨by rw [hstore]; exact h.rows, by rw [hstore, hbegun]; exact h.given,
      by rw [hstore, hbegun]; exact h.past, by rw [hbegun]; exact h.once⟩
  have hcall := h.call call
  exact ⟨by rw [hstore]; exact hcall.rows, by rw [hstore, hbegun]; exact hcall.given,
    by rw [hstore, hbegun]; exact hcall.past, by rw [hbegun]; exact hcall.once⟩

/-- The claim that a routing holds between its `begin_sending` and its entry into the port. -/
def holder : Sender → Option RootOutputClaim
  | .sending c => some c
  | .scheduled c => some c
  | _ => none

theorem put_senders_self (i : ℕ) (x : Sender) : (w.put i x).senders i = x := Function.update_self ..

theorem put_senders_of_ne {i j : ℕ} (h : j ≠ i) (x : Sender) : (w.put i x).senders j = w.senders j :=
  Function.update_of_ne h ..

structure Tracked (w : World) : Prop where
  holders : ∀ i c, holder (w.senders i) = some c → message c ∈ w.begun ∧ message c ∉ w.port
  apart : ∀ i j c d, holder (w.senders i) = some c → holder (w.senders j) = some d → message c = message d → i = j
  entered : ∀ e ∈ w.port, e ∈ w.begun
  single : w.port.Nodup

theorem Tracked.call (h : Tracked w) (call : OutputCall) : Tracked (w.call call) where
  holders i c hc := ⟨List.mem_append_left _ (h.holders i c hc).1, (h.holders i c hc).2⟩
  apart := h.apart
  entered e he := List.mem_append_left _ (h.entered e he)
  single := h.single

variable {i : ℕ}

theorem Tracked.put_none (h : Tracked w) {x : Sender} (hx : holder x = none) : Tracked (w.put i x) := by
  have hother : ∀ {j : ℕ} {c : RootOutputClaim}, holder ((w.put i x).senders j) = some c →
      holder (w.senders j) = some c := by
    intro j c hc
    by_cases hj : j = i
    · rw [hj, put_senders_self, hx] at hc
      cases hc
    · rwa [put_senders_of_ne hj] at hc
  exact ⟨fun j c hc => h.holders j c (hother hc), fun j k c d hc hd => h.apart j k c d (hother hc) (hother hd),
    h.entered, h.single⟩

theorem Tracked.put_some (h : Tracked w) {x : Sender} (hx : holder x = some c) (hbegun : message c ∈ w.begun)
    (hport : message c ∉ w.port) (halone : ∀ j d, j ≠ i → holder (w.senders j) = some d → message d ≠ message c) :
    Tracked (w.put i x) := by
  have hself : holder ((w.put i x).senders i) = some c := by rw [put_senders_self, hx]
  have hother : ∀ {j : ℕ} {d : RootOutputClaim}, j ≠ i → holder ((w.put i x).senders j) = some d →
      holder (w.senders j) = some d := by
    intro j d hj hd
    rwa [put_senders_of_ne hj] at hd
  refine ⟨?_, ?_, h.entered, h.single⟩
  · intro j d hd
    by_cases hj : j = i
    · rw [hj, hself] at hd
      obtain rfl := Option.some.inj hd
      exact ⟨hbegun, hport⟩
    · exact h.holders j d (hother hj hd)
  · intro j k d e hd he hsame
    by_cases hj : j = i
    · rw [hj, hself] at hd
      obtain rfl := Option.some.inj hd
      by_contra hk
      rw [hj] at hk
      exact halone k e (Ne.symm hk) (hother (Ne.symm hk) he) hsame.symm
    by_cases hk : k = i
    · rw [hk, hself] at he
      obtain rfl := Option.some.inj he
      exact absurd hsame (halone j d hj (hother hj hd))
    · exact h.apart j k d e (hother hj hd) (hother hk he) hsame

theorem Tracked.enter (h : Tracked w) (hi : holder (w.senders i) = some c) :
    Tracked ({ w with port := w.port ++ [message c] }.put i (.sent c)) := by
  have hother : ∀ {j : ℕ} {d : RootOutputClaim},
      holder (({ w with port := w.port ++ [message c] }.put i (.sent c)).senders j) = some d →
      j ≠ i ∧ holder (w.senders j) = some d := by
    intro j d hd
    by_cases hj : j = i
    · rw [hj, put_senders_self] at hd
      cases hd
    · rw [put_senders_of_ne hj] at hd
      exact ⟨hj, hd⟩
  obtain ⟨hbegun, hport⟩ := h.holders i c hi
  refine ⟨?_, ?_, ?_, ?_⟩
  · intro j d hd
    obtain ⟨hj, hd⟩ := hother hd
    refine ⟨(h.holders j d hd).1, ?_⟩
    intro hmem
    rcases List.mem_append.mp hmem with hmem | hmem
    · exact (h.holders j d hd).2 hmem
    · exact hj (h.apart j i d c hd hi (List.mem_singleton.mp hmem))
  · intro j k d e hd he
    exact h.apart j k d e (hother hd).2 (hother he).2
  · intro e he
    rcases List.mem_append.mp he with he | he
    · exact h.entered e he
    · rw [List.mem_singleton.mp he]
      exact hbegun
  · refine List.nodup_append.mpr ⟨h.single, List.nodup_singleton _, ?_⟩
    rintro a ha b hb rfl
    rw [List.mem_singleton.mp hb] at ha
    exact hport ha

variable {now lease : Instant}

theorem begins_of_answer {x : RootOutputClaim}
    (h : (transaction (beginSending c now lease) s).1 = .ok (some x)) :
    (OutputCall.beginSending c now lease).begins s = some (message x) := by
  simp only [OutputCall.begins, h, message]

theorem Tracked.begin (h : Tracked w) (hrecorded : Recorded w) {answered : Bool} :
    Tracked ((w.call (.beginSending c now lease)).put i
      (approved answered (transaction (beginSending c now lease) w.store).1)) := by
  have hcall := h.call (.beginSending c now lease)
  cases hx : holder (approved answered (transaction (beginSending c now lease) w.store).1) with
  | none => exact hcall.put_none hx
  | some x =>
    have hanswer : (transaction (beginSending c now lease) w.store).1 = .ok (some x) := by
      unfold approved at hx
      split at hx
      · rename_i y heq
        cases answered with
        | true =>
          obtain rfl : y = x := Option.some.inj hx
          exact heq
        | false => cases hx
      · cases hx
    have hbegins := begins_of_answer hanswer
    have hfresh := (hrecorded.fresh hbegins).1
    refine hcall.put_some hx ?_ (fun hport => hfresh (h.entered _ hport)) ?_
    · exact List.mem_append_right _ (Option.mem_toList.mpr hbegins)
    · intro j d _ hd hsame
      exact hfresh (hsame ▸ (h.holders j d hd).1)

theorem Tracked.step (h : Tracked w) (hrecorded : Recorded w) (a : Action) : Tracked (w.step a) := by
  cases a with
  | call call => exact h.call call
  | send i step =>
    change Tracked (w.send i step)
    unfold World.send
    split
    · refine (h.call _).put_none ?_
      unfold owned
      split
      · split
        · rfl
        · rfl
      · rfl
    · exact (h.call _).put_none rfl
    · exact h.begin hrecorded
    · exact (h.call _).put_none rfl
    · rename_i c hi
      have hholder : holder (w.senders i) = some c := by rw [hi]; rfl
      refine h.put_some rfl (h.holders i c hholder).1 (h.holders i c hholder).2 ?_
      intro j d hj hd hsame
      exact hj (h.apart j i d c hd hholder hsame)
    · rename_i c hi
      exact h.enter (by rw [hi]; rfl)
    · exact (h.call _).put_none rfl
    · exact (h.call _).put_none rfl
    · exact h.put_none rfl
    · exact h

theorem reachable_sound (h : outputs.Reachable w) : Recorded w ∧ Tracked w := by
  refine h.invariant (P := fun w => Recorded w ∧ Tracked w) ?_ ?_
  · rintro w ⟨hrows, -, hsenders, hbegun, hport⟩
    have hnone : ∀ k, w.store.rows.get k = none := fun k => by rw [hrows]; rfl
    have hidle : ∀ i, holder (w.senders i) = none := fun i => by rw [hsenders i]; rfl
    refine ⟨⟨?_, ?_, ?_, ?_⟩, ⟨?_, ?_, ?_, ?_⟩⟩
    · intro k r hr
      rw [hnone k] at hr
      cases hr
    · rw [hbegun]
      exact fun e he => by cases he
    · intro k r _ hr
      rw [hnone k] at hr
      cases hr
    · rw [hbegun]
      exact List.nodup_nil
    · intro i c hc
      rw [hidle i] at hc
      cases hc
    · intro i j c d hc
      rw [hidle i] at hc
      cases hc
    · rw [hport]
      exact fun e he => by cases he
    · rw [hport]
      exact List.nodup_nil
  · rintro w a ⟨hrecorded, htracked⟩ _
    exact ⟨hrecorded.step a, htracked.step hrecorded a⟩

def Superseded (w : World) (c : RootOutputClaim) : Prop :=
  c.claimGeneration < w.store.nextGeneration ∧ ∀ r, w.store.rows.get c.rootInvocationId = some r →
    ¬ (r.claim.claimGeneration = c.claimGeneration ∧ r.claim.ownerToken = c.ownerToken)

theorem Superseded.step (h : Superseded w c) (a : Action) : Superseded (w.step a) c := by
  refine ⟨h.1.trans_le (step_generation_le w a), ?_⟩
  rcases step_calls w a with ⟨hstore, -, -⟩ | ⟨call, -, hstore, -⟩
  · rw [hstore]
    exact h.2
  rw [hstore]
  rintro r hr ⟨hgeneration, htoken⟩
  obtain ⟨x, hx, hmove, -⟩ := call.moved w.store c.rootInvocationId
  rw [hr] at hmove
  rcases hmove.generation with ⟨r₀, rfl, hgeneration₀, htoken₀, -⟩ | ⟨hnew, -⟩
  · rcases hx with hx | ⟨hx, -⟩
    · exact h.2 r₀ hx.symm ⟨hgeneration₀.symm.trans hgeneration, htoken₀.symm.trans htoken⟩
    · cases hx
  · have hlt := h.1
    omega

def OutputCall.carried : OutputCall → Option RootOutputClaim
  | claim _ _ => none
  | beginSending c _ _ => some c
  | complete c _ _ _ _ => some c
  | abortBeforeDispatch c _ _ => some c
  | recoverExpired _ _ => none

theorem Superseded.run_eq (h : Superseded w c) {call : OutputCall} (hcall : call.carried = some c) :
    call.run w.store = w.store := by
  have hmatch : ∀ {state : RootOutputState} {r r' : OutputRow} {s' : OutputStore}, Matches c state r →
      ¬ Updated c.rootInvocationId r r' w.store s' :=
    fun hm hu => h.2 _ hu.was ⟨hm.claimGeneration, hm.ownerToken⟩
  cases call with
  | claim retention q => cases hcall
  | beginSending c' now lease =>
    obtain rfl : c' = c := Option.some.inj hcall
    refine transaction_store (P := fun s => s = w.store) rfl ?_
    intro y u hgives
    rcases beginSending_gives hgives with ⟨r, hm, -, hupdated⟩ | ⟨-, hstore⟩
    · exact absurd hupdated (hmatch hm)
    · exact hstore
  | complete c' receipt outcome completedAt errorCode =>
    obtain rfl : c' = c := Option.some.inj hcall
    refine transaction_store (P := fun s => s = w.store) rfl ?_
    intro y u hgives
    rcases complete_gives hgives with ⟨r, hm, hupdated⟩ | ⟨-, hstore⟩
    · exact absurd hupdated (hmatch hm)
    · exact hstore
  | abortBeforeDispatch c' completedAt errorCode =>
    obtain rfl : c' = c := Option.some.inj hcall
    refine transaction_store (P := fun s => s = w.store) rfl ?_
    intro y u hgives
    rcases abortBeforeDispatch_gives hgives with ⟨r, hm, hupdated⟩ | ⟨-, hstore⟩
    · exact absurd hupdated (hmatch hm)
    · exact hstore
  | recoverExpired before recoveredAt => cases hcall

theorem claim_conflicts {retention : ℤ} {q : ClaimRequest}
    (hr : s.rows.get q.rootInvocationId = some r) (hkept : expired (q.now - retention) r = false)
    (hother : r.claim.outputIdentity ≠ q.outputIdentity ∨ r.claim.payloadFingerprint ≠ q.payloadFingerprint) :
    ∃ e, transaction (claim retention q) s = (.error e, s) := by
  rcases transaction_cases (claim retention q) s with ⟨x, s', h⟩ | ⟨e, h⟩
  · obtain ⟨gs, hgives, -⟩ := transaction_ok.mp h
    have hpruned : (pruned s (q.now - retention)).rows.get q.rootInvocationId = some r := by
      change (s.rows.delete (expired (q.now - retention))).get q.rootInvocationId = some r
      rw [Table.get_delete, hr]
      simp [Option.filter, hkept]
    obtain ⟨hidentity, hfingerprint⟩ := (claim_gives hgives).2 r hpruned
    rcases hother with hother | hother
    · exact absurd hidentity hother
    · exact absurd hfingerprint hother
  · exact ⟨e, h⟩

theorem entries_le_one {l : List (String × ℕ)} (htracked : Tracked w') (hbegun : begunOf w' root = begunOf w root ++ l)
    (hl : l.length ≤ 1) : (w'.port.filter fun e => decide (e.1 = root ∧ e ∉ w.begun)).length ≤ 1 := by
  refine le_trans (List.Nodup.length_le_of_subset (htracked.single.filter _) ?_) hl
  intro e he
  obtain ⟨hport, hnew⟩ := List.mem_filter.mp he
  obtain ⟨hroot, hnot⟩ := of_decide_eq_true hnew
  have hmem : e ∈ begunOf w' root := List.mem_filter.mpr ⟨htracked.entered e hport, decide_eq_true hroot⟩
  rw [hbegun] at hmem
  rcases List.mem_append.mp hmem with hold | hmem
  · exact absurd (List.mem_filter.mp hold).1 hnot
  · exact hmem

/-- Of a root at most one send begins and enters the message port, and a row that has come to its end stays as it
is. -/
theorem root_output_at_most_once (hw : outputs.Reachable w) : (∀ root as w', (sparing root).Trace w as w' →
      (∃ l, begunOf w' root = begunOf w root ++ l ∧ l.length ≤ 1) ∧
      (w'.port.filter fun e => decide (e.1 = root ∧ e ∉ w.begun)).length ≤ 1 ∧
      ∀ r, w.store.rows.get root = some r → r.claim.state.terminal = true → w'.store.rows.get root = some r) ∧
    (∀ e ∈ w.port, e ∈ w.begun) ∧ w.port.Nodup ∧
    (∀ retention q r, w.store.rows.get q.rootInvocationId = some r → expired (q.now - retention) r = false →
      (r.claim.outputIdentity ≠ q.outputIdentity ∨ r.claim.payloadFingerprint ≠ q.payloadFingerprint) →
      ∃ e, transaction (claim retention q) w.store = (.error e, w.store)) ∧
    ∀ (c : RootOutputClaim) (call : OutputCall) as w', Superseded w c → outputs.Trace w as w' → call.carried = some c →
      call.run w'.store = w'.store := by
  have htracked := (reachable_sound hw).2
  refine ⟨?_, htracked.entered, htracked.single, fun retention q r => claim_conflicts, ?_⟩
  · intro root as w' h
    obtain ⟨-, l, hbegun, hl, -⟩ := life_begins h
    have hreachable : outputs.Reachable w' := hw.trace (sparing_trace h)
    refine ⟨⟨l, hbegun, hl⟩, entries_le_one (reachable_sound hreachable).2 hbegun hl, ?_⟩
    intro r hr hterminal
    exact terminal_row_kept h hr hterminal
  · intro c call as w' hsuperseded h hcarried
    have hlater : Superseded w' c := h.invariant (P := fun u => Superseded u c) (fun u a hu _ => hu.step a) hsuperseded
    exact hlater.run_eq hcarried

namespace Sample

def fingerprint : String := "0000000000000000000000000000000000000000000000000000000000000000"

def request : ClaimRequest := ⟨"r", "result", fingerprint, "t", 0, 10⟩

def start : World := ⟨⟨.empty, 1⟩, fun _ => .idle, [], []⟩

def routing : List Action :=
  [.send 0 (.claim 100 request), .send 0 (.begin 1 11 true), .send 0 .schedule, .send 0 .enter]

def routed : {w : World // w.port = [("r", 1)]} := ⟨routing.foldl World.step start, by decide +kernel⟩

end Sample

open Sample

theorem root_output_at_most_once_routed : ∃ w : World, w.port = [("r", 1)] ∧ (∀ e ∈ w.port, e ∈ w.begun) ∧
    ∃ e, transaction (claim 100 { request with outputIdentity := "other" }) w.store = (.error e, w.store) := by
  have hstart : outputs.start start := ⟨rfl, rfl, fun _ => rfl, rfl, rfl⟩
  have htrace : outputs.Trace start routing (routing.foldl World.step start) :=
    .of_always (fun _ _ _ => trivial) start
  obtain ⟨-, hentered, -, hconflict, -⟩ := root_output_at_most_once ⟨start, routing, hstart, htrace⟩
  refine ⟨routing.foldl World.step start, routed.property, hentered, ?_⟩
  have hrow : ((routing.foldl World.step start).store.rows.get "r").map
      (fun r => (expired (0 - 100) r, r.claim.outputIdentity)) = some (false, "result") := by decide +kernel
  obtain ⟨r, hr, hfacts⟩ := Option.map_eq_some_iff.mp hrow
  obtain ⟨hkept, hidentity⟩ := Prod.mk.inj hfacts
  refine hconflict 100 { request with outputIdentity := "other" } r hr hkept (.inl ?_)
  rw [hidentity]
  decide

end GameLink.Outputs

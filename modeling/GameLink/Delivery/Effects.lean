import GameLink.Delivery.Repository
import GameLink.Foundation.AttemptLedger

namespace GameLink.Delivery

open Foundation Work Contracts Store

variable [Hashing]

def ledger (s : Database) (id : EventId) : List AttemptRow := s.attempts.rows.filter fun a => a.event = id

def Keyed (s : Database) : Prop := ∀ id row, s.events.get id = some row → row.event.id = id

def attemptedRow (row : EventRow) (updated : DeliveryEvent) (attempt : DeliveryAttempt) (retryAt : Option Instant) :
    EventRow :=
  { row with state := attempt.state, attemptNumber := attempt.attemptNumber, retryAt := retryAt, event := updated }

structure Replaced (id : EventId) (row' : EventRow) (l' : List AttemptRow) (s s' : Database) : Prop where
  events : ∀ id', s'.events.get id' = if id' = id then some row' else s.events.get id'
  ledgers : ∀ id', ledger s' id' = if id' = id then l' else ledger s id'

inductive EventMove (row : EventRow) (l : List AttemptRow) : EventRow → List AttemptRow → Prop
  | begun (attempt : DeliveryAttempt) (retryAt : Option Instant) (updated : DeliveryEvent)
      (hs : row.state = .pending ∨ row.state = .failed) (hn : attempt.attemptNumber = row.attemptNumber + 1)
      (hne : attempt.state ≠ .pending) (hu : updated.toEventFields = attemptedFields row.event attempt retryAt) :
      EventMove row l (attemptedRow row updated attempt retryAt)
        (l ++ [⟨row.event.id, attempt.attemptNumber, attempt.state, attempt⟩])
  | settled (old attempt : DeliveryAttempt) (retryAt : Option Instant) (updated : DeliveryEvent) (p : AttemptRow → Bool)
      (hs : row.state = .sending) (ho : row.event.attempt = some old) (hn : attempt.attemptNumber = row.attemptNumber)
      (hne : attempt.state ≠ .pending) (hu : updated.toEventFields = attemptedFields row.event attempt retryAt)
      (hp : ∀ a, p a = true → a.attemptNumber = attempt.attemptNumber) (hone : ∃ a ∈ l, p a = true) :
      EventMove row l (attemptedRow row updated attempt retryAt)
        (l.map fun a => if p a then { a with state := attempt.state, attempt := attempt } else a)

def Moved (id : EventId) (s s' : Database) : Prop :=
  ((∀ id', s'.events.get id' = s.events.get id') ∧ ∀ id', ledger s' id' = ledger s id') ∨
    ∃ row row' l', s.events.get id = some row ∧ EventMove row (ledger s id) row' l' ∧ Replaced id row' l' s s'

theorem Moved.refl (id : EventId) (s : Database) : Moved id s s := .inl ⟨fun _ => rfl, fun _ => rfl⟩

variable {u u' : UnitOfWork Database Failure}

variable {attempt : DeliveryAttempt}

theorem insertAttempt_gives {event : EventId} {x : Unit} (h : (insertAttempt event attempt).Gives u x u') :
    u'.store.events = u.store.events ∧ ∀ id, ledger u'.store id =
      if id = event then ledger u.store event ++ [⟨event, attempt.attemptNumber, attempt.state, attempt⟩]
      else ledger u.store id := by
  simp only [insertAttempt, gives_bind, gives_read, gives_raiseIf, gives_orRaise, gives_write] at h
  obtain ⟨_, _, ⟨rfl, rfl⟩, _, _, ⟨-, rfl⟩, attempts, _, ⟨hins, rfl⟩, rfl⟩ := h
  refine ⟨rfl, fun id => ?_⟩
  simp only [ledger, Table.rows_of_insert hins, List.filter_append]
  by_cases hid : id = event
  · subst hid
    simp
  · have hne : event ≠ id := fun he => hid he.symm
    simp [hid, hne]

variable {q : AttemptRow → Bool}

theorem updateAttempts_gives {event : EventId} {number x : ℕ}
    (h : (updateAttempts (fun a => decide (a.key = (event, number)) && q a) attempt).Gives u x u') :
    u'.store.events = u.store.events ∧
      (x = 1 ↔ ∃ a ∈ ledger u.store event, (decide (a.key = (event, number)) && q a) = true) ∧
      ∀ id, ledger u'.store id = if id = event then (ledger u.store event).map fun a =>
          if (decide (a.key = (event, number)) && q a) = true then { a with state := attempt.state, attempt := attempt }
          else a
        else ledger u.store id := by
  simp only [updateAttempts, gives_bind, gives_read, gives_write, gives_pure] at h
  obtain ⟨_, _, ⟨rfl, rfl⟩, _, _, rfl, rfl, rfl⟩ := h
  refine ⟨rfl, ?_, fun id => ?_⟩
  · rw [Table.matching_eq_one]
    constructor
    · rintro ⟨a, ha, hq⟩
      obtain ⟨hmem, hkey⟩ := Table.get_eq_some.mp ha
      refine ⟨a, List.mem_filter.mpr ⟨hmem, ?_⟩, by rw [hkey, hq, decide_eq_true rfl]; rfl⟩
      exact decide_eq_true (Prod.mk.inj hkey).1
    rintro ⟨a, ha, hp⟩
    obtain ⟨hkey, hq⟩ := Bool.and_eq_true_iff.mp hp
    exact ⟨a, Table.get_eq_some.mpr ⟨(List.mem_filter.mp ha).1, of_decide_eq_true hkey⟩, hq⟩
  · simp only [ledger, Table.update, List.filter_map]
    have hev : ((fun a : AttemptRow => decide (a.event = id)) ∘ fun a : AttemptRow =>
        if (decide (a.key = (event, number)) && q a) = true then { a with state := attempt.state, attempt := attempt }
        else a) = fun a => decide (a.event = id) := by
      funext a
      simp only [Function.comp_apply]
      split <;> rfl
    rw [hev]
    by_cases hid : id = event
    · rw [if_pos hid, hid]
    rw [if_neg hid]
    refine List.map_congr_left (g := fun a => a) (fun a ha => ?_) |>.trans (List.map_id' _)
    rw [if_neg]
    intro hp
    have hkey := of_decide_eq_true (Bool.and_eq_true_iff.mp hp).1
    exact hid ((of_decide_eq_true (List.mem_filter.mp ha).2).symm.trans (Prod.mk.inj hkey).1)

variable {expectedState : DeliveryState} {retryAt : Option Instant} {attemptNumber : ℕ}

theorem updateAttempted_gives {event updated : DeliveryEvent} {x : Bool}
    (h : (updateAttempted event updated attempt retryAt expectedState attemptNumber).Gives u x u') :
    u'.store.attempts = u.store.attempts ∧ ((x = false ∧ ∀ id, u'.store.events.get id = u.store.events.get id) ∨
        x = true ∧ ∃ row, u.store.events.get event.id = some row ∧ row.state = expectedState ∧
          row.attemptNumber = attemptNumber ∧ ∀ id, u'.store.events.get id =
            if id = event.id then some (attemptedRow row updated attempt retryAt) else u.store.events.get id) := by
  simp only [updateAttempted, updateEvents, gives_bind, gives_read, gives_write, gives_pure] at h
  obtain ⟨n, _, ⟨_, _, ⟨rfl, rfl⟩, _, _, rfl, hn, rfl⟩, rfl, rfl⟩ := h
  refine ⟨rfl, ?_⟩
  have hone := Table.matching_eq_one u.store.events event.id
    fun r => r.state = expectedState && r.attemptNumber = attemptNumber
  rw [← hn] at hone
  have hget := Table.get_update u.store.events
    (fun r => decide (r.id = event.id) && (r.state = expectedState && r.attemptNumber = attemptNumber))
    (fun r => attemptedRow r updated attempt retryAt) fun _ => rfl
  by_cases h1 : n = 1
  · obtain ⟨row, hrow, hq⟩ := hone.mp h1
    obtain ⟨hstate, hnumber⟩ := Bool.and_eq_true_iff.mp hq
    refine .inr ⟨decide_eq_true h1, row, hrow, of_decide_eq_true hstate, of_decide_eq_true hnumber, fun id => ?_⟩
    refine (hget id).trans ?_
    by_cases hid : id = event.id
    · subst hid
      rw [if_pos rfl, hrow, Option.map_some, if_pos]
      rw [hq, decide_eq_true (Table.key_of_get hrow)]
      rfl
    rw [if_neg hid]
    cases hr : u.store.events.get id with
    | none => rfl
    | some r =>
      have hne : r.id ≠ event.id := by rwa [show r.id = id from Table.key_of_get hr]
      rw [Option.map_some, if_neg (by simp [hne])]
  · refine .inl ⟨decide_eq_false h1, fun id => (hget id).trans ?_⟩
    cases hr : u.store.events.get id with
    | none => rfl
    | some r =>
      rw [Option.map_some, if_neg]
      intro hp
      obtain ⟨hid, hq⟩ := Bool.and_eq_true_iff.mp hp
      exact h1 (hone.mpr ⟨r, by rw [← of_decide_eq_true hid, show r.id = id from Table.key_of_get hr]; exact hr, hq⟩)

variable {id : EventId}

theorem updateAttempts_moves {w w' : UnitOfWork Database Failure} {n : ℕ}
    {attempt old : DeliveryAttempt} {updated : DeliveryEvent} {row : EventRow}
    (hrow : u.store.events.get id = some row) (hs : row.state = .sending) (ho : row.event.attempt = some old)
    (hn : attempt.attemptNumber = row.attemptNumber) (hne : attempt.state ≠ .pending)
    (hu : updated.toEventFields = attemptedFields row.event attempt retryAt)
    (hget : ∀ id', w.store.events.get id' =
      if id' = id then some (attemptedRow row updated attempt retryAt) else u.store.events.get id')
    (hatt : w.store.attempts = u.store.attempts) (hone : n = 1)
    (h : (updateAttempts (fun a => decide (a.key = (id, attempt.attemptNumber)) && q a) attempt).Gives w n w') :
    Moved id u.store w'.store := by
  have hledger : ∀ id, ledger w.store id = ledger u.store id := fun id => by rw [ledger, hatt, ledger]
  obtain ⟨hev, hcount, hleds⟩ := updateAttempts_gives h
  have hmove := EventMove.settled (l := ledger u.store id) old attempt retryAt updated
    (fun a => decide (a.key = (id, attempt.attemptNumber)) && q a) hs ho hn hne hu
    (fun a ha => (Prod.mk.inj (of_decide_eq_true (Bool.and_eq_true_iff.mp ha).1)).2)
    (by rw [← hledger]; exact hcount.mp hone)
  refine .inr ⟨row, _, _, hrow, hmove, fun id' => ?_, fun id' => ?_⟩
  · rw [hev]
    exact hget id'
  · rw [hleds, hledger, hledger]

theorem recordAttempt_gives {x : DeliveryEvent} (hk : Keyed u.store)
    (he : expectedState ∈ [.pending, .failed, .sending])
    (h : (recordAttempt id attempt expectedState retryAt).Gives u x u') : Moved id u.store u'.store := by
  simp only [recordAttempt, gives_bind, gives_raiseIf, gives_read, gives_orRaise, gives_ofExcept, gives_pure] at h
  obtain ⟨_, _, ⟨-, rfl⟩, _, _, ⟨rfl, rfl⟩, row, _, ⟨hrow, rfl⟩, _, _, ⟨hc, rfl⟩, _, _, ⟨-, rfl⟩, updated, _, ⟨hu, rfl⟩,
    changed, w, hupd, _, _, ⟨hch, rfl⟩, _, w', hled, -, rfl⟩ := h
  rw [DeliveryEvent.build_eq_ok] at hu
  have hid : row.event.id = id := hk id row hrow
  obtain ⟨hatt, ⟨hfalse, -⟩ | ⟨-, row₂, hrow₂, hstate, -, hget⟩⟩ := updateAttempted_gives hupd
  · exact absurd hfalse hch
  rw [hid] at hrow₂ hget
  obtain rfl := Option.some.inj (hrow.symm.trans hrow₂)
  have hledger : ∀ id, ledger w.store id = ledger u.store id := fun id => by rw [ledger, hatt, ledger]
  simp only [attemptConflicts, Bool.not_eq_true, Bool.or_eq_false_iff, decide_eq_false_iff_not, ne_eq,
    Decidable.not_not, Bool.and_eq_false_iff, Bool.not_eq_false'] at hc
  obtain ⟨⟨⟨⟨-, -⟩, hnum⟩, hflight⟩, hterminal⟩ := hc
  have hne : attempt.state ≠ .pending := by
    intro hp
    rw [AttemptFields.terminal, hp] at hterminal
    cases hterminal
  unfold recordLedger at hled
  rw [gives_ite] at hled
  rcases hled with ⟨hsending, hled⟩ | ⟨hsending, hled⟩
  · simp only [gives_bind, gives_raiseIf] at hled
    obtain ⟨n, v, hset, hn, rfl⟩ := hled
    rw [hid] at hset
    rw [if_pos hsending] at hnum
    obtain ⟨old, ho⟩ : ∃ old, row.event.attempt = some old := by
      rcases hflight with hns | hfl
      · exact absurd hsending hns
      cases ho : row.event.attempt with
      | none => rw [ho] at hfl; cases hfl
      | some old => exact ⟨old, rfl⟩
    exact updateAttempts_moves hrow (hstate.trans hsending) ho hnum hne hu hget hatt (Decidable.not_not.mp hn) hset
  · rw [hid] at hled
    obtain ⟨hev, hleds⟩ := insertAttempt_gives hled
    rw [if_neg hsending] at hnum
    have hopen : row.state = .pending ∨ row.state = .failed := by
      rw [hstate]
      simpa [hsending] using he
    refine .inr ⟨row, _, _, hrow, .begun attempt retryAt updated hopen hnum hne hu, fun id' => ?_, fun id' => ?_⟩
    · rw [hev]
      exact hget id'
    · rw [hleds, hledger, hledger, hid]

variable {x : Option DeliveryEvent}

theorem claimSending_gives {bindings : GateBindings} {startedAt now : Instant} (hk : Keyed u.store)
    (h : (claimSending bindings id expectedState attemptNumber startedAt now).Gives u x u') :
    Moved id u.store u'.store ∧ ∀ e, x = some e → ∃ row attempt, u.store.events.get id = some row ∧
      claimable bindings u.store id row expectedState attemptNumber now = true ∧
      attempt.attemptNumber = attemptNumber ∧ e.toEventFields = attemptedFields row.event attempt none ∧
      Replaced id (attemptedRow row e attempt none)
        (ledger u.store id ++ [⟨id, attempt.attemptNumber, attempt.state, attempt⟩]) u.store u'.store := by
  simp only [claimSending, gives_bind, gives_raiseIf, gives_read] at h
  obtain ⟨_, _, ⟨-, rfl⟩, _, _, ⟨rfl, rfl⟩, h⟩ := h
  split at h
  · obtain ⟨rfl, rfl⟩ := gives_pure.mp h
    exact ⟨.refl _ _, fun e he => by cases he⟩
  rename_i row hrow
  rw [gives_ite] at h
  rcases h with ⟨-, h⟩ | ⟨hc, h⟩
  · obtain ⟨rfl, rfl⟩ := gives_pure.mp h
    exact ⟨.refl _ _, fun e he => by cases he⟩
  simp only [gives_bind, gives_ofExcept, gives_ite, gives_pure] at h
  obtain ⟨attempt, _, ⟨hb, rfl⟩, updated, _, ⟨hu, rfl⟩, changed, w, hupd, hrest⟩ := h
  rw [DeliveryEvent.build_eq_ok] at hu
  rw [DeliveryAttempt.build_eq_ok] at hb
  have hid : row.event.id = id := hk id row hrow
  have hnum : attempt.attemptNumber = attemptNumber := by rw [hb]
  obtain ⟨hatt, hcase⟩ := updateAttempted_gives hupd
  have hledger : ∀ id, ledger w.store id = ledger u.store id := fun id => by rw [ledger, hatt, ledger]
  rcases hrest with ⟨hfalse, rfl, rfl⟩ | ⟨htrue, _, w', hins, rfl, rfl⟩
  · refine ⟨.inl ⟨fun id' => ?_, hledger⟩, fun e he => by cases he⟩
    rcases hcase with ⟨-, hsame⟩ | ⟨hx, -⟩
    · exact hsame id'
    · exact absurd (hx.symm.trans hfalse) Bool.noConfusion
  rcases hcase with ⟨hx, -⟩ | ⟨-, row₂, hrow₂, hstate, -, hget⟩
  · exact absurd hx htrue
  rw [hid] at hrow₂ hget hins
  obtain rfl := Option.some.inj (hrow.symm.trans hrow₂)
  obtain ⟨hev, hleds⟩ := insertAttempt_gives hins
  have hrep : Replaced id (attemptedRow row updated attempt none)
      (ledger u.store id ++ [⟨id, attempt.attemptNumber, attempt.state, attempt⟩]) u.store w'.store := by
    refine ⟨fun id' => ?_, fun id' => ?_⟩
    · rw [hev]
      exact hget id'
    · rw [hleds, hledger, hledger]
  have hcl : claimable bindings u.store id row expectedState attemptNumber now = true := by
    simpa using hc
  have hopen : row.state = .pending ∨ row.state = .failed := by
    rw [hstate]
    simp only [claimable, Bool.and_eq_true, Bool.or_eq_true, decide_eq_true_eq] at hcl
    exact hcl.1.1.2
  have hnext : attempt.attemptNumber = row.attemptNumber + 1 := by
    simp only [claimable, Bool.and_eq_true, decide_eq_true_eq] at hcl
    rw [hnum]
    exact hcl.1.2
  refine ⟨.inr ⟨row, _, _, hrow, .begun attempt none updated hopen hnext (by simp [hb]) hu, ?_⟩, fun e he => ?_⟩
  · rw [hid]
    exact hrep
  · obtain rfl := Option.some.inj he
    exact ⟨row, attempt, hrow, hcl, hnum, hu, hrep⟩

theorem settleUnknown_gives {event : DeliveryEvent} {old : DeliveryAttempt} {completedAt : Instant} {row : EventRow} (hrow : u.store.events.get event.id = some row) (he : row.event = event)
    (ho : event.attempt = some old) (h : (settleUnknown event old completedAt).Gives u x u') :
    Moved event.id u.store u'.store := by
  simp only [settleUnknown, gives_bind, gives_ofExcept, gives_ite, gives_raiseIf, gives_pure] at h
  obtain ⟨attempt, _, ⟨hb, rfl⟩, updated, _, ⟨hu, rfl⟩, changed, w, hupd, hrest⟩ := h
  rw [DeliveryEvent.build_eq_ok] at hu
  rw [DeliveryAttempt.build_eq_ok] at hb
  obtain ⟨hatt, hcase⟩ := updateAttempted_gives hupd
  have hledger : ∀ id, ledger w.store id = ledger u.store id := fun id => by rw [ledger, hatt, ledger]
  rcases hrest with ⟨hfalse, -, rfl⟩ | ⟨htrue, n, w', hset, _, _, ⟨hn, rfl⟩, -, rfl⟩
  · refine .inl ⟨fun id' => ?_, hledger⟩
    rcases hcase with ⟨-, hsame⟩ | ⟨hx, -⟩
    · exact hsame id'
    · exact absurd (hx.symm.trans hfalse) Bool.noConfusion
  rcases hcase with ⟨hx, -⟩ | ⟨-, row₂, hrow₂, hstate, hnumber, hget⟩
  · exact absurd hx htrue
  obtain rfl := Option.some.inj (hrow.symm.trans hrow₂)
  have hnum : attempt.attemptNumber = old.attemptNumber := by rw [hb]
  rw [← hnum] at hset
  exact updateAttempts_moves hrow hstate (he ▸ ho) (hnum.trans hnumber.symm) (by simp [hb]) (he ▸ hu) hget hatt
    (Decidable.not_not.mp hn) hset

theorem markSendingUnknown_gives {expectedAttemptNumber : ℕ} {expectedStartedAt completedAt : Instant} (hk : Keyed u.store)
    (h : (markSendingUnknown id expectedAttemptNumber expectedStartedAt completedAt).Gives u x u') :
    Moved id u.store u'.store := by
  simp only [markSendingUnknown, gives_bind, gives_read] at h
  obtain ⟨_, _, ⟨rfl, rfl⟩, h⟩ := h
  split at h
  · rw [(gives_pure.mp h).2]
    exact .refl _ _
  rename_i row hrow
  split at h
  · rw [(gives_pure.mp h).2]
    exact .refl _ _
  rename_i old ho
  rw [gives_ite] at h
  rcases h with ⟨-, h⟩ | ⟨-, h⟩
  · rw [(gives_pure.mp h).2]
    exact .refl _ _
  have hid : row.event.id = id := hk id row hrow
  subst hid
  exact settleUnknown_gives hrow rfl ho h

def MovedAt (id : EventId) (s s' : Database) : Prop :=
  (s'.events.get id = s.events.get id ∧ ledger s' id = ledger s id) ∨
    ∃ row row', s.events.get id = some row ∧ s'.events.get id = some row' ∧
      EventMove row (ledger s id) row' (ledger s' id)

theorem Moved.at {s s' : Database} (h : Moved id s s') (id' : EventId) : MovedAt id' s s' := by
  rcases h with ⟨hev, hled⟩ | ⟨row, row', l', hrow, hm, hrep⟩
  · exact .inl ⟨hev id', hled id'⟩
  by_cases hid : id' = id
  · subst hid
    refine .inr ⟨row, row', hrow, by rw [hrep.events, if_pos rfl], ?_⟩
    rw [hrep.ledgers, if_pos rfl]
    exact hm
  · exact .inl ⟨by rw [hrep.events, if_neg hid], by rw [hrep.ledgers, if_neg hid]⟩

theorem Moved.other {id id' : EventId} {s s' : Database} (h : Moved id s s') (hne : id' ≠ id) :
    s'.events.get id' = s.events.get id' ∧ ledger s' id' = ledger s id' := by
  rcases h with ⟨hev, hled⟩ | ⟨row, row', l', hrow, hm, hrep⟩
  · exact ⟨hev id', hled id'⟩
  · exact ⟨by rw [hrep.events, if_neg hne], by rw [hrep.ledgers, if_neg hne]⟩

variable {x : List DeliveryEvent} {before : Instant}

theorem recoverEvents_gives {events : List (DeliveryEvent × DeliveryAttempt)} (hn : events.Pairwise fun p q => p.1.id ≠ q.1.id)
    (hev : ∀ p ∈ events, p.1.attempt = some p.2 ∧ ∃ row, u.store.events.get p.1.id = some row ∧ row.event = p.1)
    (h : (recoverEvents before events).Gives u x u') :
    (∀ id, (∀ p ∈ events, id ≠ p.1.id) →
      u'.store.events.get id = u.store.events.get id ∧ ledger u'.store id = ledger u.store id) ∧
      ∀ id, MovedAt id u.store u'.store := by
  induction events generalizing u x with
  | nil =>
    rw [(gives_pure.mp h).2]
    exact ⟨fun id _ => ⟨rfl, rfl⟩, fun id => .inl ⟨rfl, rfl⟩⟩
  | cons p rest ih =>
    simp only [recoverEvents, gives_bind, gives_pure] at h
    obtain ⟨changed, w, hset, recovered, w', hrest, -, rfl⟩ := h
    rw [List.pairwise_cons] at hn
    obtain ⟨hatt, row, hrow, he⟩ := hev p List.mem_cons_self
    have hmoved := settleUnknown_gives hrow he hatt hset
    have hkeep : ∀ q ∈ rest, q.1.attempt = some q.2 ∧ ∃ row, w.store.events.get q.1.id = some row ∧ row.event = q.1 := by
      intro q hq
      obtain ⟨hqa, r, hr, hre⟩ := hev q (List.mem_cons_of_mem _ hq)
      exact ⟨hqa, r, by rw [(hmoved.other (hn.1 q hq).symm).1, hr], hre⟩
    obtain ⟨hout, hat⟩ := ih hn.2 hkeep hrest
    constructor
    · intro id hid
      obtain ⟨hget, hled⟩ := hout id fun q hq => hid q (List.mem_cons_of_mem _ hq)
      obtain ⟨hget', hled'⟩ := hmoved.other (hid p List.mem_cons_self)
      exact ⟨hget.trans hget', hled.trans hled'⟩
    intro id
    by_cases hid : id = p.1.id
    · obtain ⟨hget, hled⟩ := hout id fun q hq => hid ▸ hn.1 q hq
      have hm := hmoved.at id
      rw [MovedAt, ← hget, ← hled] at hm
      exact hm
    obtain ⟨hget, hled⟩ := hmoved.other hid
    have hm := hat id
    rw [MovedAt, hget, hled] at hm
    exact hm

theorem recoverStaleSending_gives (hk : Keyed u.store)
    (h : (recoverStaleSending before).Gives u x u') (id : EventId) : MovedAt id u.store u'.store := by
  simp only [recoverStaleSending, gives_bind, gives_read] at h
  obtain ⟨_, _, ⟨rfl, rfl⟩, h⟩ := h
  have hperm := List.perm_insertionSort (fun a b => inEventOrder a b = true)
    (u.store.events.rows.filter fun r => r.state = .sending)
  have hrows : ∀ r ∈ (u.store.events.rows.filter fun r => r.state = .sending).insertionSort
      (fun a b => inEventOrder a b = true), u.store.events.get r.id = some r := fun r hr =>
    Table.get_eq_some.mpr ⟨(List.mem_filter.mp (hperm.mem_iff.mp hr)).1, rfl⟩
  have hnodup : ((u.store.events.rows.filter fun r => r.state = .sending).insertionSort
      (fun a b => inEventOrder a b = true)).Pairwise fun r r' => r.id ≠ r'.id := by
    have hn := (hperm.map EventRow.id).nodup_iff.mpr (u.store.events.unique.sublist (List.filter_sublist.map _))
    exact List.pairwise_map.mp hn
  refine (recoverEvents_gives ?_ ?_ h).2 id
  · refine List.pairwise_filterMap.mpr (hnodup.imp_of_mem fun {r r'} hr hr' hne => ?_)
    rintro _ hb _ hb'
    obtain ⟨a, -, rfl⟩ := Option.map_eq_some_iff.mp hb
    obtain ⟨a', -, rfl⟩ := Option.map_eq_some_iff.mp hb'
    rwa [hk _ r (hrows r hr), hk _ r' (hrows r' hr')]
  intro p hp
  obtain ⟨r, hr, hb⟩ := List.mem_filterMap.mp hp
  obtain ⟨a, ha, rfl⟩ := Option.map_eq_some_iff.mp hb
  refine ⟨(Option.filter_eq_some_iff.mp ha).1, r, ?_, rfl⟩
  rw [hk _ r (hrows r hr)]
  exact hrows r hr

end GameLink.Delivery

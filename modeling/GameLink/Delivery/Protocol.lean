import GameLink.Delivery.Effects
import GameLink.Foundation.Runs
import Mathlib.Data.List.Infix

namespace GameLink.Delivery

open Foundation Work Contracts Store

section

variable [Hashing]

def entryReading : LedgerReading AttemptRow where
  number a := a.attemptNumber
  inFlight a := a.attempt.state = .sending
  failed a := a.attempt.state = .failed

structure Agrees (row : EventRow) (l : List AttemptRow) : Prop where
  state : row.state = row.event.state
  retryAt : row.retryAt = row.event.retryAt
  columns : ∀ a ∈ l, a.attemptNumber = a.attempt.attemptNumber ∧ a.state = a.attempt.state
  count : l.length = row.attemptNumber
  last : l.getLast?.map (fun a => a.attempt) = row.event.attempt
  fresh : row.event.attempt = none ↔ row.event.state = .pending
  numbered : entryReading.Numbered l
  settled : entryReading.Settled l

variable {attempt : DeliveryAttempt}

theorem latest_state (event : DeliveryEvent) (h : event.attempt = some attempt) :
    attempt.state = event.state := by
  have hv := event.valid
  simp only [EventFields.problem, check_eq_none] at hv
  obtain ⟨-, -, -, -, -, -, -, -, -, -, hstate, -⟩ := hv
  simpa [h] using hstate

variable {l : List AttemptRow}

theorem Agrees.lastEntry {row : EventRow} (h : Agrees row l) {old : DeliveryAttempt}
    (ho : row.event.attempt = some old) :
    ∃ prior entry, l = prior ++ [entry] ∧ entry.attempt = old ∧ entry.attemptNumber = row.attemptNumber ∧
      ∀ a ∈ prior, a.attemptNumber ≠ row.attemptNumber := by
  have hlast := h.last
  rw [ho] at hlast
  obtain ⟨entry, hentry, hatt⟩ := Option.map_eq_some_iff.mp hlast
  have hl : l.dropLast ++ [entry] = l := List.dropLast_append_getLast? entry hentry
  have hlen : l.dropLast.length + 1 = row.attemptNumber := by
    rw [← h.count, ← hl]
    simp
  have hnum := h.numbered
  rw [← hl] at hnum
  refine ⟨l.dropLast, entry, hl.symm, hatt, ?_, fun a ha => ?_⟩
  · have hn := hnum l.dropLast.length (by simp)
    rw [List.getElem_concat_length] at hn
    · rw [← hlen]
      exact hn
    · rfl
  obtain ⟨i, hi, rfl⟩ := List.getElem_of_mem ha
  have hi' : i < l.dropLast.length := hi
  have hn := hnum i (by rw [List.length_append]; omega)
  rw [List.getElem_append_left hi] at hn
  change (l.dropLast[i]).attemptNumber = i + 1 at hn
  rw [hn]
  omega

theorem Agrees.settleLast {row : EventRow} (h : Agrees row l) {old attempt : DeliveryAttempt}
    {p : AttemptRow → Bool} (ho : row.event.attempt = some old) (hn : attempt.attemptNumber = row.attemptNumber)
    (hp : ∀ a, p a = true → a.attemptNumber = attempt.attemptNumber) (hone : ∃ a ∈ l, p a = true) :
    ∃ prior entry, l = prior ++ [entry] ∧ entry.attempt = old ∧ entry.attemptNumber = attempt.attemptNumber ∧
      (l.map fun a => if p a then { a with state := attempt.state, attempt := attempt } else a) =
        prior ++ [{ entry with state := attempt.state, attempt := attempt }] := by
  obtain ⟨prior, entry, rfl, hatt, hnum, hprior⟩ := h.lastEntry ho
  have hout : ∀ a ∈ prior, p a = false := fun a hmem => by
    by_contra hpa
    exact hprior a hmem ((hp a (by simpa using hpa)).trans hn)
  have hmap : (prior.map fun a => if p a then { a with state := attempt.state, attempt := attempt } else a) = prior := by
    refine (List.map_congr_left fun a hmem => ?_).trans (List.map_id' prior)
    rw [hout a hmem]
    rfl
  have hentry : p entry = true := by
    obtain ⟨a, hmem, hpa⟩ := hone
    rcases List.mem_append.mp hmem with hmem | hmem
    · rw [hout a hmem] at hpa
      cases hpa
    · rwa [List.mem_singleton.mp hmem] at hpa
  exact ⟨prior, entry, rfl, hatt, hnum.trans hn.symm, by rw [List.map_append, hmap, List.map_singleton, if_pos hentry]⟩

variable {l l' : List AttemptRow} {row row' : EventRow}

theorem EventMove.ledger_move (h : EventMove row l row' l') (ha : Agrees row l) : entryReading.Move l l' := by
  cases h with
  | begun attempt retryAt updated hs hn hne hu =>
    refine .begin _ (hn.trans (by rw [ha.count])) fun b hb => ?_
    have hlast := ha.last
    rw [Option.mem_def.mp hb, Option.map_some] at hlast
    have hstate : b.attempt.state = row.state := by
      rw [ha.state]
      exact latest_state row.event hlast.symm
    rcases hs with hs | hs
    · have hnone := ha.fresh.mpr (ha.state ▸ hs)
      rw [hnone] at hlast
      cases hlast
    · exact hstate.trans hs
  | settled old attempt retryAt updated p hs ho hn hne hu hp hone =>
    obtain ⟨prior, entry, hl, hatt, -, hmap⟩ := ha.settleLast ho hn hp hone
    rw [hmap]
    refine .settle prior entry _ hl ?_ rfl
    change entry.attempt.state = .sending
    rw [hatt, latest_state row.event ho, ← ha.state, hs]

theorem attempted_fields {event updated : DeliveryEvent} {retryAt : Option Instant}
    (hu : updated.toEventFields = attemptedFields event attempt retryAt) (hne : attempt.state ≠ .pending) :
    updated.state = attempt.state ∧ updated.retryAt = retryAt ∧ updated.attempt = some attempt ∧
      (updated.attempt = none ↔ updated.state = .pending) := by
  rw [hu]
  exact ⟨rfl, rfl, rfl, iff_of_false (Option.some_ne_none _) hne⟩

theorem EventMove.agrees (h : EventMove row l row' l') (ha : Agrees row l) : Agrees row' l' := by
  have hmove := h.ledger_move ha
  have hnumbered := hmove.numbered ha.numbered
  have hsettled := hmove.settled ha.settled
  cases h with
  | begun attempt retryAt updated hs hn hne hu =>
    obtain ⟨hstate, hretry, hlatest, hfresh⟩ := attempted_fields hu hne
    refine ⟨hstate.symm, hretry.symm, fun a hmem => ?_, ?_, ?_, ?_, hnumbered, hsettled⟩
    · rcases List.mem_append.mp hmem with hmem | hmem
      · exact ha.columns a hmem
      · rw [List.mem_singleton.mp hmem]
        exact ⟨rfl, rfl⟩
    · rw [List.length_append, List.length_singleton, ha.count]
      exact hn.symm
    · rw [List.getLast?_concat]
      exact hlatest.symm
    · exact hfresh
  | settled old attempt retryAt updated p hs ho hn hne hu hp hone =>
    obtain ⟨hstate, hretry, hlatest, hfresh⟩ := attempted_fields hu hne
    obtain ⟨prior, entry, rfl, -, hnum, hmap⟩ := ha.settleLast ho hn hp hone
    refine ⟨hstate.symm, hretry.symm, fun a hmem => ?_, ?_, ?_, ?_, hnumbered, hsettled⟩
    · rw [hmap] at hmem
      rcases List.mem_append.mp hmem with hmem | hmem
      · exact ha.columns a (List.mem_append_left _ hmem)
      · rw [List.mem_singleton.mp hmem]
        exact ⟨hnum, rfl⟩
    · rw [List.length_map, ha.count]
      exact hn.symm
    · rw [hmap, List.getLast?_concat]
      exact hlatest.symm
    · exact hfresh

theorem EventMove.public (h : EventMove row l row' l') :
    row'.event.publicContribution = row.event.publicContribution ∧ row'.event.id = row.event.id := by
  cases h with
  | begun attempt retryAt updated hs hn hne hu =>
    change updated.publicContribution = _ ∧ updated.id = _
    rw [hu]
    exact ⟨rfl, rfl⟩
  | settled old attempt retryAt updated p hs ho hn hne hu hp hone =>
    change updated.publicContribution = _ ∧ updated.id = _
    rw [hu]
    exact ⟨rfl, rfl⟩

inductive DeliveryAction where
  | recordAttempt (id : EventId) (attempt : DeliveryAttempt) (expectedState : DeliveryState) (retryAt : Option Instant)
  | claimSending (id : EventId) (expectedState : DeliveryState) (attemptNumber : ℕ) (startedAt now : Instant)
  | markSendingUnknown (id : EventId) (attemptNumber : ℕ) (startedAt completedAt : Instant)
  | recoverStaleSending (before : Instant)
  | elsewhere (s : Database)

def Fresh (row : EventRow) : Prop :=
  row.state = .pending ∧ row.attemptNumber = 0 ∧ row.retryAt = none ∧ row.event.state = .pending ∧
    row.event.attempt = none ∧ row.event.retryAt = none

structure Elsewhere (s s' : Database) : Prop where
  keyed : Keyed s'
  kept : ∀ id row, s.events.get id = some row → row.event.publicContribution = none →
    s'.events.get id = some row ∧ ledger s' id = ledger s id
  added : ∀ id row, s'.events.get id = some row → row.event.publicContribution = none →
    s.events.get id = some row ∨ (Fresh row ∧ ledger s' id = [])

namespace DeliveryAction

def run (bindings : GateBindings) (s : Database) : DeliveryAction → Database
  | recordAttempt id attempt expectedState retryAt =>
    (transaction (Delivery.recordAttempt id attempt expectedState retryAt) s).2
  | claimSending id expectedState attemptNumber startedAt now =>
    (transaction (Delivery.claimSending bindings id expectedState attemptNumber startedAt now) s).2
  | markSendingUnknown id attemptNumber startedAt completedAt =>
    (transaction (Delivery.markSendingUnknown id attemptNumber startedAt completedAt) s).2
  | recoverStaleSending before => (transaction (Delivery.recoverStaleSending before) s).2
  | elsewhere s' => s'

def Allowed (s : Database) : DeliveryAction → Prop
  | recordAttempt _ _ expectedState _ => expectedState ∈ [.pending, .failed, .sending]
  | elsewhere s' => Elsewhere s s'
  | _ => True

end DeliveryAction

def deliverySystem (bindings : GateBindings) : System Database DeliveryAction where
  start s := s.events = Table.empty ∧ s.attempts = Table.empty
  allowed s a := a.Allowed s
  next s a := a.run bindings s

variable {bindings : GateBindings} {s s' : Database} {id : EventId} {row : EventRow}

structure Sound (s : Database) : Prop where
  keyed : Keyed s
  agrees : ∀ id row, s.events.get id = some row → row.event.publicContribution = none → Agrees row (ledger s id)

theorem Fresh.agrees (h : Fresh row) : Agrees row [] := by
  obtain ⟨hstate, hnumber, hretry, hestate, hattempt, heretry⟩ := h
  refine ⟨hstate.trans hestate.symm, hretry.trans heretry.symm, ?_, hnumber.symm, hattempt.symm,
    iff_of_true hattempt hestate, ?_, ?_⟩
  · exact fun a ha => absurd ha List.not_mem_nil
  · exact fun i hi => absurd hi (Nat.not_lt_zero i)
  · exact fun i hi => absurd hi (Nat.not_lt_zero _)

theorem Sound.moved (hs : Sound s) (h : ∀ id, MovedAt id s s') : Sound s' where
  keyed id row hrow := by
    rcases h id with ⟨hget, -⟩ | ⟨row₀, row₁, hrow₀, hrow₁, hm⟩
    · exact hs.keyed id row (hget ▸ hrow)
    · obtain rfl := Option.some.inj (hrow₁.symm.trans hrow)
      exact hm.public.2.trans (hs.keyed id row₀ hrow₀)
  agrees id row hrow hpub := by
    rcases h id with ⟨hget, hled⟩ | ⟨row₀, row₁, hrow₀, hrow₁, hm⟩
    · rw [hled]
      exact hs.agrees id row (hget ▸ hrow) hpub
    · obtain rfl := Option.some.inj (hrow₁.symm.trans hrow)
      exact hm.agrees (hs.agrees id row₀ hrow₀ (hm.public.1 ▸ hpub))

theorem step_transaction {α : Type} {w : StoreWork α} (hw : ∀ x u, w.Gives ⟨s, []⟩ x u → ∀ id, MovedAt id s u.store) :
    ∀ id, MovedAt id s (transaction w s).2 :=
  transaction_store (P := fun s' : Database => ∀ id, MovedAt id s s') (fun _ => .inl ⟨rfl, rfl⟩) hw

variable {a : DeliveryAction}

theorem run_moves (bindings : GateBindings) (hs : Sound s) (ha : a.Allowed s) :
    (∀ id, MovedAt id s (a.run bindings s)) ∨ Elsewhere s (a.run bindings s) := by
  cases a with
  | recordAttempt id attempt expectedState retryAt =>
    exact .inl (step_transaction fun x u h => (recordAttempt_gives hs.keyed ha h).at)
  | claimSending id expectedState attemptNumber startedAt now =>
    exact .inl (step_transaction fun x u h => (claimSending_gives hs.keyed h).1.at)
  | markSendingUnknown id attemptNumber startedAt completedAt =>
    exact .inl (step_transaction fun x u h => (markSendingUnknown_gives hs.keyed h).at)
  | recoverStaleSending before =>
    exact .inl (step_transaction fun x u h => recoverStaleSending_gives hs.keyed h)
  | elsewhere s' => exact .inr ha

theorem Sound.next (hs : Sound s) (ha : a.Allowed s) : Sound (a.run bindings s) := by
  rcases run_moves bindings hs ha with hm | he
  · exact hs.moved hm
  refine ⟨he.keyed, fun id row hrow hpub => ?_⟩
  rcases he.added id row hrow hpub with hold | ⟨hfresh, hled⟩
  · rw [(he.kept id row hold hpub).2]
    exact hs.agrees id row hold hpub
  · rw [hled]
    exact hfresh.agrees

theorem sound_of_reachable (hr : (deliverySystem bindings).Reachable s) : Sound s := by
  refine hr.invariant (fun s h₀ => ?_) fun s a hs ha => hs.next ha
  have hnone : ∀ id, s.events.get id = none := by
    intro id
    rw [h₀.1]
    rfl
  exact ⟨fun id row hrow => (Option.some_ne_none row (hrow.symm.trans (hnone id))).elim,
    fun id row hrow => (Option.some_ne_none row (hrow.symm.trans (hnone id))).elim⟩

theorem event_next (bindings : GateBindings) (hs : Sound s) (ha : a.Allowed s) (hrow : s.events.get id = some row)
    (hpub : row.event.publicContribution = none) :
    ∃ row', (a.run bindings s).events.get id = some row' ∧ row'.event.publicContribution = none ∧
      ((row' = row ∧ ledger (a.run bindings s) id = ledger s id) ∨
        EventMove row (ledger s id) row' (ledger (a.run bindings s) id)) := by
  rcases run_moves bindings hs ha with hm | he
  · rcases hm id with ⟨hget, hled⟩ | ⟨row₀, row₁, hrow₀, hrow₁, hmove⟩
    · exact ⟨row, hget.trans hrow, hpub, .inl ⟨rfl, hled⟩⟩
    · obtain rfl := Option.some.inj (hrow.symm.trans hrow₀)
      exact ⟨row₁, hrow₁, hmove.public.1.trans hpub, .inr hmove⟩
  · obtain ⟨hget, hled⟩ := he.kept id row hrow hpub
    exact ⟨row, hget, hpub, .inl ⟨rfl, hled⟩⟩

theorem EventMove.attemptNumber_le {row' : EventRow} (h : EventMove row l row' l') :
    row.attemptNumber ≤ row'.attemptNumber := by
  cases h with
  | begun attempt retryAt updated hs hn hne hu =>
    change _ ≤ attempt.attemptNumber
    omega
  | settled old attempt retryAt updated p hs ho hn hne hu hp hone =>
    change _ ≤ attempt.attemptNumber
    omega

theorem EventMove.open_state {row' : EventRow} (h : EventMove row l row' l') :
    row.state ∉ [.sent, .unknown, .cancelled] := by
  cases h with
  | begun attempt retryAt updated hs hn hne hu => rcases hs with hs | hs <;> simp [hs]
  | settled old attempt retryAt updated p hs ho hn hne hu hp hone => simp [hs]

theorem event_trace {as : List DeliveryAction} (hs : Sound s) (ht : (deliverySystem bindings).Trace s as s')
    (hrow : s.events.get id = some row) (hpub : row.event.publicContribution = none) :
    ∃ row', s'.events.get id = some row' ∧ row'.event.publicContribution = none ∧
      row.attemptNumber ≤ row'.attemptNumber ∧
      (row.state ∈ [.sent, .unknown, .cancelled] → row' = row ∧ ledger s' id = ledger s id) := by
  induction ht generalizing row with
  | nil s => exact ⟨row, hrow, hpub, le_rfl, fun _ => ⟨rfl, rfl⟩⟩
  | cons ha ht ih =>
    obtain ⟨row₁, hrow₁, hpub₁, hstep⟩ := event_next bindings hs ha hrow hpub
    obtain ⟨row₂, hrow₂, hpub₂, hle, hfinal⟩ := ih (hs.next ha) hrow₁ hpub₁
    rcases hstep with ⟨rfl, hled⟩ | hmove
    · refine ⟨row₂, hrow₂, hpub₂, hle, fun hstate => ?_⟩
      obtain ⟨rfl, hled'⟩ := hfinal hstate
      exact ⟨rfl, hled'.trans hled⟩
    · exact ⟨row₂, hrow₂, hpub₂, hmove.attemptNumber_le.trans hle, fun hstate => absurd hstate hmove.open_state⟩

theorem attempts_append_only {as : List DeliveryAction} (hr : (deliverySystem bindings).Reachable s)
    (ht : (deliverySystem bindings).Trace s as s') (hrow : s.events.get id = some row)
    (hpub : row.event.publicContribution = none) : (ledger s id).length ≤ (ledger s' id).length ∧
      ∀ i, i + 1 < (ledger s id).length → (ledger s' id)[i]? = (ledger s id)[i]? := by
  have hs := sound_of_reachable hr
  clear hr
  have hmoves : entryReading.Moves (ledger s id) (ledger s' id) := by
    induction ht generalizing row with
    | nil s => exact .refl
    | cons ha _ ih =>
      obtain ⟨row₁, hrow₁, hpub₁, ⟨-, hled⟩ | hmove⟩ := event_next bindings hs ha hrow hpub
      · rw [← hled]
        exact ih hrow₁ hpub₁ (hs.next ha)
      · exact .head (hmove.ledger_move (hs.agrees _ row hrow hpub)) (ih hrow₁ hpub₁ (hs.next ha))
  exact ⟨hmoves.length_le, fun _ => hmoves.earlier⟩

def DeliveryAction.obtains (bindings : GateBindings) (s : Database) : DeliveryAction → Option (EventId × ℕ)
  | claimSending id expectedState attemptNumber startedAt now =>
    match (transaction (Delivery.claimSending bindings id expectedState attemptNumber startedAt now) s).1 with
    | .ok (some event) => event.attempt.map fun attempt => (event.id, attempt.attemptNumber)
    | _ => none
  | _ => none

theorem obtains_eq_some (hk : Keyed s) {n : ℕ} (h : a.obtains bindings s = some (id, n)) :
    ∃ expectedState startedAt now row row', a = .claimSending id expectedState n startedAt now ∧
      s.events.get id = some row ∧ claimable bindings s id row expectedState n now = true ∧
      (a.run bindings s).events.get id = some row' ∧ row'.attemptNumber = n ∧
      row'.event.publicContribution = row.event.publicContribution := by
  cases a with
  | claimSending id₀ expectedState attemptNumber startedAt now =>
    simp only [DeliveryAction.obtains] at h
    split at h
    · rename_i event hres
      obtain ⟨attempt, hatt, heq⟩ := Option.map_eq_some_iff.mp h
      obtain ⟨gs, hg, -⟩ := transaction_ok.mp (Prod.ext hres rfl)
      obtain ⟨row, attempt', hrow, hcl, hnum, hu, hrep⟩ := (claimSending_gives hk hg).2 event rfl
      obtain ⟨hid, rfl⟩ := Prod.mk.inj heq
      have hkey : event.id = id₀ := by
        rw [← hk id₀ row hrow, hu]
        rfl
      rw [hkey] at hid
      subst hid
      have hsame : event.attempt = some attempt' := by
        rw [hu]
        rfl
      obtain rfl := Option.some.inj (hatt.symm.trans hsame)
      subst hnum
      refine ⟨expectedState, startedAt, now, row, attemptedRow row event attempt none, rfl, hrow, hcl, ?_, rfl, ?_⟩
      · exact (hrep.events id₀).trans (if_pos rfl)
      change event.publicContribution = _
      rw [hu]
      rfl
    · cases h
  | recordAttempt id attempt expectedState retryAt => cases h
  | markSendingUnknown id attemptNumber startedAt completedAt => cases h
  | recoverStaleSending before => cases h
  | elsewhere s' => cases h

theorem Agrees.numbers (h : Agrees row l) : l.map (fun a => a.attemptNumber) = List.range' 1 row.attemptNumber := by
  refine List.ext_getElem (by rw [List.length_map, List.length_range', h.count]) fun i hi hi' => ?_
  rw [List.getElem_map, List.getElem_range']
  have hlt : i < l.length := by rwa [List.length_map] at hi
  have hn : l[i].attemptNumber = i + 1 := h.numbered i hlt
  rw [hn]
  omega

theorem Agrees.all_failed (h : Agrees row l) (hs : row.event.state = .failed) {n : ℕ}
    (hn : 0 < n) (hle : n ≤ row.attemptNumber) : ∃ entry ∈ l, entry.attemptNumber = n ∧ entry.state = .failed := by
  have hi : n - 1 < l.length := by rw [h.count]; omega
  have hmem := List.getElem_mem hi
  have hnum : (l[n - 1]).attemptNumber = n - 1 + 1 := h.numbered (n - 1) hi
  refine ⟨l[n - 1], hmem, by omega, ?_⟩
  rw [(h.columns _ hmem).2]
  by_cases hlast : n - 1 + 1 < l.length
  · exact h.settled (n - 1) hlast
  have hget : l.getLast? = some l[n - 1] := by
    rw [List.getLast?_eq_getElem?, List.getElem?_eq_getElem (by omega)]
    congr 2
    omega
  have hatt := h.last
  rw [hget] at hatt
  rw [latest_state row.event hatt.symm, hs]

/-- Row and ledger agree, a final state is kept, and a new attempt follows only a FAILED one with a due retry. -/
theorem instant_delivery_at_most_once (bindings : GateBindings) {s : Database} {id : EventId} {row : EventRow}
    (hr : (deliverySystem bindings).Reachable s) (hrow : s.events.get id = some row)
    (hpub : row.event.publicContribution = none) :
    (row.state = row.event.state ∧ row.retryAt = row.event.retryAt ∧
      (ledger s id).map (fun a => a.attemptNumber) = List.range' 1 row.attemptNumber ∧
      (∀ a ∈ ledger s id, a.attemptNumber = a.attempt.attemptNumber ∧ a.state = a.attempt.state) ∧
      (ledger s id).getLast?.map (fun a => a.attempt) = row.event.attempt) ∧
    (row.state ∈ [.sent, .unknown, .cancelled] → ∀ as s', (deliverySystem bindings).Trace s as s' →
      s'.events.get id = some row ∧ ledger s' id = ledger s id) ∧
    ∀ a n as s' expectedState m m' startedAt now, (deliverySystem bindings).allowed s a →
      a.obtains bindings s = some (id, n) → (deliverySystem bindings).Trace ((deliverySystem bindings).next s a) as s' →
      DeliveryAction.obtains bindings s' (.claimSending id expectedState m' startedAt now) = some (id, m) →
      n < m ∧ ∃ row', s'.events.get id = some row' ∧
        (∃ entry ∈ ledger s' id, entry.attemptNumber = n ∧ entry.state = .failed) ∧
        row'.state = .failed ∧ (∃ latest, row'.event.attempt = some latest ∧ latest.state = .failed) ∧
        due row'.retryAt now = true ∧ due row'.event.retryAt now = true := by
  have hs := sound_of_reachable hr
  have hagrees := hs.agrees id row hrow hpub
  refine ⟨⟨hagrees.state, hagrees.retryAt, hagrees.numbers, hagrees.columns, hagrees.last⟩, fun hstate as s' ht => ?_, ?_⟩
  · obtain ⟨row', hrow', -, -, hfinal⟩ := event_trace hs ht hrow hpub
    obtain ⟨rfl, hled⟩ := hfinal hstate
    exact ⟨hrow', hled⟩
  intro a n as s' expectedState m m' startedAt now ha hobt ht hobt'
  obtain ⟨_, _, _, row₀, row₁, -, hrow₀, hcl₀, hrow₁, hnum₁, hpub₁⟩ := obtains_eq_some hs.keyed hobt
  obtain rfl := Option.some.inj (hrow.symm.trans hrow₀)
  have hpos : n = row.attemptNumber + 1 := by
    simp only [claimable, Bool.and_eq_true, decide_eq_true_eq] at hcl₀
    exact hcl₀.1.2
  have hs₁ : Sound ((deliverySystem bindings).next s a) := hs.next ha
  obtain ⟨row₂, hrow₂, hpub₂, hle, -⟩ := event_trace hs₁ ht hrow₁ (hpub₁.trans hpub)
  have hs₂ := ht.invariant (P := Sound) (fun s a hs ha => hs.next ha) hs₁
  obtain ⟨_, _, _, row₃, -, heq, hrow₃, hcl, -, -, -⟩ := obtains_eq_some hs₂.keyed hobt'
  obtain rfl := Option.some.inj (hrow₂.symm.trans hrow₃)
  cases heq
  have hagrees₂ := hs₂.agrees id row₂ hrow₂ hpub₂
  simp only [claimable, Bool.and_eq_true, Bool.or_eq_true, decide_eq_true_eq] at hcl
  obtain ⟨⟨⟨⟨-, hexp⟩, hopen⟩, hnext⟩, hdue⟩ := hcl
  have hsome : row₂.event.attempt ≠ none := by
    intro hnone
    have hlast := hagrees₂.last
    rw [hnone, Option.map_eq_none_iff, List.getLast?_eq_none_iff] at hlast
    have hcount := hagrees₂.count
    rw [hlast] at hcount
    simp only [List.length_nil] at hcount
    omega
  have hfailed : expectedState = .failed := by
    rcases hopen with hp | hf
    · exact absurd (hagrees₂.fresh.mpr (hexp.trans hp)) hsome
    · exact hf
  have hstate : row₂.event.state = .failed := hexp.trans hfailed
  obtain ⟨latest, hlatest⟩ := Option.ne_none_iff_exists'.mp hsome
  rcases hdue with hne | ⟨hdue₁, hdue₂⟩
  · exact absurd hfailed hne
  · exact ⟨by omega, row₂, hrow₂, hagrees₂.all_failed hstate (by omega) (by omega), hagrees₂.state.trans hstate,
      ⟨latest, hlatest, (latest_state _ hlatest).trans hstate⟩, hdue₂, hdue₁⟩

end

section

attribute [local instance] Sample.hashing

def instantStore (events : Table EventRow.id) : Database :=
  { Sample.database with
    subscriptions := ⟨[⟨"s", 1, "o", .active, { Sample.record with notificationMode := "instant" }⟩], by decide⟩
    events := events }

def sampleSend : DeliveryAction := .claimSending Sample.event.id .pending 1 5 5

def sampleFailures : List DeliveryAction :=
  [.recordAttempt Sample.event.id
    ⟨⟨1, .failed, Sample.event.idempotencyKey, 5, some 6, some "host_send_failed", none⟩, by decide +kernel⟩ .sending none,
   .recordAttempt Sample.event.id
    ⟨⟨2, .failed, Sample.event.idempotencyKey, 7, some 7, some "display_render_failed", none⟩, by decide +kernel⟩ .failed
      (some 8)]

def sampleSent : Database := (deliverySystem Sample.bindings).next (instantStore Sample.database.events) sampleSend

def sampleFailed : Database := sampleFailures.foldl (deliverySystem Sample.bindings).next sampleSent

theorem sample_claims :
    sampleSend.obtains Sample.bindings (instantStore Sample.database.events) = some (Sample.event.id, 1) ∧
      DeliveryAction.obtains Sample.bindings sampleFailed (.claimSending Sample.event.id .failed 3 9 9) =
        some (Sample.event.id, 3) ∧ sampleFailures.inits.all (fun pre =>
        (pre.foldl (deliverySystem Sample.bindings).next sampleSent).events.get Sample.event.id |>.all fun row =>
          !(row.attemptNumber = 1 && row.state = .failed && due row.retryAt 9)) = true := by
  decide +kernel

theorem sample_reachable : (deliverySystem Sample.bindings).Reachable (instantStore Sample.database.events) := by
  have hstart : (deliverySystem Sample.bindings).Reachable (instantStore .empty) := .of_start ⟨rfl, rfl⟩
  refine hstart.next (.elsewhere (instantStore Sample.database.events)) ⟨?_, ?_, ?_⟩
  · intro id row hrow
    obtain ⟨hmem, rfl⟩ := Table.get_eq_some.mp hrow
    rw [List.mem_singleton.mp hmem]
  · intro id row hrow
    cases hrow
  intro id row hrow hpub
  obtain ⟨hmem, rfl⟩ := Table.get_eq_some.mp hrow
  rw [List.mem_singleton.mp hmem]
  exact .inr ⟨⟨rfl, rfl, rfl, rfl, rfl, rfl⟩, rfl⟩

def sampleRow : EventRow :=
  ⟨Sample.event.id, "o", Sample.event.idempotencyKey, .pending, 0, none, Sample.event, some 1, some 1⟩

theorem sample_row : (instantStore Sample.database.events).events.get Sample.event.id = some sampleRow := rfl

theorem sample_trace : (deliverySystem Sample.bindings).Trace sampleSent sampleFailures sampleFailed :=
  .cons (show DeliveryState.sending ∈ _ by decide) (.cons (show DeliveryState.failed ∈ _ by decide) (.nil _))

theorem attempts_append_only_retried : (ledger (instantStore Sample.database.events) Sample.event.id).length ≤
    (ledger sampleFailed Sample.event.id).length :=
  (attempts_append_only sample_reachable (.cons (a := sampleSend) trivial sample_trace) sample_row rfl).1

/-- The third claim succeeds although the first attempt was never FAILED with a retry time. -/
theorem claim_without_rescheduling :
    ¬ ∀ (s : Database) (id : EventId) (row : EventRow), (deliverySystem Sample.bindings).Reachable s →
      s.events.get id = some row → row.event.publicContribution = none →
      ∀ a n as s' expectedState m m' startedAt now, (deliverySystem Sample.bindings).allowed s a →
        a.obtains Sample.bindings s = some (id, n) →
        (deliverySystem Sample.bindings).Trace ((deliverySystem Sample.bindings).next s a) as s' →
        DeliveryAction.obtains Sample.bindings s' (.claimSending id expectedState m' startedAt now) = some (id, m) →
        ∃ pre post s₁ row₁, as = pre ++ post ∧
          (deliverySystem Sample.bindings).Trace ((deliverySystem Sample.bindings).next s a) pre s₁ ∧
          s₁.events.get id = some row₁ ∧ row₁.attemptNumber = n ∧ row₁.state = .failed ∧ due row₁.retryAt now = true := by
  intro h
  obtain ⟨hsend, hclaim, hnever⟩ := sample_claims
  obtain ⟨pre, post, s₁, row₁, has, ht, hrow₁, hn, hfailed, hdue⟩ := h _ _ _ sample_reachable sample_row rfl sampleSend 1
    sampleFailures sampleFailed .failed 3 3 9 9 trivial hsend sample_trace hclaim
  have hall := List.all_eq_true.mp hnever pre ((List.mem_inits _ _).mpr ⟨post, has.symm⟩)
  obtain rfl := ht.eq_foldl
  rw [show sampleSent = (deliverySystem Sample.bindings).next (instantStore Sample.database.events) sampleSend from rfl,
    hrow₁, Option.all_some, hn, hfailed, hdue] at hall
  cases hall

theorem instant_delivery_at_most_once_retried :
    ∃ row, sampleFailed.events.get Sample.event.id = some row ∧ row.state = .failed ∧
      ∃ entry ∈ ledger sampleFailed Sample.event.id, entry.attemptNumber = 1 ∧ entry.state = .failed := by
  obtain ⟨hsend, hclaim, -⟩ := sample_claims
  obtain ⟨-, -, hclaims⟩ := instant_delivery_at_most_once Sample.bindings sample_reachable sample_row rfl
  obtain ⟨-, row, hrow, hentry, hstate, -⟩ := hclaims sampleSend 1 sampleFailures sampleFailed .failed 3 3 9 9 trivial hsend
    sample_trace hclaim
  exact ⟨row, hrow, hstate, hentry⟩

end

end GameLink.Delivery

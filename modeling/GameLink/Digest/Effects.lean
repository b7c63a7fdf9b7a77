import GameLink.Digest.Repository
import GameLink.Foundation.AttemptLedger
import GameLink.Foundation.Custody

namespace GameLink.Digest

open Foundation Work Contracts Store

theorem eq_dropLast_append {l : List DeliveryAttempt} {a : DeliveryAttempt} (h : l.getLast? = some a) :
    l = l.dropLast ++ [a] := (List.dropLast_append_getLast? a h).symm

theorem settles_number {attempt prior : DeliveryAttempt} (h : ¬ settles attempt prior = false) :
    attempt.attemptNumber = prior.attemptNumber := by
  simp only [settles, Bool.not_eq_false, Bool.and_eq_true, decide_eq_true_eq] at h
  exact h.1.1.1

variable [Hashing] {u u' : UnitOfWork Database Failure}

def Agreeing (s : Database) : Prop := ∀ id row, s.envelopes.get id = some row → row = envelopeRow row.envelope

/-- The envelope of `row` is rewritten as `e`; no other envelope changes. -/
def Rewritten (row : EnvelopeRow) (e : DigestEnvelope) (s s' : Database) : Prop :=
  s.envelopes.get row.envelopeId = some row ∧
    ∀ id, s'.envelopes.get id = if id = row.envelopeId then some (envelopeRow e) else s.envelopes.get id

variable {e : DigestEnvelope}

theorem saveEnvelope_get {revision : ℕ} {saved : Bool}
    (h : (saveEnvelope e revision).Gives u saved u') (id : String) :
    u'.store.envelopes.get id = (u.store.envelopes.get id).map fun r =>
      if id = e.envelopeId ∧ r.revision = revision then envelopeRow e else r := by
  simp only [saveEnvelope, gives_bind, gives_read, gives_write, gives_pure] at h
  obtain ⟨_, _, ⟨rfl, rfl⟩, _, _, rfl, -, rfl⟩ := h
  dsimp only
  rw [Table.get_update]
  cases hr : u.store.envelopes.get id with
  | none => rfl
  | some r =>
    obtain rfl : r.envelopeId = id := Table.key_of_get hr
    simp only [Option.map_some, Bool.and_eq_true, decide_eq_true_eq, Option.some.injEq]
    by_cases hc : r.envelopeId = e.envelopeId ∧ r.revision = revision
    · rw [if_pos hc, if_pos hc, hc.1]
      rfl
    · rw [if_neg hc, if_neg hc]

variable {id : String} {receipts : List DigestMemberReceipt} {x : Unit}

theorem replaceReceipts_frame
    (h : (replaceReceipts id receipts).Gives u x u') : u'.store.envelopes = u.store.envelopes := by
  induction receipts generalizing u with
  | nil =>
    simp only [replaceReceipts, gives_pure] at h
    rw [h.2]
  | cons receipt rest ih =>
    simp only [replaceReceipts, replaceReceipt, gives_bind, gives_read, gives_raiseIf, gives_write] at h
    obtain ⟨_, v, ⟨_, _, ⟨rfl, rfl⟩, _, _, ⟨-, rfl⟩, rfl⟩, h⟩ := h
    rw [ih h]

theorem projectMembers_frame {attempt : AttemptFields} {columnRetry : Option Instant}
    {recordRetry : DeliveryEvent → Option Instant} {associations : List DigestMemberAssociation}
    (h : (projectMembers attempt columnRetry recordRetry associations).Gives u x u') :
    u'.store.envelopes = u.store.envelopes := by
  induction associations generalizing u with
  | nil =>
    simp only [projectMembers, gives_pure] at h
    rw [h.2]
  | cons association rest ih =>
    simp only [projectMembers, projectMember, updateEvents, replaceAttempt, gives_bind, gives_ofExcept, gives_read,
      gives_raiseIf, gives_write, gives_pure] at h
    obtain ⟨_, v, ⟨_, _, ⟨-, rfl⟩, _, _, ⟨-, rfl⟩, _, _, ⟨_, _, ⟨rfl, rfl⟩, _, _, rfl, -, rfl⟩, _, _, ⟨rfl, rfl⟩,
      _, _, ⟨-, rfl⟩, rfl⟩, h⟩ := h
    rw [ih h]

variable {attempt : DeliveryAttempt}

theorem projectPublicAttempt_frame {envelope : DigestEnvelope}
    (h : (projectPublicAttempt envelope attempt).Gives u x u') : u'.store.envelopes = u.store.envelopes := by
  unfold projectPublicAttempt at h
  rw [gives_ite] at h
  rcases h with ⟨-, h⟩ | ⟨-, h⟩
  · exact projectMembers_frame h
  · rw [(gives_pure.mp h).2]

variable {row : EnvelopeRow}

theorem Rewritten.frame {s s' s'' : Database} (h : Rewritten row e s s')
    (hf : s''.envelopes = s'.envelopes) : Rewritten row e s s'' := by
  refine ⟨h.1, fun id => ?_⟩
  rw [hf]
  exact h.2 id

variable {claim : DigestEnvelopeClaim} {s : Database} {current : DigestEnvelope}

theorem claimCurrent_eq_some {revision : ℕ}
    (ha : Agreeing s) (h : claimCurrent s claim revision = some current) :
    s.envelopes.get claim.envelope.envelopeId = some (envelopeRow current) ∧ current.revision = revision ∧
      current.claimToken = some claim.claimToken ∧ current.envelopeId = claim.envelope.envelopeId := by
  unfold claimCurrent at h
  obtain ⟨h, hc⟩ := Option.filter_eq_some_iff.mp h
  obtain ⟨row, hrow, rfl⟩ := Option.map_eq_some_iff.mp h
  obtain ⟨hr, ht⟩ := Bool.and_eq_true_iff.mp hc
  have hrow' := ha _ _ hrow
  refine ⟨by rw [← hrow']; exact hrow, of_decide_eq_true hr, of_decide_eq_true ht, ?_⟩
  have hkey := Table.key_of_get hrow
  rw [hrow'] at hkey
  exact hkey

inductive EnvelopeMove (e e' : DigestEnvelope) : Prop
  | claimed (token : String) (now expires : Instant) (hs : e.state = .ready)
      (h : e'.toEnvelopeFields = { e.toEnvelopeFields with
        revision := e.revision + 1, state := .claimed, claimToken := some token, claimedAt := some now,
        claimExpiresAt := some expires, retryAt := none })
  | reconciled (effective : List DigestMemberReceipt) (hs : e.state = .claimed)
      (h : e'.toEnvelopeFields = reconciledFields e effective)
  | begun (attempt : DeliveryAttempt) (hs : e.state = .claimed) (ha : attempt.state = .sending)
      (hn : attempt.attemptNumber = e.deliveryAttempts.length + 1)
      (h : e'.toEnvelopeFields = { e.toEnvelopeFields with
        revision := e.revision + 1, state := .sending, deliveryAttempts := e.deliveryAttempts ++ [attempt],
        retryAt := none })
  | finished (prior attempt : DeliveryAttempt) (state : DigestEnvelopeState) (retryAt : Option Instant)
      (hs : e.state = .sending) (hp : e.deliveryAttempts.getLast? = some prior)
      (hn : attempt.attemptNumber = prior.attemptNumber)
      (h : e'.toEnvelopeFields = finishedFields e state attempt retryAt)
  | released (state : DigestEnvelopeState) (hs : e.state = .claimed ∨ e.state = .failed)
      (h : e'.toEnvelopeFields = { e.toEnvelopeFields with
        revision := e.revision + 1, state := state, claimToken := none, claimedAt := none, claimExpiresAt := none,
        retryAt := none })

def attemptReading : LedgerReading DeliveryAttempt where
  number a := a.attemptNumber
  inFlight a := a.state = .sending
  failed a := a.state = .failed

namespace EnvelopeMove

variable {e e' : DigestEnvelope}

section

variable (h : EnvelopeMove e e')
include h

theorem revision : e'.revision = e.revision + 1 := by
  cases h with
  | claimed token now expires hs h => rw [h]
  | reconciled effective hs h => rw [h]; rfl
  | begun attempt hs ha hn h => rw [h]
  | finished prior attempt state retryAt hs hp hn h => rw [h]; rfl
  | released state hs h => rw [h]

theorem envelopeId : e'.envelopeId = e.envelopeId := by
  cases h with
  | claimed token now expires hs h => rw [h]
  | reconciled effective hs h => rw [h]; rfl
  | begun attempt hs ha hn h => rw [h]
  | finished prior attempt state retryAt hs hp hn h => rw [h]; rfl
  | released state hs h => rw [h]

theorem open_state : e.state ∉ [.sent, .unknown, .cancelled] := by
  cases h with
  | claimed token now expires hs h => simp [hs]
  | reconciled effective hs h => simp [hs]
  | begun attempt hs ha hn h => simp [hs]
  | finished prior attempt state retryAt hs hp hn h => simp [hs]
  | released state hs h => rcases hs with hs | hs <;> simp [hs]

theorem ledger : attemptReading.Move e.deliveryAttempts e'.deliveryAttempts := by
  cases h with
  | claimed token now expires hs h => rw [h]; exact .keep
  | reconciled effective hs h => rw [h]; exact .keep
  | released state hs h => rw [h]; exact .keep
  | begun attempt hs ha hn h =>
    rw [h]
    refine .begin attempt hn fun b hb => ?_
    have hlatest := e.latest_of_claimable (.inr hs)
    rw [EnvelopeFields.latestState, Option.mem_def.mp hb] at hlatest
    change b.state = .failed
    simpa using hlatest
  | finished prior attempt state retryAt hs hp hn h =>
    have hlatest := e.latest_of_attemptState (by rw [hs]; rfl)
    rw [EnvelopeFields.latestState, hp, Option.map_some, Option.some.injEq] at hlatest
    rw [h]
    exact .settle e.deliveryAttempts.dropLast prior attempt (eq_dropLast_append hp) hlatest hn

end

end EnvelopeMove

variable {current e' : DigestEnvelope}

theorem saveEnvelope_rewrites {saved : Bool} (hid : e'.envelopeId = current.envelopeId)
    (hrow : u.store.envelopes.get id = some (envelopeRow current))
    (h : (saveEnvelope e' current.revision).Gives u saved u') : Rewritten (envelopeRow current) e' u.store u'.store := by
  have hkey : (envelopeRow current).envelopeId = id := Table.key_of_get hrow
  obtain rfl : current.envelopeId = id := hkey
  refine ⟨hrow, fun id => ?_⟩
  rw [saveEnvelope_get h]
  by_cases heq : id = current.envelopeId
  · subst heq
    rw [hrow]
    simp [envelopeRow, hid]
  · have hne : id ≠ e'.envelopeId := by rwa [hid]
    simp [envelopeRow, heq, hne]

theorem EnvelopeMove.saved (hm : EnvelopeMove current e') {revision : ℕ}
    {saved : Bool} (hrow : u.store.envelopes.get id = some (envelopeRow current)) (hrev : current.revision = revision)
    (h : (saveEnvelope e' revision).Gives u saved u') : Rewritten (envelopeRow current) e' u.store u'.store := by
  subst hrev
  exact saveEnvelope_rewrites hm.envelopeId hrow h

def UnderClaim (claim : DigestEnvelopeClaim) (revision : ℕ) (s s' : Database) : Prop :=
  s'.envelopes = s.envelopes ∨ ∃ current e', s.envelopes.get claim.envelope.envelopeId = some (envelopeRow current) ∧
    current.revision = revision ∧ current.claimToken = some claim.claimToken ∧ EnvelopeMove current e' ∧
      (∀ t, e'.claimToken = some t → current.claimToken = some t) ∧ Rewritten (envelopeRow current) e' s s'

variable {bindings : GateBindings}

theorem reconcile_gives {revision : ℕ} {x : DigestEnvelope} (ha : Agreeing u.store)
    (h : (reconcileEnvelopeMembers bindings claim receipts revision).Gives u x u') :
    UnderClaim claim revision u.store u'.store := by
  simp only [reconcileEnvelopeMembers, gives_bind, gives_read, gives_orRaise, gives_raiseIf, gives_ofExcept,
    gives_pure] at h
  obtain ⟨_, _, ⟨rfl, rfl⟩, current, _, ⟨hc, rfl⟩, _, _, ⟨hs, rfl⟩, _, _, ⟨-, rfl⟩, _, w, hw, updated, _, ⟨hb, rfl⟩,
    saved, w', hsave, _, _, ⟨-, rfl⟩, -, rfl⟩ := h
  obtain ⟨hrow, hrev, htoken, -⟩ := claimCurrent_eq_some ha hc
  rw [DigestEnvelope.build_eq_ok] at hb
  have hframe := replaceReceipts_frame hw
  have hmove : EnvelopeMove current updated := .reconciled _ (Decidable.not_not.mp hs) hb
  have hsaved := hmove.saved (by rw [hframe]; exact hrow) hrev hsave
  refine .inr ⟨current, updated, hrow, hrev, htoken, hmove, ?_, ?_⟩
  · intro t ht
    rw [hb] at ht
    simp only [reconciledFields] at ht
    split at ht
    · cases ht
    · exact ht
  · exact ⟨by rw [← hframe]; exact hsaved.1, fun id => by rw [hsaved.2 id, hframe]⟩

variable {x : Option DigestEnvelope}

theorem begin_gives {revision attemptNumber : ℕ} {startedAt : Instant} (ha : Agreeing u.store)
    (h : (beginEnvelopeSend bindings claim revision attemptNumber startedAt).Gives u x u') :
    UnderClaim claim revision u.store u'.store := by
  simp only [beginEnvelopeSend, gives_bind, gives_read] at h
  obtain ⟨_, _, ⟨rfl, rfl⟩, h⟩ := h
  split at h
  · rw [(gives_pure.mp h).2]
    exact .inl rfl
  rename_i current hc
  rw [gives_ite] at h
  rcases h with ⟨-, h⟩ | ⟨hs, h⟩
  · rw [(gives_pure.mp h).2]
    exact .inl rfl
  simp only [gives_bind, gives_ofExcept, gives_ite, gives_pure] at h
  obtain ⟨attempt, _, ⟨hb, rfl⟩, ⟨-, -, rfl⟩ | ⟨hn, updated, _, ⟨hu, rfl⟩, saved, w, hsave, hrest⟩⟩ := h
  · exact .inl rfl
  obtain ⟨hrow, hrev, htoken, hid⟩ := claimCurrent_eq_some ha hc
  rw [DigestEnvelope.build_eq_ok] at hu
  rw [DeliveryAttempt.build_eq_ok] at hb
  have hmove : EnvelopeMove current updated := by
    refine .begun attempt (Decidable.not_not.mp (not_or.mp hs).1) (by rw [hb]) ?_ hu
    rw [hb]
    exact Decidable.not_not.mp hn
  have hsaved := hmove.saved hrow hrev hsave
  have htok : ∀ t, updated.claimToken = some t → current.claimToken = some t := by
    intro t ht
    rwa [hu] at ht
  rcases hrest with ⟨-, -, rfl⟩ | ⟨-, _, w', hp, -, rfl⟩
  · exact .inr ⟨current, updated, hrow, hrev, htoken, hmove, htok, hsaved⟩
  · exact .inr ⟨current, updated, hrow, hrev, htoken, hmove, htok, hsaved.frame (projectPublicAttempt_frame hp)⟩

theorem sendingCurrent_eq_some {revision : ℕ} {prior : DeliveryAttempt} (h : sendingCurrent s claim revision = some (current, prior)) :
    claimCurrent s claim revision = some current ∧ current.state = .sending ∧
      current.claimedAt = some claim.claimedAt ∧ current.claimExpiresAt = some claim.expiresAt ∧
      current.deliveryAttempts.getLast? = some prior := by
  unfold sendingCurrent at h
  split at h
  · cases h
  rename_i current' hc
  split at h
  · cases h
  rename_i hs
  obtain ⟨prior', hp, he⟩ := Option.map_eq_some_iff.mp h
  obtain ⟨rfl, rfl⟩ := Prod.mk.inj he
  simp only [ne_eq, not_or, Decidable.not_not] at hs
  exact ⟨hc, hs.1, hs.2.1, hs.2.2, hp⟩

theorem complete_gives {revision : ℕ} {retryAt : Option Instant} (ha : Agreeing u.store)
    (h : (completeEnvelopeSend claim attempt revision retryAt).Gives u x u') :
    UnderClaim claim revision u.store u'.store := by
  simp only [completeEnvelopeSend, gives_bind, gives_read, gives_raiseIf] at h
  obtain ⟨_, _, ⟨-, rfl⟩, _, _, ⟨rfl, rfl⟩, h⟩ := h
  split at h
  · rename_i current prior state hc hstate
    rw [gives_ite] at h
    rcases h with ⟨-, h⟩ | ⟨hset, h⟩
    · rw [(gives_pure.mp h).2]
      exact .inl rfl
    simp only [gives_bind, gives_ofExcept, gives_ite, gives_pure] at h
    obtain ⟨updated, _, ⟨hu, rfl⟩, saved, w, hsave, hrest⟩ := h
    obtain ⟨hcur, hs, -, -, hp⟩ := sendingCurrent_eq_some hc
    obtain ⟨hrow, hrev, htoken, hid⟩ := claimCurrent_eq_some ha hcur
    rw [DigestEnvelope.build_eq_ok] at hu
    have hmove : EnvelopeMove current updated :=
      .finished prior attempt state retryAt hs hp (settles_number hset) hu
    have hsaved := hmove.saved hrow hrev hsave
    have htok : ∀ t, updated.claimToken = some t → current.claimToken = some t := by
      intro t ht
      rw [hu] at ht
      cases ht
    rcases hrest with ⟨-, -, rfl⟩ | ⟨-, ⟨-, _, w', hp, -, rfl⟩ | ⟨-, -, rfl⟩⟩
    · exact .inr ⟨current, updated, hrow, hrev, htoken, hmove, htok, hsaved⟩
    · exact .inr ⟨current, updated, hrow, hrev, htoken, hmove, htok, hsaved.frame (projectMembers_frame hp)⟩
    · exact .inr ⟨current, updated, hrow, hrev, htoken, hmove, htok, hsaved⟩
  · rw [(gives_pure.mp h).2]
    exact .inl rfl

theorem abort_gives {revision : ℕ} (ha : Agreeing u.store) (h : (abortEnvelopeSend claim attempt revision).Gives u x u') :
    UnderClaim claim revision u.store u'.store := by
  unfold abortEnvelopeSend at h
  rw [gives_ite] at h
  rcases h with ⟨-, h⟩ | ⟨-, h⟩
  · rw [(gives_pure.mp h).2]
    exact .inl rfl
  simp only [gives_bind, gives_read] at h
  obtain ⟨_, _, ⟨rfl, rfl⟩, h⟩ := h
  split at h
  · rw [(gives_pure.mp h).2]
    exact .inl rfl
  rename_i current prior hc
  rw [gives_ite] at h
  rcases h with ⟨-, h⟩ | ⟨hset, h⟩
  · rw [(gives_pure.mp h).2]
    exact .inl rfl
  simp only [gives_bind, gives_ofExcept, gives_ite, gives_pure] at h
  obtain ⟨updated, _, ⟨hu, rfl⟩, saved, w, hsave, hrest⟩ := h
  obtain ⟨hcur, hs, -, -, hp⟩ := sendingCurrent_eq_some hc
  obtain ⟨hrow, hrev, htoken, hid⟩ := claimCurrent_eq_some ha hcur
  rw [DigestEnvelope.build_eq_ok] at hu
  have hmove : EnvelopeMove current updated :=
    .finished prior attempt _ none hs hp (settles_number (not_or.mp hset).2) hu
  have hsaved := hmove.saved hrow hrev hsave
  have htok : ∀ t, updated.claimToken = some t → current.claimToken = some t := by
    intro t ht
    rw [hu] at ht
    cases ht
  rcases hrest with ⟨-, -, rfl⟩ | ⟨-, _, w', hp, -, rfl⟩
  · exact .inr ⟨current, updated, hrow, hrev, htoken, hmove, htok, hsaved⟩
  · exact .inr ⟨current, updated, hrow, hrev, htoken, hmove, htok, hsaved.frame (projectPublicAttempt_frame hp)⟩

theorem retry_gives {revision : ℕ} {now : Instant} (ha : Agreeing u.store)
    (h : (retryFailedEnvelope bindings id revision now).Gives u x u') :
    u'.store.envelopes = u.store.envelopes ∨ ∃ current e', u.store.envelopes.get id = some (envelopeRow current) ∧
      current.revision = revision ∧ EnvelopeMove current e' ∧ e'.claimToken = none ∧
        Rewritten (envelopeRow current) e' u.store u'.store := by
  simp only [retryFailedEnvelope, gives_bind, gives_read] at h
  obtain ⟨_, _, ⟨rfl, rfl⟩, h⟩ := h
  split at h
  · rw [(gives_pure.mp h).2]
    exact .inl rfl
  rename_i row hrow
  rw [gives_ite] at h
  rcases h with ⟨-, h⟩ | ⟨hc, h⟩
  · rw [(gives_pure.mp h).2]
    exact .inl rfl
  simp only [gives_bind, gives_ofExcept, gives_pure] at h
  obtain ⟨updated, _, ⟨hu, rfl⟩, saved, w, hsave, -, rfl⟩ := h
  rw [DigestEnvelope.build_eq_ok] at hu
  simp only [not_or, ne_eq, Decidable.not_not] at hc
  have hmove : EnvelopeMove row.envelope updated := .released .ready (.inr hc.2.1) hu
  rw [ha _ _ hrow] at hrow
  refine .inr ⟨row.envelope, updated, hrow, hc.1, hmove, by rw [hu], hmove.saved hrow hc.1 hsave⟩

variable {recoveredAt : Instant}

theorem recovered_move {current updated : DigestEnvelope} {fields : EnvelopeFields}
    (hs : current.state.claiming = true) (hf : recoveredFields current recoveredAt = .ok fields)
    (hu : DigestEnvelope.build fields = .ok updated) :
    EnvelopeMove current updated ∧ updated.claimToken = none := by
  rw [DigestEnvelope.build_eq_ok] at hu
  unfold recoveredFields at hf
  split at hf
  · rename_i hclaimed
    cases hf
    exact ⟨.released _ (.inl hclaimed) hu, by rw [hu]⟩
  rename_i hclaimed
  have hsending : current.state = .sending := by
    simpa [DigestEnvelopeState.claiming, hclaimed] using hs
  split at hf
  · cases hf
  rename_i prior hp
  cases hb : DeliveryAttempt.build { prior.toAttemptFields with
      state := .unknown, completedAt := some recoveredAt, errorCode := none } with
  | error e =>
    rw [hb] at hf
    cases hf
  | ok attempt =>
    rw [hb] at hf
    cases hf
    have hn : attempt.attemptNumber = prior.attemptNumber := by
      rw [DeliveryAttempt.build_eq_ok.mp hb]
    exact ⟨.finished prior attempt .unknown none hsending hp hn hu, by rw [hu]; rfl⟩

variable {x : List DigestEnvelope}

theorem recoverRows_gives {rows : List EnvelopeRow}
    (hn : (rows.map EnvelopeRow.envelopeId).Nodup)
    (hrows : ∀ row ∈ rows, row = envelopeRow row.envelope ∧ row.envelope.state.claiming = true ∧
      u.store.envelopes.get row.envelopeId = some row)
    (h : (recoverRows recoveredAt rows).Gives u x u') :
    (∀ id ∉ rows.map EnvelopeRow.envelopeId, u'.store.envelopes.get id = u.store.envelopes.get id) ∧
      ∀ row ∈ rows, ∃ e', EnvelopeMove row.envelope e' ∧ e'.claimToken = none ∧
        u'.store.envelopes.get row.envelopeId = some (envelopeRow e') := by
  induction rows generalizing u x with
  | nil =>
    rw [(gives_pure.mp h).2]
    exact ⟨fun id _ => rfl, fun row hrow => absurd hrow List.not_mem_nil⟩
  | cons row rest ih =>
    simp only [recoverRows, gives_bind, gives_ofExcept, gives_pure] at h
    obtain ⟨fields, _, ⟨hf, rfl⟩, updated, _, ⟨hu, rfl⟩, saved, w, hsave, changed, w', hrest, -, rfl⟩ := h
    rw [List.map_cons, List.nodup_cons] at hn
    obtain ⟨hrow, hs, hget⟩ := hrows row List.mem_cons_self
    obtain ⟨hmove, htoken⟩ := recovered_move hs hf hu
    have hid : row.envelope.envelopeId = row.envelopeId := by rw [hrow]; rfl
    rw [hrow] at hget
    have hsaved := hmove.saved hget rfl hsave
    have hother : ∀ id, id ≠ row.envelopeId → w.store.envelopes.get id = u.store.envelopes.get id := by
      intro id hne
      rw [hsaved.2, if_neg]
      exact fun he => hne (he.trans hid)
    have hkeep : ∀ r ∈ rest, r = envelopeRow r.envelope ∧ r.envelope.state.claiming = true ∧
        w.store.envelopes.get r.envelopeId = some r := by
      intro r hr
      obtain ⟨hr₁, hr₂, hr₃⟩ := hrows r (List.mem_cons_of_mem _ hr)
      have hne : r.envelopeId ≠ row.envelopeId := fun he => hn.1 (he ▸ List.mem_map_of_mem hr)
      exact ⟨hr₁, hr₂, by rw [hother _ hne, hr₃]⟩
    obtain ⟨hsame, hmoved⟩ := ih hn.2 hkeep hrest
    constructor
    · intro id hout
      rw [List.map_cons, List.mem_cons, not_or] at hout
      rw [hsame id hout.2, hother id hout.1]
    intro r hr
    rcases List.mem_cons.mp hr with rfl | hr
    · refine ⟨updated, hmove, htoken, ?_⟩
      rw [hsame _ hn.1, hsaved.2, if_pos]
      exact hid.symm
    · exact hmoved r hr

theorem expired_rows (ha : Agreeing s) (before : Instant) (restart : Bool) :
    ((byEnvelopeId (s.envelopes.rows.filter (expiredClaim before restart))).map EnvelopeRow.envelopeId).Nodup ∧
      ∀ row ∈ byEnvelopeId (s.envelopes.rows.filter (expiredClaim before restart)),
        row = envelopeRow row.envelope ∧ row.envelope.state.claiming = true ∧
          s.envelopes.get row.envelopeId = some row := by
  have hperm := List.perm_insertionSort (fun a b : EnvelopeRow => a.envelopeId ≤ b.envelopeId)
    (s.envelopes.rows.filter (expiredClaim before restart))
  constructor
  · exact (hperm.map _).nodup_iff.mpr (s.envelopes.unique.sublist (List.filter_sublist.map _))
  intro row hrow
  obtain ⟨hmem, hexp⟩ := List.mem_filter.mp (hperm.mem_iff.mp hrow)
  have hget := Table.get_eq_some.mpr ⟨hmem, rfl⟩
  have hagree := ha _ _ hget
  refine ⟨hagree, ?_, hget⟩
  rw [hagree] at hexp
  exact (Bool.and_eq_true_iff.mp hexp).1

theorem recover_gives {before recoveredAt : Instant} {restart : Bool}
    (ha : Agreeing u.store) (h : (recoverExpiredEnvelopeClaims before recoveredAt restart).Gives u x u') (id : String) :
    u'.store.envelopes.get id = u.store.envelopes.get id ∨ ∃ current e', u.store.envelopes.get id = some (envelopeRow current) ∧
      EnvelopeMove current e' ∧ e'.claimToken = none ∧ u'.store.envelopes.get id = some (envelopeRow e') := by
  simp only [recoverExpiredEnvelopeClaims, gives_bind, gives_raiseIf, gives_read] at h
  obtain ⟨_, _, ⟨-, rfl⟩, _, _, ⟨rfl, rfl⟩, h⟩ := h
  obtain ⟨hn, hrows⟩ := expired_rows ha before restart
  obtain ⟨hsame, hmoved⟩ := recoverRows_gives hn hrows h
  by_cases hid : id ∈ (byEnvelopeId (u.store.envelopes.rows.filter (expiredClaim before restart))).map
      EnvelopeRow.envelopeId
  · obtain ⟨row, hrow, rfl⟩ := List.mem_map.mp hid
    obtain ⟨hagree, -, hget⟩ := hrows row hrow
    obtain ⟨e', hm, ht, hnew⟩ := hmoved row hrow
    exact .inr ⟨row.envelope, e', by rw [← hagree]; exact hget, hm, ht, hnew⟩
  · exact .inl (hsame id hid)

variable {recipient : ConversationRef}

theorem routeEnvelope_gives {windowId : String} {x : Option EnvelopeRow}
    (ha : Agreeing u.store) (h : (routeEnvelope bindings windowId recipient).Gives u x u') :
    (∀ row, x = some row → row = envelopeRow row.envelope ∧ u'.store.envelopes.get row.envelopeId = some row) ∧
      (u'.store.envelopes = u.store.envelopes ∨ ∃ e, x = some (envelopeRow e) ∧
        u.store.envelopes.get e.envelopeId = none ∧ e.deliveryAttempts = [] ∧ e.claimToken = none ∧
          ∀ id, u'.store.envelopes.get id = if id = e.envelopeId then some (envelopeRow e) else u.store.envelopes.get id) := by
  simp only [routeEnvelope, gives_bind, gives_read] at h
  obtain ⟨_, _, ⟨rfl, rfl⟩, h⟩ := h
  split at h
  · rename_i row hfind
    obtain ⟨rfl, rfl⟩ := gives_pure.mp h
    have hget := Table.get_eq_some.mpr ⟨List.mem_of_find?_eq_some hfind, rfl⟩
    refine ⟨?_, .inl rfl⟩
    rintro _ ⟨⟩
    exact ⟨ha _ _ hget, hget⟩
  · rw [gives_ite] at h
    rcases h with ⟨-, h⟩ | ⟨-, h⟩
    · obtain ⟨rfl, rfl⟩ := gives_pure.mp h
      exact ⟨fun row hrow => absurd hrow (Option.some_ne_none _).symm, .inl rfl⟩
    simp only [insertEnvelope, gives_bind, gives_read, gives_ofExcept, gives_raiseIf, gives_orRaise, gives_write,
      gives_pure] at h
    obtain ⟨e, _, ⟨he, rfl⟩, _, _, ⟨_, _, ⟨rfl, rfl⟩, _, _, ⟨-, rfl⟩, _, _, ⟨-, rfl⟩, envelopes, _, ⟨hins, rfl⟩, rfl⟩,
      _, _, ⟨rfl, rfl⟩, rfl, rfl⟩ := h
    rw [DigestEnvelope.build_eq_ok] at he
    have hnew : ∀ id, envelopes.get id =
        if id = e.envelopeId then some (envelopeRow e) else u.store.envelopes.get id := by
      intro id
      rw [Table.get_insert hins]
      simp only [eq_comm, envelopeRow]
    have hself : envelopes.get e.envelopeId = some (envelopeRow e) := by rw [hnew, if_pos rfl]
    refine ⟨?_, .inr ⟨e, hself, Table.get_of_insert hins, by rw [he], by rw [he], hnew⟩⟩
    intro row hrow
    obtain rfl := Option.some.inj (hself.symm.trans hrow)
    exact ⟨rfl, hself⟩

variable {x : Option DigestEnvelopeClaim} {now leaseExpiresAt : Instant}

theorem claimReady_gives {token : String} (hrow : u.store.envelopes.get row.envelopeId = some (envelopeRow row.envelope))
    (h : (claimReady bindings row token now leaseExpiresAt).Gives u x u') :
    u'.store.envelopes = u.store.envelopes ∨ ∃ e', EnvelopeMove row.envelope e' ∧ e'.claimToken = some token ∧
      e'.deliveryAttempts = row.envelope.deliveryAttempts ∧
        Rewritten (envelopeRow row.envelope) e' u.store u'.store := by
  simp only [claimReady, gives_bind, gives_read] at h
  obtain ⟨_, _, ⟨rfl, rfl⟩, h⟩ := h
  rw [gives_ite] at h
  rcases h with ⟨-, h⟩ | ⟨hs, h⟩
  · rw [(gives_pure.mp h).2]
    exact .inl rfl
  simp only [gives_bind, gives_ofExcept, gives_ite, gives_pure] at h
  obtain ⟨claimed, _, ⟨hc, rfl⟩, saved, w, hsave, hrest⟩ := h
  rw [DigestEnvelope.build_eq_ok] at hc
  have hmove : EnvelopeMove row.envelope claimed :=
    .claimed token now leaseExpiresAt (Decidable.not_not.mp (not_or.mp hs).1) hc
  have hsaved := hmove.saved hrow rfl hsave
  have hres : EnvelopeMove row.envelope claimed ∧ claimed.claimToken = some token ∧
      claimed.deliveryAttempts = row.envelope.deliveryAttempts ∧
        Rewritten (envelopeRow row.envelope) claimed u.store w.store :=
    ⟨hmove, by rw [hc], by rw [hc], hsaved⟩
  rcases hrest with ⟨-, -, rfl⟩ | ⟨-, claim, _, ⟨-, rfl⟩, -, rfl⟩
  · exact .inr ⟨claimed, hres⟩
  · exact .inr ⟨claimed, hres⟩

inductive RowStep (token : Option String) : Option EnvelopeRow → Option EnvelopeRow → Prop
  | same (r : Option EnvelopeRow) : RowStep token r r
  | created (e : DigestEnvelope) (hl : e.deliveryAttempts = [])
      (ht : ∀ t, e.claimToken = some t → token = some t) : RowStep token none (some (envelopeRow e))
  | moved (current e' : DigestEnvelope) (hm : EnvelopeMove current e')
      (ht : ∀ t, e'.claimToken = some t → current.claimToken = some t ∨ token = some t) :
      RowStep token (some (envelopeRow current)) (some (envelopeRow e'))

theorem Rewritten.row_step {s s' : Database} {token : Option String}
    (h : Rewritten (envelopeRow current) e' s s') (hm : EnvelopeMove current e')
    (ht : ∀ t, e'.claimToken = some t → current.claimToken = some t ∨ token = some t) (id : String) :
    RowStep token (s.envelopes.get id) (s'.envelopes.get id) := by
  rw [h.2 id]
  by_cases hid : id = (envelopeRow current).envelopeId
  · subst hid
    rw [if_pos rfl, h.1]
    exact .moved current e' hm ht
  · rw [if_neg hid]
    exact .same _

theorem claimDue_gives {windowId token : String} (ha : Agreeing u.store)
    (h : (claimDueEnvelope bindings windowId recipient now leaseExpiresAt token).Gives u x u') (id : String) :
    RowStep (some token) (u.store.envelopes.get id) (u'.store.envelopes.get id) := by
  simp only [claimDueEnvelope, gives_bind, gives_read] at h
  obtain ⟨_, _, ⟨rfl, rfl⟩, h⟩ := h
  split at h
  · rw [(gives_pure.mp h).2]
    exact .same _
  rw [gives_ite] at h
  rcases h with ⟨-, h⟩ | ⟨-, h⟩
  · rw [(gives_pure.mp h).2]
    exact .same _
  rw [gives_bind] at h
  obtain ⟨found, w, hroute, h⟩ := h
  obtain ⟨hfound, hw⟩ := routeEnvelope_gives ha hroute
  split at h
  · obtain ⟨-, rfl⟩ := gives_pure.mp h
    rcases hw with hw | ⟨e, hx, -⟩
    · rw [hw]
      exact .same _
    · cases hx
  rename_i row
  obtain ⟨hagree, hget⟩ := hfound row rfl
  have hclaim := claimReady_gives (hagree ▸ hget) h
  rcases hw with hw | ⟨e, hx, hnone, hl, htoken, hnew⟩
  · rcases hclaim with hsame | ⟨e', hm, ht, -, hrew⟩
    · rw [hsame, hw]
      exact .same _
    rw [← hw]
    refine hrew.row_step hm (fun t h => .inr ?_) id
    rw [← ht, h]
  · obtain rfl := Option.some.inj hx
    rcases hclaim with hsame | ⟨e', hm, ht, hl', hrew⟩
    · rw [hsame, hnew]
      by_cases hid : id = e.envelopeId
      · rw [if_pos hid, hid, hnone]
        exact .created e hl fun t h => by rw [htoken] at h; cases h
      · rw [if_neg hid]
        exact .same _
    · rw [hrew.2 id, hnew]
      by_cases hid : id = e.envelopeId
      · rw [if_pos (show id = (envelopeRow (envelopeRow e).envelope).envelopeId from hid), hid, hnone]
        exact .created e' (hl'.trans hl) fun t h => by rw [← ht, h]
      · rw [if_neg (show id ≠ (envelopeRow (envelopeRow e).envelope).envelopeId from hid), if_neg hid]
        exact .same _

end GameLink.Digest

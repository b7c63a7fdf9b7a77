import GameLink.Contracts.Delivery

namespace GameLink.Contracts

structure DigestMember where
  subscriptionId : String
  subscriptionRevision : ℕ
  eventKey : String
  eventVersion : ℕ
  deriving DecidableEq

def DigestMember.event (m : DigestMember) : EventId :=
  ⟨m.eventKey, m.eventVersion, m.subscriptionId, m.subscriptionRevision⟩

inductive DigestMemberDisposition where
  | included | cancelled | staleRevision | unauthorized | moduleUnavailable
  deriving DecidableEq, Repr

structure DigestMemberReceipt where
  member : DigestMember
  disposition : DigestMemberDisposition
  deriving DecidableEq

inductive DigestEnvelopeState where
  | ready | claimed | sending | sent | failed | unknown | cancelled
  deriving DecidableEq, Repr

namespace DigestEnvelopeState

def claiming (s : DigestEnvelopeState) : Bool := s = .claimed || s = .sending

def attemptState : DigestEnvelopeState → Option DeliveryState
  | sending => some .sending
  | sent => some .sent
  | failed => some .failed
  | unknown => some .unknown
  | ready => none
  | claimed => none
  | cancelled => none

end DigestEnvelopeState

variable [Hashing]

structure AssociationFields where
  windowId : String
  recipient : ConversationRef
  member : DigestMember
  event : DeliveryEvent
  deriving DecidableEq

def AssociationFields.problem (a : AssociationFields) : Option String :=
  if !identifier a.windowId then some "window_id must be a non-empty string"
  else if a.member.event ≠ a.event.id ∨ a.recipient ≠ a.event.recipient then
    some "digest member must exactly match its event and recipient"
  else none

structure DigestMemberAssociation extends AssociationFields where
  valid : toAssociationFields.problem = none
  deriving DecidableEq

def DigestMemberAssociation.build (a : AssociationFields) : Except Failure DigestMemberAssociation :=
  match h : a.problem with
  | none => .ok ⟨a, h⟩
  | some text => .error (.valueError text)

structure EnvelopeFields where
  envelopeId : String
  windowId : String
  recipient : ConversationRef
  members : List DigestMember
  revision : ℕ
  state : DigestEnvelopeState
  memberReceipts : List DigestMemberReceipt
  memberAssociations : List DigestMemberAssociation
  deliveryAttempts : List DeliveryAttempt
  claimToken : Option String
  claimedAt : Option Instant
  claimExpiresAt : Option Instant
  retryAt : Option Instant
  deriving DecidableEq

namespace EnvelopeFields

def latestState (e : EnvelopeFields) : Option DeliveryState := e.deliveryAttempts.getLast?.map fun a => a.state

def sequential (key : String) (attempts : List DeliveryAttempt) : Bool :=
  attempts.zipIdx.all fun p => p.1.attemptNumber = p.2 + 1 && p.1.idempotencyKey = key

def anyClaim (e : EnvelopeFields) : Bool := e.claimToken.isSome || e.claimedAt.isSome || e.claimExpiresAt.isSome

def hasClaim (e : EnvelopeFields) : Bool := e.claimToken.isSome && e.claimedAt.isSome && e.claimExpiresAt.isSome

def orderedLease (e : EnvelopeFields) : Bool :=
  match e.claimedAt, e.claimExpiresAt with
  | some claimed, some expires => claimed < expires
  | _, _ => false

def problem (e : EnvelopeFields) : Option String :=
  if !identifier e.envelopeId then some "envelope_id must be a non-empty string"
  else if !identifier e.windowId then some "window_id must be a non-empty string"
  else if e.revision < 1 then some "envelope revision must be a built-in positive integer"
  else if e.members = [] ∧ e.state ≠ .cancelled then some "ready digest envelopes require members"
  else if ¬ e.members.Nodup then some "digest envelope members must be unique"
  else if e.memberAssociations.any fun a => a.windowId ≠ e.windowId || a.recipient ≠ e.recipient then
    some "envelope associations must match its window and recipient"
  else if ¬ (e.memberAssociations.map fun a => a.member).Nodup then
    some "envelope member associations must be unique"
  else if e.members ≠ e.memberAssociations.map fun a => a.member then
    some "envelope must persist ordered event/documents for every member"
  else if ¬ (e.memberReceipts.map DigestMemberReceipt.member).Nodup then
    some "digest member receipts must be unique"
  else if e.retryAt.isSome ∧ e.state ≠ .failed then some "only FAILED envelopes can have retry_at"
  else if !sequential (digestEnvelopeIdempotencyKey e.windowId e.recipient) e.deliveryAttempts then
    some "digest attempt ledger must be sequential and envelope-scoped"
  else if e.anyClaim ∧ ¬ e.hasClaim then some "digest claim token and UTC lease fields are all required"
  else if e.hasClaim ∧ !(e.claimToken.all identifier) then some "claim_token must be a non-empty string"
  else if e.hasClaim ∧ !e.orderedLease then some "digest claim must have an ordered UTC lease"
  else if e.state.claiming ≠ e.hasClaim then some "only claimed or sending envelopes retain a live claim"
  else if e.state.attemptState ≠ none ∧ e.latestState ≠ e.state.attemptState then
    some "envelope state must match its latest delivery attempt"
  else if (e.state = .ready ∨ e.state = .claimed) ∧ e.latestState ≠ none ∧ e.latestState ≠ some .failed then
    some "only never-sent or known-failed envelopes may be claimed"
  else if e.state = .cancelled ∧ (e.latestState = some .sending ∨ e.latestState = some .unknown) then
    some "uncertain digest sends cannot be cancelled"
  else none

end EnvelopeFields

structure DigestEnvelope extends EnvelopeFields where
  valid : toEnvelopeFields.problem = none
  deriving DecidableEq

def DigestEnvelope.build (e : EnvelopeFields) : Except Failure DigestEnvelope :=
  match h : e.problem with
  | none => .ok ⟨e, h⟩
  | some text => .error (.valueError text)

theorem DigestEnvelope.build_eq_ok {e : EnvelopeFields} {envelope : DigestEnvelope} :
    DigestEnvelope.build e = .ok envelope ↔ envelope.toEnvelopeFields = e := by
  unfold DigestEnvelope.build
  split
  · rename_i h
    simp only [Except.ok.injEq]
    constructor
    · rintro rfl
      rfl
    · rintro rfl
      rfl
  · rename_i text h
    simp only [reduceCtorEq, false_iff]
    rintro rfl
    rw [envelope.valid] at h
    cases h

namespace DigestEnvelope

variable (e : DigestEnvelope)

theorem latest_of_attemptState {state : DeliveryState} (h : e.state.attemptState = some state) :
    e.latestState = some state := by
  have hv := e.valid
  simp only [EnvelopeFields.problem, check_eq_none] at hv
  obtain ⟨-, -, -, -, -, -, -, -, -, -, -, -, -, -, -, hlatest, -⟩ := hv
  by_contra hne
  exact hlatest ⟨by rw [h]; exact Option.some_ne_none _, by rw [h]; exact hne⟩

theorem latest_of_claimable (h : e.state = .ready ∨ e.state = .claimed) :
    e.latestState = none ∨ e.latestState = some .failed := by
  have hv := e.valid
  simp only [EnvelopeFields.problem, check_eq_none] at hv
  obtain ⟨-, -, -, -, -, -, -, -, -, -, -, -, -, -, -, -, hlatest, -⟩ := hv
  by_contra hne
  obtain ⟨hnone, hfailed⟩ := not_or.mp hne
  exact hlatest ⟨h, hnone, hfailed⟩

theorem attempts_sequential :
    EnvelopeFields.sequential (digestEnvelopeIdempotencyKey e.windowId e.recipient) e.deliveryAttempts = true := by
  have hv := e.valid
  simp only [EnvelopeFields.problem, check_eq_none] at hv
  obtain ⟨-, -, -, -, -, -, -, -, -, -, hseq, -⟩ := hv
  simpa using hseq

theorem hasClaim_eq : e.hasClaim = e.state.claiming := by
  have hv := e.valid
  simp only [EnvelopeFields.problem, check_eq_none] at hv
  obtain ⟨-, -, -, -, -, -, -, -, -, -, -, -, -, -, hclaim, -⟩ := hv
  simpa using (Decidable.not_not.mp hclaim).symm

end DigestEnvelope

structure ClaimFields where
  claimToken : String
  envelope : DigestEnvelope
  claimedAt : Instant
  expiresAt : Instant
  deriving DecidableEq

def ClaimFields.problem (c : ClaimFields) : Option String :=
  if !identifier c.claimToken then some "claim_token must be a non-empty string"
  else if !c.envelope.state.claiming then some "claim must reference a claimed or sending envelope"
  else if c.envelope.claimToken ≠ some c.claimToken then
    some "claim token must match the persisted envelope claim"
  else if c.envelope.claimedAt ≠ some c.claimedAt ∨ c.envelope.claimExpiresAt ≠ some c.expiresAt then
    some "claim timestamps must match the persisted UTC lease"
  else if c.expiresAt ≤ c.claimedAt then some "claim expiry must follow claim time"
  else none

structure DigestEnvelopeClaim extends ClaimFields where
  valid : toClaimFields.problem = none
  deriving DecidableEq

def DigestEnvelopeClaim.build (c : ClaimFields) : Except Failure DigestEnvelopeClaim :=
  match h : c.problem with
  | none => .ok ⟨c, h⟩
  | some text => .error (.valueError text)

end GameLink.Contracts

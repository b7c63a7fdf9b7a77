import GameLink.Contracts.Identity

namespace GameLink.Contracts

inductive Failure where
  | valueError (text : String)
  | typeError
  | keyError (text : String)
  | revisionConflict (resource : String) (expected actual : ℕ)
  | uniqueConstraintViolation
  | integrityError
  | staleEvaluationCommit
  | subscriptionOperation (text : String)
  | digestWindowUnavailable
  | candidateRejected (text : String)
  | overflowError
  | permissionError (text : String)
  deriving DecidableEq, Repr

inductive DeliveryState where
  | pending | sending | sent | failed | unknown | cancelled
  deriving DecidableEq, Repr

theorem check_eq_none {c : Prop} [Decidable c] {text : String} {rest : Option String} :
    (if c then some text else rest) = none ↔ ¬ c ∧ rest = none := by
  by_cases hc : c
  · simp [hc]
  · simp [hc]

structure AttemptFields where
  attemptNumber : ℕ
  state : DeliveryState
  idempotencyKey : String
  startedAt : Instant
  completedAt : Option Instant
  errorCode : Option String
  platformMessageId : Option String
  deriving DecidableEq

namespace AttemptFields

def terminal (a : AttemptFields) : Bool :=
  a.state = .sent || a.state = .failed || a.state = .unknown || a.state = .cancelled

def problem (a : AttemptFields) : Option String :=
  if a.attemptNumber < 1 then some "attempt_number must be a built-in positive integer"
  else if !identifier a.idempotencyKey then some "idempotency_key must be a non-empty string"
  else if a.terminal && a.completedAt = none then some "terminal delivery attempts require completed_at"
  else if a.state = .sending && a.completedAt ≠ none then some "sending attempts cannot have completed_at"
  else if a.errorCode.any fun code => !identifier code then some "error_code must be a non-empty string"
  else if a.platformMessageId.any fun id => !identifier id then
    some "platform_message_id must be a non-empty string"
  else if a.state = .unknown && a.errorCode ≠ none then
    some "unknown delivery cannot be represented as a failure"
  else none

end AttemptFields

structure DeliveryAttempt extends AttemptFields where
  valid : toAttemptFields.problem = none
  deriving DecidableEq

def DeliveryAttempt.build (a : AttemptFields) : Except Failure DeliveryAttempt :=
  match h : a.problem with
  | none => .ok ⟨a, h⟩
  | some text => .error (.valueError text)

theorem DeliveryAttempt.build_eq_ok {a : AttemptFields} {attempt : DeliveryAttempt} :
    DeliveryAttempt.build a = .ok attempt ↔ attempt.toAttemptFields = a := by
  unfold DeliveryAttempt.build
  split
  · rename_i h
    simp only [Except.ok.injEq]
    constructor
    · rintro rfl
      rfl
    · rintro rfl
      rfl
  · rename_i text h
    simp only [reduceCtorEq, false_iff]
    rintro rfl
    rw [attempt.valid] at h
    cases h

structure EventFields where
  eventKey : String
  eventVersion : ℕ
  subscriptionId : String
  subscriptionRevision : ℕ
  ownerId : String
  grant : Option GrantReference
  recipient : ConversationRef
  displayData : DisplayDocument
  idempotencyKey : String
  state : DeliveryState
  attempt : Option DeliveryAttempt
  retryAt : Option Instant
  publicContribution : Option PublicEventContribution
  commentary : Option CommentaryRequest
  deriving DecidableEq

structure EventId where
  eventKey : String
  eventVersion : ℕ
  subscriptionId : String
  subscriptionRevision : ℕ
  deriving DecidableEq

variable [Hashing]

namespace EventFields

def id (e : EventFields) : EventId := ⟨e.eventKey, e.eventVersion, e.subscriptionId, e.subscriptionRevision⟩

def problem (e : EventFields) : Option String :=
  if e.publicContribution.isSome && (e.displayData.privacy ≠ .public || e.grant.isSome) then
    some "aggregated events require public ungranted data"
  else if !identifier e.eventKey then some "event_key must be a non-empty string"
  else if !identifier e.subscriptionId then some "subscription_id must be a non-empty string"
  else if !identifier e.ownerId then some "owner_id must be a non-empty string"
  else if !identifier e.idempotencyKey then some "idempotency_key must be a non-empty string"
  else if e.eventVersion < 1 then some "event_version must be a built-in positive integer"
  else if e.subscriptionRevision < 1 then some "subscription_revision must be a built-in positive integer"
  else if e.grant.isSome && (e.recipient.kind ≠ .direct || e.displayData.privacy ≠ .private) then
    some "authorized delivery requires a private direct recipient"
  else if e.idempotencyKey ≠ deliveryIdempotencyKey e.eventKey e.eventVersion e.subscriptionId
      e.subscriptionRevision e.recipient then
    some "delivery idempotency key does not match its scope"
  else if e.attempt.any fun a => a.idempotencyKey ≠ e.idempotencyKey then
    some "attempt idempotency key must match its delivery event"
  else if e.attempt.any fun a => a.state ≠ e.state then some "event state must match its latest attempt state"
  else if e.state = .unknown && e.attempt = none then some "unknown delivery requires its reconciliation attempt"
  else if e.retryAt.isSome && e.state ≠ .failed then some "only known FAILED deliveries can have retry_at"
  else none

end EventFields

structure DeliveryEvent extends EventFields where
  valid : toEventFields.problem = none
  deriving DecidableEq

def DeliveryEvent.build (e : EventFields) : Except Failure DeliveryEvent :=
  match h : e.problem with
  | none => .ok ⟨e, h⟩
  | some text => .error (.valueError text)

theorem DeliveryEvent.build_eq_ok {e : EventFields} {event : DeliveryEvent} :
    DeliveryEvent.build e = .ok event ↔ event.toEventFields = e := by
  unfold DeliveryEvent.build
  split
  · rename_i h
    simp only [Except.ok.injEq]
    constructor
    · rintro rfl
      rfl
    · rintro rfl
      rfl
  · rename_i text h
    simp only [reduceCtorEq, false_iff]
    rintro rfl
    rw [event.valid] at h
    cases h

end GameLink.Contracts

import GameLink.Contracts.Digest

namespace GameLink.Contracts

open Foundation

inductive DstFoldPolicy where
  | firstOccurrence | secondOccurrence
  deriving DecidableEq, Repr

inductive DstGapPolicy where
  | skip | nextValidInstant
  deriving DecidableEq, Repr

def DstFoldPolicy.value : DstFoldPolicy → String
  | firstOccurrence => "first_occurrence"
  | secondOccurrence => "second_occurrence"

def DstGapPolicy.value : DstGapPolicy → String
  | skip => "skip"
  | nextValidInstant => "next_valid_instant"

structure DigestScheduleProfile where
  timezoneName : String
  localTime : String
  windowDurationSeconds : ℕ
  foldPolicy : DstFoldPolicy
  gapPolicy : DstGapPolicy
  policyRevision : ℕ
  deriving DecidableEq

structure DigestWindow where
  windowId : String
  timezoneName : String
  localScheduleKey : String
  utcStart : Instant
  utcEnd : Instant
  dueAt : Instant
  foldPolicy : DstFoldPolicy
  gapPolicy : DstGapPolicy
  policyRevision : ℕ
  scheduleProfile : Option DigestScheduleProfile
  scheduleRecipient : Option ConversationRef
  deriving DecidableEq

inductive SubscriptionStatus where
  | active | cancelled
  deriving DecidableEq, Repr

structure SubscriptionRecord where
  subscriptionId : String
  revision : ℕ
  moduleId : String
  collectionKey : CollectionKey
  ownerId : String
  grant : Option GrantReference
  recipient : ConversationRef
  notificationMode : String
  filters : Json
  status : SubscriptionStatus
  typeId : Option String
  digestSchedule : Option DigestScheduleProfile
  creationKey : Option String
  deriving DecidableEq

inductive ObservationCompleteness where
  | complete | partialResult | failed
  deriving DecidableEq, Repr

structure Observation where
  observationId : String
  key : CollectionKey
  dataVersion : ℕ
  sourceObservedAt : Option Instant
  collectedAt : Instant
  completeness : ObservationCompleteness
  coveredIds : List String
  payload : Json
  deriving DecidableEq

structure EvaluationState where
  revision : ℕ
  value : Json
  deriving DecidableEq

structure ObservationCursor where
  observationId : String
  dataVersion : ℕ
  completeness : ObservationCompleteness
  coveredIds : List String
  deriving DecidableEq

def Observation.cursor (o : Observation) : ObservationCursor :=
  ⟨o.observationId, o.dataVersion, o.completeness, o.coveredIds⟩

structure SubscriptionFence where
  gateRevision : ℕ
  intentRevision : ℕ
  deriving DecidableEq

structure BackgroundFence where
  generation : ℕ
  intentRevision : ℕ
  deriving DecidableEq

variable [Hashing]

structure EvaluationCommitFields where
  subscriptionId : String
  subscriptionRevision : ℕ
  expectedStateRevision : Option ℕ
  state : EvaluationState
  cursor : ObservationCursor
  deliveryEvents : List DeliveryEvent
  digestMembers : List DigestMemberAssociation
  projectedObservation : Option Observation
  deriving DecidableEq

namespace EvaluationCommitFields

def nextStateRevision (c : EvaluationCommitFields) : ℕ :=
  match c.expectedStateRevision with
  | none => 1
  | some revision => revision + 1

def problem (c : EvaluationCommitFields) : Option String :=
  if !identifier c.subscriptionId then some "subscription_id must be a non-empty string"
  else if c.subscriptionRevision < 1 then some "subscription_revision must be a built-in positive integer"
  else if c.expectedStateRevision.any fun revision => revision < 1 then
    some "expected_state_revision must be a built-in positive integer"
  else if c.state.revision ≠ c.nextStateRevision then
    some "evaluation state must advance exactly one revision"
  else if c.projectedObservation.any fun o => o.key.scope.kind ≠ .public || o.completeness ≠ .partialResult then
    some "public projection requires an explicit partial public observation"
  else if c.deliveryEvents.any fun e =>
      e.subscriptionId ≠ c.subscriptionId || e.subscriptionRevision ≠ c.subscriptionRevision then
    some "delivery events must match this subscription revision"
  else if ¬ (c.deliveryEvents.map fun e => (e.eventKey, e.eventVersion)).Nodup then
    some "delivery events must be unique"
  else if c.digestMembers.any fun a =>
      a.member.subscriptionId ≠ c.subscriptionId || a.member.subscriptionRevision ≠ c.subscriptionRevision then
    some "digest associations must match this subscription revision"
  else if c.digestMembers.any fun a => a.event ∉ c.deliveryEvents then
    some "every digest member requires its exact event in this atomic commit"
  else if ¬ (c.digestMembers.map fun a => a.member).Nodup then some "digest members must be unique"
  else none

end EvaluationCommitFields

structure SubscriptionEvaluationCommit extends EvaluationCommitFields where
  valid : toEvaluationCommitFields.problem = none
  deriving DecidableEq

def SubscriptionEvaluationCommit.build (c : EvaluationCommitFields) : Except Failure SubscriptionEvaluationCommit :=
  match h : c.problem with
  | none => .ok ⟨c, h⟩
  | some text => .error (.valueError text)

theorem SubscriptionEvaluationCommit.build_eq_ok {f : EvaluationCommitFields} {c : SubscriptionEvaluationCommit} :
    SubscriptionEvaluationCommit.build f = .ok c ↔ c.toEvaluationCommitFields = f := by
  unfold SubscriptionEvaluationCommit.build
  split
  · rename_i h
    simp only [Except.ok.injEq]
    constructor
    · rintro rfl
      rfl
    · rintro rfl
      rfl
  · rename_i text h
    simp only [reduceCtorEq, false_iff]
    rintro rfl
    rw [c.valid] at h
    cases h

structure ObservationCommitFields where
  observation : Observation
  subscriptions : List SubscriptionEvaluationCommit
  deriving DecidableEq

namespace ObservationCommitFields

def faithfulProjection (observation projected : Observation) (subscriptionId : String) : Bool :=
  observation.key.scope.kind = .public && projected.observationId ≠ observation.observationId &&
    projected.key.moduleId = observation.key.moduleId && projected.key.sourceId = observation.key.sourceId &&
    projected.key.collectorId = observation.key.collectorId &&
    projected.key.keyVersion = observation.key.keyVersion && projected.dataVersion = observation.dataVersion &&
    projected.collectedAt = observation.collectedAt &&
    projected.sourceObservedAt = observation.sourceObservedAt &&
    projected.payload.field "source_observation_id" = some (.str observation.observationId) &&
    projected.payload.field "subscription_id" = some (.str subscriptionId)

def itemProblem (observation : Observation) (i : SubscriptionEvaluationCommit) : Option String :=
  if i.projectedObservation.any fun o => !faithfulProjection observation o i.subscriptionId then
    some "projection must retain the exact public source and observation time"
  else if i.cursor ≠ (i.projectedObservation.getD observation).cursor then
    some "subscription cursor must match the committed observation"
  else none

def problem (c : ObservationCommitFields) : Option String :=
  if ¬ (c.subscriptions.map fun i => i.subscriptionId).Nodup then
    some "observation subscription commits must be unique"
  else if c.observation.completeness = .failed ∧ c.subscriptions ≠ [] then
    some "failed observations cannot advance evaluation state"
  else c.subscriptions.findSome? (itemProblem c.observation)

end ObservationCommitFields

structure ObservationEvaluationCommit extends ObservationCommitFields where
  valid : toObservationCommitFields.problem = none
  deriving DecidableEq

def ObservationEvaluationCommit.build (c : ObservationCommitFields) : Except Failure ObservationEvaluationCommit :=
  match h : c.problem with
  | none => .ok ⟨c, h⟩
  | some text => .error (.valueError text)

theorem ObservationEvaluationCommit.build_eq_ok {f : ObservationCommitFields} {c : ObservationEvaluationCommit} :
    ObservationEvaluationCommit.build f = .ok c ↔ c.toObservationCommitFields = f := by
  unfold ObservationEvaluationCommit.build
  split
  · rename_i h
    simp only [Except.ok.injEq]
    constructor
    · rintro rfl
      rfl
    · rintro rfl
      rfl
  · rename_i text h
    simp only [reduceCtorEq, false_iff]
    rintro rfl
    rw [c.valid] at h
    cases h

end GameLink.Contracts

import GameLink.Contracts.Subscriptions
import GameLink.Foundation.Table
import GameLink.Foundation.Transaction

namespace GameLink.Store

open Foundation Contracts

variable [Hashing]

/-! Rows of the subscription tables. A `*_json` column holds the record its text encodes, a `*_at`
column the instant its text denotes. -/

structure SubscriptionRow where
  subscriptionId : String
  revision : ℕ
  ownerId : String
  status : SubscriptionStatus
  record : SubscriptionRecord

structure SubscriptionJobRow where
  subscriptionId : String
  jobKey : String
  subscriptionRevision : ℕ
  associationRevision : ℕ
  cadence : ℤ
  configRevision : ℕ

structure CollectionJobRow where
  jobKey : String
  key : CollectionKey
  dueAt : Option Instant
  cadence : Option ℤ
  configRevision : Option ℕ
  moduleEpoch : Option ℕ
  registryRevision : Option ℕ
  leaseToken : Option String
  leaseExpiresAt : Option Instant
  observationId : Option String
  gateRevision : Option ℕ
  intentRevision : Option ℕ

structure BackgroundJobRow where
  jobKey : String
  moduleId : String
  configPrincipalId : String
  configRevision : ℕ
  declarationDigest : String
  intentRevision : ℕ
  generation : ℕ
  active : Bool

structure ObservationRow where
  observationId : String
  jobKey : String
  observation : Observation

structure EvaluationStateRow where
  subscriptionId : String
  revision : ℕ
  state : EvaluationState
  cursor : ObservationCursor
  gateRevision : Option ℕ
  intentRevision : Option ℕ

structure EventRow where
  id : EventId
  ownerId : String
  idempotencyKey : String
  state : DeliveryState
  attemptNumber : ℕ
  retryAt : Option Instant
  event : DeliveryEvent
  gateRevision : Option ℕ
  intentRevision : Option ℕ

structure AttemptRow where
  event : EventId
  attemptNumber : ℕ
  state : DeliveryState
  attempt : DeliveryAttempt
  deriving DecidableEq

def AttemptRow.key (r : AttemptRow) : EventId × ℕ := (r.event, r.attemptNumber)

structure WindowRow where
  windowId : String
  dueAt : Instant
  window : DigestWindow

structure MemberRow where
  windowId : String
  recipientKey : String
  association : DigestMemberAssociation

def MemberRow.key (r : MemberRow) : String × String × DigestMember := (r.windowId, r.recipientKey, r.association.member)

structure EnvelopeRow where
  envelopeId : String
  windowId : String
  recipientKey : String
  state : DigestEnvelopeState
  revision : ℕ
  claimToken : Option String
  claimedAt : Option Instant
  claimExpiresAt : Option Instant
  retryAt : Option Instant
  envelope : DigestEnvelope
  deriving DecidableEq

structure ReceiptRow where
  envelopeId : String
  receipt : DigestMemberReceipt

def ReceiptRow.key (r : ReceiptRow) : String × DigestMember := (r.envelopeId, r.receipt.member)

structure PublicIdentityRow where
  businessKey : String
  windowId : String

structure SuppressedRow where
  windowId : String
  event : EventId
  reason : String
  suppressedAt : Instant

def SuppressedRow.key (r : SuppressedRow) : String × EventId := (r.windowId, r.event)

structure ConfigEntryRow where
  principalId : String
  moduleId : String
  field : String
  value : Json
  revision : ℕ
  subscriptionTransitionAt : Option Instant

def ConfigEntryRow.key (r : ConfigEntryRow) : String × String × String := (r.principalId, r.moduleId, r.field)

structure IntentRow where
  packageId : String
  moduleId : String
  desiredEnabled : ℤ
  intentRevision : ℕ
  updatedAt : Instant

def IntentRow.key (r : IntentRow) : String × String := (r.packageId, r.moduleId)

structure ConfigStateRow where
  principalId : String
  moduleId : String
  revision : ℕ

def ConfigStateRow.key (r : ConfigStateRow) : String × String := (r.principalId, r.moduleId)

structure Gates where
  bootstrapPhase : Option String
  initializations : List (String × String × String)
  declaredGates : List (String × String × String)
  declaredRegistrations : List (String × String × String)
  configEntries : Table ConfigEntryRow.key
  configState : Table ConfigStateRow.key
  intents : Table IntentRow.key

structure Database where
  gates : Gates
  subscriptions : Table SubscriptionRow.subscriptionId
  subscriptionJobs : Table SubscriptionJobRow.subscriptionId
  collectionJobs : Table CollectionJobRow.jobKey
  backgroundJobs : Table BackgroundJobRow.jobKey
  observations : Table ObservationRow.observationId
  evaluationStates : Table EvaluationStateRow.subscriptionId
  events : Table EventRow.id
  attempts : Table AttemptRow.key
  windows : Table WindowRow.windowId
  members : Table MemberRow.key
  envelopes : Table EnvelopeRow.envelopeId
  receipts : Table ReceiptRow.key
  publicIdentities : Table PublicIdentityRow.businessKey
  suppressed : Table SuppressedRow.key

abbrev StoreWork := Work Database Failure

open Work

def updateEvents (p : EventRow → Bool) (f : EventRow → EventRow) (hf : ∀ r, (f r).id = r.id) : StoreWork ℕ := do
  let s ← read
  write fun s => { s with events := s.events.update p f hf }
  pure (s.events.matching p)

end GameLink.Store

import GameLink.Delivery.Repository
import GameLink.Digest.Repository

namespace GameLink.Scheduler

open Foundation Work Contracts Store

structure CollectionRunRequest where
  key : CollectionKey
  dueAt : Instant
  cadence : ℤ
  configRevision : ℕ
  moduleEpoch : ℕ
  registryRevision : ℕ
  background : Bool
  lease : Option ℤ
  deriving DecidableEq

structure ExecutionLease where
  key : CollectionKey
  token : String
  configRevision : ℕ
  moduleEpoch : ℕ
  registryRevision : ℕ
  expiresAt : Instant
  subscriptionFence : Option SubscriptionFence
  backgroundFence : Option BackgroundFence
  deriving DecidableEq

structure BackgroundJob where
  key : CollectionKey
  cadence : ℤ
  configRevision : ℕ
  configPrincipalId : String
  configModuleId : String
  declarationDigest : String
  deriving DecidableEq

structure CommitGuard where
  body : Option Failure
  commit : Option Failure

def second : ℤ := 1000000

def keyJson (key : CollectionKey) : String := key.encode.dumps

theorem keyJson_eq_iff (k l : CollectionKey) : keyJson k = keyJson l ↔ k = l ∨ k.encode.dumps = l.encode.dumps := by
  constructor
  · exact Or.inr
  rintro (h | h)
  · rw [h]
  · exact h

def underLease (row : CollectionJobRow) (lease : ExecutionLease) : Bool :=
  keyJson row.key = keyJson lease.key && row.leaseToken = some lease.token &&
    row.configRevision.getD 0 = lease.configRevision && row.moduleEpoch.getD 0 = lease.moduleEpoch &&
    row.registryRevision.getD 0 = lease.registryRevision

theorem underLease_token {row : CollectionJobRow} {lease : ExecutionLease} (h : underLease row lease = true) :
    row.leaseToken = some lease.token := by
  simp only [underLease, Bool.and_eq_true, decide_eq_true_eq] at h
  exact h.1.1.1.2

variable [Hashing]

def updateCollectionJobs (p : CollectionJobRow → Bool) (f : CollectionJobRow → CollectionJobRow)
    (hf : ∀ r, (f r).jobKey = r.jobKey) : StoreWork ℕ := do
  let s ← read
  write fun s => { s with collectionJobs := s.collectionJobs.update p f hf }
  pure (s.collectionJobs.matching p)

def newJob (key : CollectionKey) (initialRun : Option CollectionRunRequest) : CollectionJobRow where
  jobKey := jobKey key
  key := key
  dueAt := initialRun.map CollectionRunRequest.dueAt
  cadence := initialRun.map CollectionRunRequest.cadence
  configRevision := initialRun.map CollectionRunRequest.configRevision
  moduleEpoch := initialRun.map CollectionRunRequest.moduleEpoch
  registryRevision := initialRun.map CollectionRunRequest.registryRevision
  leaseToken := none
  leaseExpiresAt := none
  observationId := none
  gateRevision := none
  intentRevision := none

def unscheduled (r : CollectionJobRow) : Bool :=
  r.dueAt.isNone && r.cadence.isNone && r.configRevision.isNone && r.moduleEpoch.isNone && r.registryRevision.isNone

def scheduled (r : CollectionJobRow) : Bool :=
  r.dueAt.isSome && r.cadence.isSome && r.configRevision.isSome && r.moduleEpoch.isSome && r.registryRevision.isSome

def leased (r : CollectionJobRow) : Bool := r.leaseToken.isSome || r.leaseExpiresAt.isSome

def armJob (row : CollectionJobRow) (run : CollectionRunRequest) : StoreWork Unit :=
  if unscheduled row then do
    raiseIf (leased row = true) (.valueError "unarmed collection job cannot retain a lease")
    let changed ← updateCollectionJobs (fun r => decide (r.jobKey = row.jobKey) && (unscheduled r && !leased r))
      (fun r => { r with
        dueAt := some run.dueAt, cadence := some run.cadence, configRevision := some run.configRevision,
        moduleEpoch := some run.moduleEpoch, registryRevision := some run.registryRevision })
      fun _ => rfl
    raiseIf (changed ≠ 1) (.valueError "collection job schedule changed during arm")
  else raiseIf (scheduled row = false) (.valueError "collection job schedule is incomplete")

def armInitial (row : CollectionJobRow) : Option CollectionRunRequest → StoreWork Unit
  | none => pure ()
  | some run => armJob row run

def insertJob (row : CollectionJobRow) : StoreWork Unit :=
  write fun s => { s with collectionJobs := (s.collectionJobs.insert row).getD s.collectionJobs }

def putJob (key : CollectionKey) (initialRun : Option CollectionRunRequest) : StoreWork String := do
  raiseIf (initialRun.any fun run => run.key ≠ key) (.valueError "initial_run must match the collection key")
  insertJob (newJob key initialRun)
  let s ← read
  let collision := Failure.valueError "collection key digest collision"
  let row ← orRaise (s.collectionJobs.get (jobKey key)) collision
  raiseIf (keyJson row.key ≠ keyJson key) collision
  armInitial row initialRun
  pure (jobKey key)

variable (bindings : GateBindings)

def claimFences (s : Database) (request : CollectionRunRequest) :
    Option (Option SubscriptionFence × Option BackgroundFence) :=
  if request.background then
    match s.readBackgroundFence request.key, s.backgroundJobs.get (jobKey request.key) with
    | some fence, some marker => if marker.configRevision ≠ request.configRevision then none else some (none, some fence)
    | _, _ => none
  else if (s.backgroundJobs.get (jobKey request.key)).isSome then none
  else (s.gates.readSubscriptionFence (bindings request.key.moduleId)).map fun fence => (some fence, none)

def held (row : CollectionJobRow) (now : Instant) : Except Failure Bool :=
  match row.leaseToken, row.leaseExpiresAt with
  | none, _ => .ok false
  | some _, none => .error .typeError
  | some _, some expires => .ok (decide (now < expires))

/-- `request.lease_seconds or 60.0`, at most an hour, for background work. -/
def leaseDuration (request : CollectionRunRequest) : ℤ :=
  if request.background then min (request.lease.getD (60 * second)) (3600 * second) else request.cadence

def claimDue (request : CollectionRunRequest) (now : Instant) (token : String) : StoreWork (Option ExecutionLease) := do
  let s ← read
  match claimFences bindings s request with
  | none => pure none
  | some (fence, background) => do
    let job ← putJob request.key none
    let s ← read
    let row ← orRaise (s.collectionJobs.get job) .typeError
    if now < request.dueAt ∨ row.dueAt.any (fun due => decide (now < due)) then pure none
    else do
      let taken ← ofExcept (held row now)
      if taken then pure none
      else do
        let expires := now + leaseDuration request
        let _ ← updateCollectionJobs (fun r => decide (r.jobKey = job))
          (fun r => { r with
            dueAt := some request.dueAt, cadence := some request.cadence,
            configRevision := some request.configRevision, moduleEpoch := some request.moduleEpoch,
            registryRevision := some request.registryRevision, leaseToken := some token,
            leaseExpiresAt := some expires, gateRevision := fence.map SubscriptionFence.gateRevision,
            intentRevision := fence.map SubscriptionFence.intentRevision })
          fun _ => rfl
        pure (some ⟨request.key, token, request.configRevision, request.moduleEpoch, request.registryRevision, expires,
          fence, background⟩)

def fenceHolds (s : Database) (lease : ExecutionLease) (row : CollectionJobRow) : Bool :=
  match lease.backgroundFence with
  | some fence => s.readBackgroundFence lease.key = some fence
  | none =>
    match s.gates.readSubscriptionFence (bindings lease.key.moduleId) with
    | none => false
    | some current => lease.subscriptionFence = some current && row.fence = some current

def isCurrent (s : Database) (lease : ExecutionLease) (now : Instant) : Bool :=
  match s.collectionJobs.get (jobKey lease.key) with
  | none => false
  | some row =>
    keyJson row.key = keyJson lease.key && fenceHolds bindings s lease row && row.leaseToken = some lease.token &&
      row.configRevision = some lease.configRevision && row.moduleEpoch = some lease.moduleEpoch &&
      row.registryRevision = some lease.registryRevision && row.leaseExpiresAt = some lease.expiresAt &&
      now < lease.expiresAt

/-- `UPDATE … SET lease_token=NULL, lease_expires_at=NULL WHERE job_key=? AND lease_token=?`. -/
def endLease (lease : ExecutionLease) (dueAt : Option Instant → Option Instant) : StoreWork Unit := do
  let _ ← updateCollectionJobs (fun r => decide (r.jobKey = jobKey lease.key) && r.leaseToken = some lease.token)
    (fun r => { r with leaseToken := none, leaseExpiresAt := none, dueAt := dueAt r.dueAt }) fun _ => rfl
  pure ()

def release (lease : ExecutionLease) : StoreWork Unit := endLease lease id

def defer (lease : ExecutionLease) (nextDueAt now : Instant) : StoreWork Bool :=
  if nextDueAt ≤ now then pure false
  else do
    let s ← read
    match s.collectionJobs.get (jobKey lease.key) with
    | none => pure false
    | some row =>
      if underLease row lease = false then pure false
      else do
        let expires ← orRaise row.leaseExpiresAt .typeError
        -- A subscription lease compares with the fence as it is, even when there is none.
        let fenced := match lease.backgroundFence with
          | some fence => decide (s.readBackgroundFence lease.key = some fence)
          | none => decide (s.gates.readSubscriptionFence (bindings lease.key.moduleId) = lease.subscriptionFence) &&
              decide (row.fence = lease.subscriptionFence)
        if expires ≤ now ∨ fenced = false then pure false
        else do
          endLease lease fun _ => some nextDueAt
          pure true

def unscheduleJob (job principalId : String) (grant : GrantReference) : StoreWork Unit := do
  let _ ← updateCollectionJobs
    (fun r => decide (r.jobKey = job) && r.key.scope = ⟨.authorized, some principalId, some grant⟩)
    (fun r => { r with
      dueAt := none, cadence := none, configRevision := none, moduleEpoch := none, registryRevision := none,
      leaseToken := none, leaseExpiresAt := none }) fun _ => rfl
  pure ()

/-! The registrations of background work. -/

def insertBackgroundJob (row : BackgroundJobRow) : StoreWork Unit := do
  let s ← read
  raiseIf (s.collectionJobs.get row.jobKey).isNone .integrityError
  let jobs ← orRaise (s.backgroundJobs.insert row) .uniqueConstraintViolation
  write fun s => { s with backgroundJobs := jobs }

def updateBackgroundJobs (jobKey : String) (f : BackgroundJobRow → BackgroundJobRow)
    (hf : ∀ r, (f r).jobKey = r.jobKey) : StoreWork Unit :=
  write fun s => { s with backgroundJobs := s.backgroundJobs.update (fun r => decide (r.jobKey = jobKey)) f hf }

def unchanged (item : BackgroundJob) (intentRevision : ℕ) (old : BackgroundJobRow) (work : CollectionJobRow) : Bool :=
  old.active && old.configPrincipalId = item.configPrincipalId && old.configRevision = item.configRevision &&
    old.declarationDigest = item.declarationDigest && old.intentRevision = intentRevision &&
    work.cadence = some item.cadence

def backgroundDue (s : Database) (item : BackgroundJob) (old : Option BackgroundJobRow) (work : CollectionJobRow)
    (now : Instant) : Instant :=
  if old.any BackgroundJobRow.active then
    match work.observationId.bind s.observations.get with
    | none => now
    | some previous => max now (previous.observation.collectedAt + item.cadence)
  else now

def newRegistration (item : BackgroundJob) (intentRevision : ℕ) : BackgroundJobRow where
  jobKey := jobKey item.key
  moduleId := item.key.moduleId
  configPrincipalId := item.configPrincipalId
  configRevision := item.configRevision
  declarationDigest := item.declarationDigest
  intentRevision := intentRevision
  generation := 1
  active := true

/-- `INSERT … ON CONFLICT(job_key) DO UPDATE`, under the next generation. -/
def writeRegistration (item : BackgroundJob) (intentRevision : ℕ) : Option BackgroundJobRow → StoreWork Unit
  | none => insertBackgroundJob (newRegistration item intentRevision)
  | some old =>
    updateBackgroundJobs (jobKey item.key) (fun r => { r with
      configPrincipalId := item.configPrincipalId, configRevision := item.configRevision,
      declarationDigest := item.declarationDigest, intentRevision := intentRevision,
      generation := old.generation + 1, active := true }) fun _ => rfl

def registerBackgroundJob (item : BackgroundJob) (intentRevision : ℕ) (now : Instant)
    (old : Option BackgroundJobRow) (work : CollectionJobRow) : StoreWork Unit := do
  let s ← read
  writeRegistration item intentRevision old
  let _ ← updateCollectionJobs (fun r => decide (r.jobKey = jobKey item.key))
    (fun r => { r with
      dueAt := some (backgroundDue s item old work now), cadence := some item.cadence,
      configRevision := some item.configRevision, leaseToken := none, leaseExpiresAt := none }) fun _ => rfl
  pure ()

def registrable (s : Database) (item : BackgroundJob) : Option ℕ :=
  match s.gates.intents.get (splitModule item.key.moduleId),
      s.gates.configState.get (item.configPrincipalId, item.configModuleId) with
  | some intent, some config =>
    if intent.desiredEnabled ≠ 1 ∨ config.revision ≠ item.configRevision then none else some intent.intentRevision
  | _, _ => none

def reconcileJob (item : BackgroundJob) (now : Instant) : StoreWork (Option String) := do
  let s ← read
  match registrable s item with
  | none => pure none
  | some intentRevision => do
    let job := jobKey item.key
    raiseIf (s.subscriptionJobs.rows.any fun r => r.jobKey = job)
      (.valueError "background job cannot replace subscription work")
    let _ ← putJob item.key none
    let s ← read
    let old := s.backgroundJobs.get job
    let work ← orRaise (s.collectionJobs.get job) .typeError
    if old.any fun old => unchanged item intentRevision old work then pure (some job)
    else do
      registerBackgroundJob item intentRevision now old work
      pure (some job)

def reconcileJobs (now : Instant) : List BackgroundJob → StoreWork (List String)
  | [] => pure []
  | item :: rest => do
    let retained ← reconcileJob item now
    let others ← reconcileJobs now rest
    pure (retained.toList ++ others)

def withdraw : List String → StoreWork Unit
  | [] => pure ()
  | job :: rest => do
    updateBackgroundJobs job (fun r => { r with active := false, generation := r.generation + 1 }) fun _ => rfl
    let _ ← updateCollectionJobs (fun r => decide (r.jobKey = job))
      (fun r => { r with dueAt := none, leaseToken := none, leaseExpiresAt := none }) fun _ => rfl
    withdraw rest

def reconcileBackgroundJobs (jobs : List BackgroundJob) (now : Instant) : StoreWork Unit := do
  raiseIf (2048 < jobs.length) (.valueError "background registration budget exceeded")
  raiseIf (¬ (jobs.map fun item => jobKey item.key).Nodup) (.valueError "duplicate background collection keys")
  let retained ← reconcileJobs now jobs
  let s ← read
  withdraw ((s.backgroundJobs.rows.filter fun r => r.active && r.jobKey ∉ retained).map BackgroundJobRow.jobKey)

/-! What a commit writes. -/

def insertObservation (observation : Observation) : StoreWork Unit := do
  let s ← read
  let job := jobKey observation.key
  raiseIf (s.collectionJobs.get job).isNone .integrityError
  let observations ← orRaise (s.observations.insert ⟨observation.observationId, job, observation⟩)
    .uniqueConstraintViolation
  write fun s => { s with observations := observations }

def stateRow (item : SubscriptionEvaluationCommit) (fence : Option SubscriptionFence) : EvaluationStateRow where
  subscriptionId := item.subscriptionId
  revision := item.state.revision
  state := item.state
  cursor := item.cursor
  gateRevision := fence.map SubscriptionFence.gateRevision
  intentRevision := fence.map SubscriptionFence.intentRevision

def writeState (item : SubscriptionEvaluationCommit) (fence : Option SubscriptionFence) : StoreWork Unit := do
  let s ← read
  match item.expectedStateRevision with
  | none => do
    raiseIf (s.subscriptions.get item.subscriptionId).isNone .integrityError
    let states ← orRaise (s.evaluationStates.insert (stateRow item fence)) .uniqueConstraintViolation
    write fun s => { s with evaluationStates := states }
  | some revision => do
    let matching := fun r : EvaluationStateRow =>
      decide (r.subscriptionId = item.subscriptionId) && decide (r.revision = revision)
    write fun s => { s with
      evaluationStates := s.evaluationStates.update matching
        (fun r => { stateRow item fence with subscriptionId := r.subscriptionId }) fun _ => rfl }
    raiseIf (s.evaluationStates.matching matching ≠ 1) .staleEvaluationCommit

def eventRow (event : DeliveryEvent) (fence : Option SubscriptionFence) : EventRow where
  id := event.id
  ownerId := event.ownerId
  idempotencyKey := event.idempotencyKey
  state := event.state
  attemptNumber := (event.attempt.map fun a => a.attemptNumber).getD 0
  retryAt := event.retryAt
  event := event
  gateRevision := fence.map SubscriptionFence.gateRevision
  intentRevision := fence.map SubscriptionFence.intentRevision

/-- `INSERT INTO b04_delivery_events` through the unit of work: the primary key and the idempotency key
are unique, and either conflict is a `UniqueConstraintViolation`. -/
def insertEvent (event : DeliveryEvent) (fence : Option SubscriptionFence) : StoreWork Unit := do
  let s ← read
  raiseIf (s.events.rows.any fun r => r.idempotencyKey = event.idempotencyKey) .uniqueConstraintViolation
  let events ← orRaise (s.events.insert (eventRow event fence)) .uniqueConstraintViolation
  write fun s => { s with events := events }

def refenced (s : Database) (event : DeliveryEvent) (fence : Option SubscriptionFence) : Bool :=
  fence.isSome && (s.events.get event.id).any fun row => row.fence ≠ fence

def existingEvent (event : DeliveryEvent) (fence : Option SubscriptionFence) (e : Failure) :
    StoreWork (Option DeliveryEvent) :=
  if e = .uniqueConstraintViolation then raise e
  else do
    let s ← read
    raiseIf (refenced s event fence = true) .staleEvaluationCommit
    if (s.events.get event.id).any fun row => row.event = event then pure (some event) else raise e

def insertLatestAttempt (event : DeliveryEvent) : StoreWork Unit :=
  match event.attempt with
  | none => pure ()
  | some attempt => Delivery.insertAttempt event.id attempt

def upsertEvent (event : DeliveryEvent) (fence : Option SubscriptionFence) : StoreWork DeliveryEvent := do
  let s ← read
  raiseIf (refenced s event fence = true) .staleEvaluationCommit
  let existing ← rescue (do insertEvent event fence; pure none) (existingEvent event fence)
  match existing with
  | some event => pure event
  | none => do
    insertLatestAttempt event
    pure event

def insertDigestMember (association : DigestMemberAssociation) : StoreWork Unit := do
  let s ← read
  raiseIf (s.windows.get association.windowId).isNone .integrityError
  let members ← orRaise (s.members.insert ⟨association.windowId, routeKey association.recipient, association⟩)
    .uniqueConstraintViolation
  write fun s => { s with members := members }

def insertDigestMembers : List DigestMemberAssociation → StoreWork Unit
  | [] => pure ()
  | association :: rest => do
    insertDigestMember association
    insertDigestMembers rest

/-! The public aggregate an event joins. -/

def publicIdentity (moduleId : String) (event : DeliveryEvent) : String :=
  (Json.arr [.str moduleId, event.recipient.encode, .str event.eventKey]).dumps

def publicWindowId (s : Database) (identity : String) : String :=
  match s.publicIdentities.get identity with
  | some row => row.windowId
  | none => "public-event:v1:" ++ Hashing.sha256 identity

def digestMember (event : DeliveryEvent) : DigestMember where
  subscriptionId := event.subscriptionId
  subscriptionRevision := event.subscriptionRevision
  eventKey := event.eventKey
  eventVersion := event.eventVersion

def publicEventWindow (windowId : String) (collectedAt : Instant) : DigestWindow where
  windowId := windowId
  timezoneName := "UTC"
  localScheduleKey := "public-event"
  utcStart := collectedAt - second
  utcEnd := collectedAt
  dueAt := collectedAt + 30 * second
  foldPolicy := .firstOccurrence
  gapPolicy := .skip
  policyRevision := 1
  scheduleProfile := none
  scheduleRecipient := none

def onRoute (windowId route : String) (r : MemberRow) : Bool := r.windowId = windowId && r.recipientKey = route

def closedBecause (s : Database) (windowId route : String) : Option String :=
  if s.envelopes.rows.any (Digest.sameRoute windowId route) then some "sealed_membership"
  else if 100 ≤ s.members.matching (onRoute windowId route) then some "member_limit"
  else none

def suppressEvent (event : DeliveryEvent) (windowId reason : String) (collectedAt : Instant) : StoreWork Unit := do
  let row : SuppressedRow := ⟨windowId, event.id, reason, collectedAt⟩
  write fun s => { s with suppressed := (s.suppressed.insert row).getD s.suppressed }
  let cancelled ← ofExcept (DeliveryEvent.build { event.toEventFields with state := .cancelled })
  let _ ← updateEvents (fun r => decide (r.id = event.id))
    (fun r => { r with state := .cancelled, event := cancelled }) fun _ => rfl
  pure ()

def contradicted (s : Database) (windowId route : String) (contribution : PublicEventContribution) : Bool :=
  s.members.rows.any fun r => onRoute windowId route r &&
    r.association.event.publicContribution.any fun prior =>
      prior.contributionKey = contribution.contributionKey && prior ≠ contribution

def createWindow (windowId : String) (collectedAt : Instant) : StoreWork Unit := do
  let s ← read
  if (s.windows.get windowId).isNone then
    let window := publicEventWindow windowId collectedAt
    write fun s => { s with windows := (s.windows.insert ⟨windowId, window.dueAt, window⟩).getD s.windows }
  else pure ()

def joinAggregate (event : DeliveryEvent) (identity windowId : String) (collectedAt : Instant) : StoreWork Unit := do
  createWindow windowId collectedAt
  write fun s => { s with
    publicIdentities := (s.publicIdentities.insert ⟨identity, windowId⟩).getD s.publicIdentities }
  let association ← ofExcept (DigestMemberAssociation.build ⟨windowId, event.recipient, digestMember event, event⟩)
  insertDigestMember association

def attachPublicEvent (event : DeliveryEvent) (record : SubscriptionRecord) (collectedAt : Instant) :
    StoreWork Unit :=
  match event.publicContribution with
  | none => pure ()
  | some contribution => do
    raiseIf (record.collectionKey.scope.kind ≠ .public ∨ event.displayData.privacy ≠ .public ∨ event.grant ≠ none)
      (.valueError "public aggregate cannot include private observations")
    let s ← read
    let identity := publicIdentity record.moduleId event
    let windowId := publicWindowId s identity
    let route := routeKey event.recipient
    if (s.members.get (windowId, route, digestMember event)).isSome then pure ()
    else
      match closedBecause s windowId route with
      | some reason => suppressEvent event windowId reason collectedAt
      | none => do
        raiseIf (contradicted s windowId route contribution = true)
          (.valueError "contradictory public aggregate contribution")
        joinAggregate event identity windowId collectedAt

/-! The commit. -/

structure PublicSource where
  moduleId : String
  typeId : Option String
  recipient : ConversationRef
  eventKey : String
  deriving DecidableEq

def publicSource (record : SubscriptionRecord) (event : DeliveryEvent) : PublicSource :=
  ⟨record.moduleId, record.typeId, record.recipient, event.eventKey⟩

def publicSources (s : Database) (lease : ExecutionLease) (items : List SubscriptionEvaluationCommit) :
    List PublicSource :=
  items.flatMap fun item =>
    match s.subscriptions.get item.subscriptionId with
    | none => []
    | some row =>
      if row.record.collectionKey = lease.key ∧ row.record.collectionKey.scope.kind = .public then
        (item.deliveryEvents.filter fun e => e.publicContribution.isSome).map (publicSource row.record)
      else []

def projectedAllowed (lease : ExecutionLease) (sources : List PublicSource) (item : SubscriptionEvaluationCommit)
    (candidate : SubscriptionRecord) (link : SubscriptionJobRow) : Bool :=
  candidate.collectionKey.scope.kind = .public && item.projectedObservation.isSome && candidate.grant = none &&
    candidate.notificationMode = "instant" && candidate.collectionKey.sourceId = lease.key.sourceId &&
    candidate.collectionKey.collectorId = lease.key.collectorId &&
    candidate.collectionKey.keyVersion = lease.key.keyVersion && link.jobKey = jobKey candidate.collectionKey &&
    item.digestMembers = [] && item.deliveryEvents.all fun e =>
      e.publicContribution.isSome && e.ownerId = candidate.ownerId && e.recipient = candidate.recipient &&
        e.grant = none && publicSource candidate e ∈ sources

def itemCurrent (s : Database) (lease : ExecutionLease) (sources : List PublicSource)
    (item : SubscriptionEvaluationCommit) : Bool :=
  match s.subscriptions.get item.subscriptionId, s.subscriptionJobs.get item.subscriptionId with
  | some sub, some link =>
    (item.projectedObservation.all fun o => o.key = sub.record.collectionKey) &&
      sub.revision = item.subscriptionRevision && sub.status = .active &&
      (link.jobKey = jobKey lease.key || projectedAllowed lease sources item sub.record link) &&
      link.subscriptionRevision = item.subscriptionRevision &&
      (s.evaluationStates.get item.subscriptionId).map EvaluationStateRow.revision = item.expectedStateRevision &&
      item.digestMembers.all fun a => (s.windows.get a.windowId).isSome
  | _, _ => false

def applyEvents (subscriptionId : String) (collectedAt : Instant) (fence : Option SubscriptionFence) :
    List DeliveryEvent → StoreWork Unit
  | [] => pure ()
  | event :: rest => do
    let _ ← upsertEvent event fence
    let s ← read
    let row ← orRaise (s.subscriptions.get subscriptionId) .typeError
    attachPublicEvent event row.record collectedAt
    applyEvents subscriptionId collectedAt fence rest

def insertProjected : Option Observation → StoreWork Unit
  | none => pure ()
  | some projected => insertObservation projected

def applyItem (collectedAt : Instant) (fence : Option SubscriptionFence) (item : SubscriptionEvaluationCommit) :
    StoreWork Unit := do
  insertProjected item.projectedObservation
  writeState item fence
  applyEvents item.subscriptionId collectedAt fence item.deliveryEvents
  insertDigestMembers item.digestMembers

def applyItems (collectedAt : Instant) (fence : Option SubscriptionFence) :
    List SubscriptionEvaluationCommit → StoreWork Unit
  | [] => pure ()
  | item :: rest => do
    applyItem collectedAt fence item
    applyItems collectedAt fence rest

def applyObservation (lease : ExecutionLease) (commit : ObservationEvaluationCommit)
    (fence : Option SubscriptionFence) : StoreWork Unit :=
  let observation := commit.observation
  if observation.completeness = .failed then pure ()
  else do
    applyItems observation.collectedAt fence commit.subscriptions
    let _ ← updateCollectionJobs (fun r => decide (r.jobKey = jobKey lease.key))
      (fun r => { r with observationId := some observation.observationId }) fun _ => rfl
    pure ()

def nextDue (commit : ObservationEvaluationCommit) (nextDueAt : Option Instant) (cadence : Option ℤ) : Option Instant :=
  match nextDueAt with
  | some due => some due
  | none => cadence.map fun cadence => commit.observation.collectedAt + cadence

def writeCommit (lease : ExecutionLease) (commit : ObservationEvaluationCommit) (nextDueAt : Option Instant)
    (cadence : Option ℤ) (fence : Option SubscriptionFence) : StoreWork Unit := do
  insertObservation commit.observation
  applyObservation lease commit fence
  let due ← orRaise (nextDue commit nextDueAt cadence) .typeError
  endLease lease fun _ => some due

def commitBody (lease : ExecutionLease) (commit : ObservationEvaluationCommit) (nextDueAt : Option Instant)
    (guard : CommitGuard) (committedAt authorizedAt : Instant) : StoreWork Bool := do
  ofExcept (match guard.body with | some e => .error e | none => .ok ())
  let s ← read
  match s.collectionJobs.get (jobKey lease.key) with
  | none => pure false
  | some row =>
    if fenceHolds bindings s lease row = false ∨ (lease.backgroundFence ≠ none ∧ commit.subscriptions ≠ []) then
      pure false
    else if underLease row lease = false then pure false
    else do
      let expires ← orRaise row.leaseExpiresAt .typeError
      let sources := publicSources s lease commit.subscriptions
      if expires ≤ commit.observation.collectedAt ∨ expires ≤ committedAt ∨
          commit.subscriptions.all (itemCurrent s lease sources) = false then pure false
      else do
        addCommitGuard fun _ =>
          match guard.commit with
          | some e => some e
          | none => if expires ≤ authorizedAt then some .staleEvaluationCommit else none
        let fence := if lease.backgroundFence = none then lease.subscriptionFence else none
        writeCommit lease commit nextDueAt row.cadence fence
        pure true

def commitObservationWithEvaluations (lease : ExecutionLease) (commit : ObservationEvaluationCommit)
    (nextDueAt : Option Instant) (guard : CommitGuard) (committedAt authorizedAt : Instant) (s : Database) :
    Except Failure Bool × Database :=
  if lease.key ≠ commit.observation.key then (.ok false, s)
  else if nextDueAt.any fun due => due ≤ commit.observation.collectedAt then
    (.error (.valueError "next_due_at must be later than collection time"), s)
  else
    match transaction (commitBody bindings lease commit nextDueAt guard committedAt authorizedAt) s with
    | (.error .staleEvaluationCommit, s') => (.ok false, s')
    | answer => answer

end GameLink.Scheduler

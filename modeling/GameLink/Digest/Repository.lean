import GameLink.Store.Fences

namespace GameLink.Digest

open Foundation Work Contracts Store

variable [Hashing]

def envelopeRow (e : DigestEnvelope) : EnvelopeRow where
  envelopeId := e.envelopeId
  windowId := e.windowId
  recipientKey := routeKey e.recipient
  state := e.state
  revision := e.revision
  claimToken := e.claimToken
  claimedAt := e.claimedAt
  claimExpiresAt := e.claimExpiresAt
  retryAt := e.retryAt
  envelope := e

def sameRoute (windowId recipientKey : String) (r : EnvelopeRow) : Bool :=
  r.windowId = windowId && r.recipientKey = recipientKey

/-- `_save_envelope` without an expected revision: an `INSERT` under the primary key, the unique route
and the reference to the window. -/
def insertEnvelope (e : DigestEnvelope) : StoreWork Unit := do
  let s ← read
  raiseIf (s.windows.get e.windowId).isNone .integrityError
  raiseIf (s.envelopes.rows.any (sameRoute e.windowId (routeKey e.recipient))) .uniqueConstraintViolation
  let envelopes ← orRaise (s.envelopes.insert (envelopeRow e)) .uniqueConstraintViolation
  write fun s => { s with envelopes := envelopes }

def saveEnvelope (e : DigestEnvelope) (expectedRevision : ℕ) : StoreWork Bool := do
  let s ← read
  let matching := fun r : EnvelopeRow => decide (r.envelopeId = e.envelopeId) && decide (r.revision = expectedRevision)
  write fun s => { s with
    envelopes := s.envelopes.update matching (fun r => { envelopeRow e with envelopeId := r.envelopeId })
      fun _ => rfl }
  pure (s.envelopes.matching matching = 1)

def replaceReceipt (envelopeId : String) (receipt : DigestMemberReceipt) : StoreWork Unit := do
  let s ← read
  raiseIf (s.envelopes.get envelopeId).isNone .integrityError
  write fun s => { s with receipts := s.receipts.replace ⟨envelopeId, receipt⟩ }

def replaceAttempt (event : EventId) (attempt : DeliveryAttempt) : StoreWork Unit := do
  let s ← read
  raiseIf (s.events.get event).isNone .integrityError
  write fun s => { s with attempts := s.attempts.replace ⟨event, attempt.attemptNumber, attempt.state, attempt⟩ }

def publicWindow (windowId : String) : Bool := startsWith "public-event:v1:" windowId

def projectMember (event : DeliveryEvent) (attempt : AttemptFields) (columnRetry recordRetry : Option Instant) :
    StoreWork Unit := do
  let memberAttempt ← ofExcept (DeliveryAttempt.build { attempt with idempotencyKey := event.idempotencyKey })
  let memberEvent ← ofExcept (DeliveryEvent.build
    { event.toEventFields with state := attempt.state, attempt := some memberAttempt, retryAt := recordRetry })
  let _ ← updateEvents (fun r => r.id = event.id)
    (fun r => { r with
      state := attempt.state, attemptNumber := attempt.attemptNumber, retryAt := columnRetry, event := memberEvent })
    fun _ => rfl
  replaceAttempt event.id memberAttempt

def projectMembers (attempt : AttemptFields) (columnRetry : Option Instant)
    (recordRetry : DeliveryEvent → Option Instant) : List DigestMemberAssociation → StoreWork Unit
  | [] => pure ()
  | association :: rest => do
    projectMember association.event attempt columnRetry (recordRetry association.event)
    projectMembers attempt columnRetry recordRetry rest

def projectPublicAttempt (envelope : DigestEnvelope) (attempt : DeliveryAttempt) : StoreWork Unit :=
  if publicWindow envelope.windowId then
    projectMembers attempt.toAttemptFields none (fun e => e.retryAt) envelope.memberAssociations
  else pure ()

def envelopeId (windowId route : String) : String :=
  "digest-" ++ String.ofList ((Hashing.sha256 (windowId ++ ":" ++ route)).toList.take 40)

variable (bindings : GateBindings)

def routeEnvelope (windowId : String) (recipient : ConversationRef) : StoreWork (Option EnvelopeRow) := do
  let s ← read
  let route := routeKey recipient
  match s.envelopes.rows.find? (sameRoute windowId route) with
  | some row => pure (some row)
  | none =>
    let rows := s.members.rows.filter fun r => r.windowId = windowId && r.recipientKey = route
    let associations := rows.map MemberRow.association
    let members := associations.map fun a => a.member
    if members.any (s.included bindings recipient windowId) = false then pure none
    else do
      let envelope ← ofExcept (DigestEnvelope.build
        { envelopeId := envelopeId windowId route, windowId := windowId, recipient := recipient, members := members,
          revision := 1, state := .ready, memberReceipts := [], memberAssociations := associations,
          deliveryAttempts := [], claimToken := none, claimedAt := none, claimExpiresAt := none, retryAt := none })
      insertEnvelope envelope
      let s ← read
      pure (s.envelopes.get envelope.envelopeId)

def claimReady (row : EnvelopeRow) (token : String) (now leaseExpiresAt : Instant) :
    StoreWork (Option DigestEnvelopeClaim) := do
  let s ← read
  let envelope := row.envelope
  if envelope.state ≠ .ready ∨
      envelope.members.any (s.included bindings envelope.recipient envelope.windowId) = false then pure none
  else do
    let claimed ← ofExcept (DigestEnvelope.build { envelope.toEnvelopeFields with
      revision := envelope.revision + 1, state := .claimed, claimToken := some token, claimedAt := some now,
      claimExpiresAt := some leaseExpiresAt, retryAt := none })
    let saved ← saveEnvelope claimed envelope.revision
    if saved = false then pure none
    else do
      let claim ← ofExcept (DigestEnvelopeClaim.build ⟨token, claimed, now, leaseExpiresAt⟩)
      pure (some claim)

def claimDueEnvelope (windowId : String) (recipient : ConversationRef) (now leaseExpiresAt : Instant)
    (token : String) : StoreWork (Option DigestEnvelopeClaim) := do
  let s ← read
  match s.windows.get windowId with
  | none => pure none
  | some window =>
    if now < window.dueAt ∨ leaseExpiresAt ≤ now then pure none
    else do
      match ← routeEnvelope bindings windowId recipient with
      | none => pure none
      | some row => claimReady bindings row token now leaseExpiresAt

/-- `_claim_current`: the stored envelope, when it is at this revision and under this claim's token. -/
def claimCurrent (s : Database) (claim : DigestEnvelopeClaim) (expectedRevision : ℕ) : Option DigestEnvelope :=
  ((s.envelopes.get claim.envelope.envelopeId).map EnvelopeRow.envelope).filter fun current =>
    current.revision = expectedRevision && current.claimToken = some claim.claimToken

def effectiveReceipt (s : Database) (current : DigestEnvelope) (receipt : DigestMemberReceipt) : DigestMemberReceipt :=
  if receipt.disposition = .included then
    ⟨receipt.member, s.memberDisposition bindings receipt.member current.recipient current.windowId⟩
  else receipt

def replaceReceipts (envelopeId : String) : List DigestMemberReceipt → StoreWork Unit
  | [] => pure ()
  | receipt :: rest => do
    replaceReceipt envelopeId receipt
    replaceReceipts envelopeId rest

/-- `receipts_by_member`: a new receipt takes the place of the old one of the same member. -/
def mergeReceipts (old : List DigestMemberReceipt) : List DigestMemberReceipt → List DigestMemberReceipt
  | [] => old
  | receipt :: rest =>
    if old.any fun r => r.member = receipt.member then
      mergeReceipts (old.map fun r => if r.member = receipt.member then receipt else r) rest
    else mergeReceipts (old ++ [receipt]) rest

def reconciledFields (current : DigestEnvelope) (effective : List DigestMemberReceipt) : EnvelopeFields :=
  let included := (effective.filter fun r => r.disposition = .included).map DigestMemberReceipt.member
  { current.toEnvelopeFields with
    members := included
    revision := current.revision + 1
    state := if included = [] then .cancelled else .claimed
    memberReceipts := mergeReceipts current.memberReceipts effective
    memberAssociations := current.memberAssociations.filter fun a => a.member ∈ included
    claimToken := if included = [] then none else current.claimToken
    claimedAt := if included = [] then none else current.claimedAt
    claimExpiresAt := if included = [] then none else current.claimExpiresAt
    retryAt := none }

def reconcileEnvelopeMembers (claim : DigestEnvelopeClaim) (receipts : List DigestMemberReceipt)
    (expectedRevision : ℕ) : StoreWork DigestEnvelope := do
  let s ← read
  let current ← orRaise (claimCurrent s claim expectedRevision)
    (.revisionConflict "digest-envelope" expectedRevision expectedRevision)
  raiseIf (current.state ≠ .claimed) (.revisionConflict "digest-envelope" expectedRevision current.revision)
  raiseIf (receipts.map DigestMemberReceipt.member ≠ current.members)
    (.valueError "receipts must cover the current ordered envelope members")
  let effective := receipts.map (effectiveReceipt bindings s current)
  replaceReceipts current.envelopeId effective
  let updated ← ofExcept (DigestEnvelope.build (reconciledFields current effective))
  let saved ← saveEnvelope updated expectedRevision
  raiseIf (saved = false) (.revisionConflict "digest-envelope" expectedRevision (expectedRevision + 1))
  pure updated

def beginEnvelopeSend (claim : DigestEnvelopeClaim) (expectedRevision attemptNumber : ℕ) (startedAt : Instant) :
    StoreWork (Option DigestEnvelope) := do
  let s ← read
  match claimCurrent s claim expectedRevision with
  | none => pure none
  | some current =>
    if current.state ≠ .claimed ∨ current.claimExpiresAt.all (fun expires => decide (expires ≤ startedAt)) ∨
        current.members.all (s.included bindings current.recipient current.windowId) = false then pure none
    else do
      let attempt ← ofExcept (DeliveryAttempt.build
        { attemptNumber := attemptNumber, state := .sending,
          idempotencyKey := digestEnvelopeIdempotencyKey current.windowId current.recipient,
          startedAt := startedAt, completedAt := none, errorCode := none, platformMessageId := none })
      if attemptNumber ≠ current.deliveryAttempts.length + 1 then pure none
      else do
        let updated ← ofExcept (DigestEnvelope.build { current.toEnvelopeFields with
          revision := current.revision + 1, state := .sending,
          deliveryAttempts := current.deliveryAttempts ++ [attempt], retryAt := none })
        let saved ← saveEnvelope updated expectedRevision
        if saved = false then pure none
        else do
          projectPublicAttempt current attempt
          pure (some updated)

def settles (attempt prior : DeliveryAttempt) : Bool :=
  attempt.attemptNumber = prior.attemptNumber && attempt.idempotencyKey = prior.idempotencyKey &&
    attempt.startedAt = prior.startedAt && attempt.completedAt.any fun completed => attempt.startedAt ≤ completed

def settledState : DeliveryState → Option DigestEnvelopeState
  | .sent => some .sent
  | .failed => some .failed
  | .unknown => some .unknown
  | .pending => none
  | .sending => none
  | .cancelled => none

def sendingCurrent (s : Database) (claim : DigestEnvelopeClaim) (expectedRevision : ℕ) :
    Option (DigestEnvelope × DeliveryAttempt) :=
  match claimCurrent s claim expectedRevision with
  | none => none
  | some current =>
    if current.state ≠ .sending ∨ current.claimedAt ≠ some claim.claimedAt ∨
        current.claimExpiresAt ≠ some claim.expiresAt then none
    else current.deliveryAttempts.getLast?.map fun prior => (current, prior)

def finishedFields (current : DigestEnvelope) (state : DigestEnvelopeState) (attempt : DeliveryAttempt)
    (retryAt : Option Instant) : EnvelopeFields :=
  { current.toEnvelopeFields with
    revision := current.revision + 1, state := state,
    deliveryAttempts := current.deliveryAttempts.dropLast ++ [attempt],
    claimToken := none, claimedAt := none, claimExpiresAt := none, retryAt := retryAt }

def completeEnvelopeSend (claim : DigestEnvelopeClaim) (attempt : DeliveryAttempt) (expectedRevision : ℕ)
    (retryAt : Option Instant) : StoreWork (Option DigestEnvelope) := do
  raiseIf (retryAt.isSome ∧ attempt.state ≠ .failed)
    (.valueError "retry_at is only valid for a known FAILED attempt")
  let s ← read
  match sendingCurrent s claim expectedRevision, settledState attempt.state with
  | some (current, prior), some state =>
    if settles attempt prior = false then pure none
    else do
      let updated ← ofExcept (DigestEnvelope.build (finishedFields current state attempt retryAt))
      let saved ← saveEnvelope updated expectedRevision
      if saved = false then pure none
      else do
        if publicWindow current.windowId then
          projectMembers attempt.toAttemptFields retryAt (fun _ => retryAt) current.memberAssociations
        else pure ()
        pure (some updated)
  | _, _ => pure none

def abortEnvelopeSend (claim : DigestEnvelopeClaim) (attempt : DeliveryAttempt) (expectedRevision : ℕ) :
    StoreWork (Option DigestEnvelope) :=
  if attempt.state ≠ .failed ∨ attempt.errorCode ≠ some "cancelled_before_dispatch" ∨
      attempt.platformMessageId ≠ none then pure none
  else do
    let s ← read
    match sendingCurrent s claim expectedRevision with
    | none => pure none
    | some (current, prior) =>
      if prior.state ≠ .sending ∨ settles attempt prior = false then pure none
      else do
        let state := if current.members = [] then .cancelled else .ready
        let updated ← ofExcept (DigestEnvelope.build (finishedFields current state attempt none))
        let saved ← saveEnvelope updated expectedRevision
        if saved = false then pure none
        else do
          projectPublicAttempt current attempt
          pure (some updated)

def recoveredFields (current : DigestEnvelope) (recoveredAt : Instant) : Except Failure EnvelopeFields :=
  if current.state = .claimed then
    .ok { current.toEnvelopeFields with
      revision := current.revision + 1, state := if current.members = [] then .cancelled else .ready,
      claimToken := none, claimedAt := none, claimExpiresAt := none, retryAt := none }
  else
    match current.deliveryAttempts.getLast? with
    | none => .error .typeError
    | some prior =>
      (DeliveryAttempt.build { prior.toAttemptFields with
        state := .unknown, completedAt := some recoveredAt, errorCode := none }).map fun attempt =>
          finishedFields current .unknown attempt none

def recoverRows (recoveredAt : Instant) : List EnvelopeRow → StoreWork (List DigestEnvelope)
  | [] => pure []
  | row :: rest => do
    let current := row.envelope
    let fields ← ofExcept (recoveredFields current recoveredAt)
    let updated ← ofExcept (DigestEnvelope.build fields)
    let _ ← saveEnvelope updated current.revision
    let changed ← recoverRows recoveredAt rest
    pure (updated :: changed)

def expiredClaim (before : Instant) (restart : Bool) (r : EnvelopeRow) : Bool :=
  r.state.claiming && (restart || r.claimExpiresAt.any fun expires => decide (expires ≤ before))

def byEnvelopeId (rows : List EnvelopeRow) : List EnvelopeRow :=
  rows.insertionSort fun a b => a.envelopeId ≤ b.envelopeId

def recoverExpiredEnvelopeClaims (before recoveredAt : Instant) (restart : Bool) : StoreWork (List DigestEnvelope) := do
  raiseIf (recoveredAt < before) (.valueError "recovered_at must not precede the recovery cutoff")
  let s ← read
  recoverRows recoveredAt (byEnvelopeId (s.envelopes.rows.filter (expiredClaim before restart)))

def retryFailedEnvelope (id : String) (expectedRevision : ℕ) (now : Instant) : StoreWork (Option DigestEnvelope) := do
  let s ← read
  match s.envelopes.get id with
  | none => pure none
  | some row =>
    let current := row.envelope
    if current.revision ≠ expectedRevision ∨ current.state ≠ .failed ∨
        current.retryAt.all (fun retry => decide (now < retry)) ∨ row.retryAt.all (fun retry => decide (now < retry)) ∨
        current.members.any (s.included bindings current.recipient current.windowId) = false then pure none
    else do
      let updated ← ofExcept (DigestEnvelope.build { current.toEnvelopeFields with
        revision := current.revision + 1, state := .ready,
        claimToken := none, claimedAt := none, claimExpiresAt := none, retryAt := none })
      let _ ← saveEnvelope updated expectedRevision
      pure (some updated)

end GameLink.Digest

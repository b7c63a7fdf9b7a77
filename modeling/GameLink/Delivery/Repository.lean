import GameLink.Store.Fences

namespace GameLink.Delivery

open Foundation Work Contracts Store

variable [Hashing]

def insertAttempt (event : EventId) (attempt : DeliveryAttempt) : StoreWork Unit := do
  let s ← read
  raiseIf (s.events.get event).isNone .integrityError
  let attempts ← orRaise (s.attempts.insert ⟨event, attempt.attemptNumber, attempt.state, attempt⟩)
    .uniqueConstraintViolation
  write fun s => { s with attempts := attempts }

def updateAttempts (p : AttemptRow → Bool) (attempt : DeliveryAttempt) : StoreWork ℕ := do
  let s ← read
  write fun s => { s with
    attempts := s.attempts.update p (fun a => { a with state := attempt.state, attempt := attempt }) fun _ => rfl }
  pure (s.attempts.matching p)

def attemptedFields (event : DeliveryEvent) (attempt : DeliveryAttempt) (retryAt : Option Instant) : EventFields :=
  { event.toEventFields with state := attempt.state, attempt := some attempt, retryAt := retryAt }

/-- `UPDATE b04_delivery_events … WHERE … AND state=? AND attempt_number=?`: whether the row was there. -/
def updateAttempted (event updated : DeliveryEvent) (attempt : DeliveryAttempt) (retryAt : Option Instant)
    (expectedState : DeliveryState) (attemptNumber : ℕ) : StoreWork Bool := do
  let changed ← updateEvents
    (fun r => decide (r.id = event.id) && (r.state = expectedState && r.attemptNumber = attemptNumber))
    (fun r => { r with
      state := attempt.state, attemptNumber := attempt.attemptNumber, retryAt := retryAt, event := updated })
    fun _ => rfl
  pure (changed = 1)

/-- What `record_attempt` refuses: a state or a number that has moved on, another key, or an attempt that
is not over. -/
def attemptConflicts (row : EventRow) (attempt : DeliveryAttempt) (expectedState : DeliveryState) : Bool :=
  row.event.state ≠ expectedState || attempt.idempotencyKey ≠ row.event.idempotencyKey ||
    attempt.attemptNumber ≠ (if expectedState = .sending then row.attemptNumber else row.attemptNumber + 1) ||
    (expectedState = .sending && row.event.attempt.all fun old =>
      old.state ≠ .sending || attempt.startedAt ≠ old.startedAt) ||
    !attempt.terminal

/-- The ledger's side of `record_attempt`: the entry in flight is settled, or a new entry is added. -/
def recordLedger (event : DeliveryEvent) (attempt : DeliveryAttempt) (expectedState : DeliveryState) :
    StoreWork Unit :=
  if expectedState = .sending then do
    let settled ← updateAttempts (fun a => decide (a.key = (event.id, attempt.attemptNumber)) &&
      (a.state = .sending && some a.attempt = event.attempt)) attempt
    raiseIf (settled ≠ 1) (.revisionConflict "delivery-attempt" attempt.attemptNumber attempt.attemptNumber)
  else insertAttempt event.id attempt

def recordAttempt (id : EventId) (attempt : DeliveryAttempt) (expectedState : DeliveryState)
    (retryAt : Option Instant) : StoreWork DeliveryEvent := do
  raiseIf (retryAt.isSome ∧ attempt.state ≠ .failed)
    (.valueError "retry_at is only valid for a known FAILED attempt")
  let s ← read
  let row ← orRaise (s.events.get id) (.keyError "delivery event does not exist")
  let event := row.event
  let conflict := Failure.revisionConflict "delivery-event" row.attemptNumber attempt.attemptNumber
  raiseIf (attemptConflicts row attempt expectedState = true) conflict
  raiseIf (s.hasImmutableDigestAssociation event.id = true ∧
    (expectedState = .pending ∨ expectedState = .failed ∨ attempt.state = .cancelled)) conflict
  let updated ← ofExcept (DeliveryEvent.build (attemptedFields event attempt retryAt))
  let changed ← updateAttempted event updated attempt retryAt expectedState row.attemptNumber
  raiseIf (changed = false) conflict
  recordLedger event attempt expectedState
  pure updated

def due (retryAt : Option Instant) (now : Instant) : Bool := retryAt.any fun retry => retry ≤ now

def activeInstant (s : Database) (id : EventId) : Bool :=
  (s.subscriptions.get id.subscriptionId).any fun row =>
    row.revision = id.subscriptionRevision && row.status = .active &&
      row.record.subscriptionId = id.subscriptionId && row.record.revision = id.subscriptionRevision &&
      row.record.status = .active && row.record.notificationMode = "instant"

/-- Whether `claim_sending` may take the event: its subscription and gate are current, no digest is
sending it, and it is pending or due for a retry. -/
def claimable (bindings : GateBindings) (s : Database) (id : EventId) (row : EventRow) (expectedState : DeliveryState)
    (attemptNumber : ℕ) (now : Instant) : Bool :=
  s.eventQualified bindings row row.event && !s.hasImmutableDigestAssociation row.event.id && activeInstant s id &&
    row.event.state = expectedState && (expectedState = .pending || expectedState = .failed) &&
    attemptNumber = row.attemptNumber + 1 &&
    (expectedState ≠ .failed || (due row.event.retryAt now && due row.retryAt now))

def claimSending (bindings : GateBindings) (id : EventId) (expectedState : DeliveryState) (attemptNumber : ℕ)
    (startedAt now : Instant) : StoreWork (Option DeliveryEvent) := do
  raiseIf (now < startedAt) (.valueError "started_at cannot be later than now")
  let s ← read
  match s.events.get id with
  | none => pure none
  | some row =>
    if claimable bindings s id row expectedState attemptNumber now = false then pure none
    else do
      let event := row.event
      let attempt ← ofExcept (DeliveryAttempt.build
        { attemptNumber := attemptNumber, state := .sending, idempotencyKey := event.idempotencyKey,
          startedAt := startedAt, completedAt := none, errorCode := none, platformMessageId := none })
      let updated ← ofExcept (DeliveryEvent.build (attemptedFields event attempt none))
      let changed ← updateAttempted event updated attempt none expectedState row.attemptNumber
      if changed = false then pure none
      else do
        insertAttempt event.id attempt
        pure (some updated)

def settleUnknown (event : DeliveryEvent) (old : DeliveryAttempt) (completedAt : Instant) :
    StoreWork (Option DeliveryEvent) := do
  let attempt ← ofExcept (DeliveryAttempt.build
    { old.toAttemptFields with state := .unknown, completedAt := some completedAt, errorCode := none })
  let updated ← ofExcept (DeliveryEvent.build (attemptedFields event attempt none))
  let changed ← updateAttempted event updated attempt none .sending old.attemptNumber
  if changed = false then pure none
  else do
    let settled ← updateAttempts (fun a => decide (a.key = (event.id, old.attemptNumber)) && a.state = .sending) attempt
    raiseIf (settled ≠ 1) (.revisionConflict "delivery-attempt" old.attemptNumber old.attemptNumber)
    pure (some updated)

def markSendingUnknown (id : EventId) (expectedAttemptNumber : ℕ) (expectedStartedAt completedAt : Instant) :
    StoreWork (Option DeliveryEvent) := do
  let s ← read
  match s.events.get id with
  | none => pure none
  | some row =>
    match row.event.attempt with
    | none => pure none
    | some old =>
      if row.event.state ≠ .sending ∨ old.attemptNumber ≠ expectedAttemptNumber ∨
          old.startedAt ≠ expectedStartedAt ∨ completedAt < old.startedAt then pure none
      else settleUnknown row.event old completedAt

def recoverEvents (before : Instant) : List (DeliveryEvent × DeliveryAttempt) → StoreWork (List DeliveryEvent)
  | [] => pure []
  | (event, attempt) :: rest => do
    let changed ← settleUnknown event attempt before
    let recovered ← recoverEvents before rest
    pure (changed.toList ++ recovered)

def inEventOrder (a b : EventRow) : Bool :=
  a.id.eventKey < b.id.eventKey || (a.id.eventKey = b.id.eventKey &&
    (a.id.eventVersion < b.id.eventVersion || (a.id.eventVersion = b.id.eventVersion &&
      a.id.subscriptionId ≤ b.id.subscriptionId)))

def staleSends (s : Database) (before : Instant) : List (DeliveryEvent × DeliveryAttempt) :=
  ((s.events.rows.filter fun r => r.state = .sending).insertionSort fun a b => inEventOrder a b = true).filterMap
    fun r => (r.event.attempt.filter fun a => decide (a.startedAt ≤ before)).map fun a => (r.event, a)

def recoverStaleSending (before : Instant) : StoreWork (List DeliveryEvent) := do
  let s ← read
  recoverEvents before (staleSends s before)

end GameLink.Delivery

import GameLink.Contracts.Identity
import GameLink.Foundation.Runs
import GameLink.Foundation.Table
import GameLink.Foundation.Transaction

namespace GameLink.Outputs

open Foundation Work Contracts

inductive OutputFailure where
  | typeError (message : String)
  | valueError (message : String)
  | rootOutputConflict (message : String)
  | integrityError
  | uniqueConstraintViolation
  deriving DecidableEq

inductive RootOutputState where
  | claimed | sending | completed | unknown
  deriving DecidableEq

inductive RootOutputOutcome where
  | message | toolReturned | subscriptionEnqueued | controlledResult
  deriving DecidableEq

inductive MessageStatus where
  | accepted | failed | unknown
  deriving DecidableEq

structure MessageReceipt where
  status : MessageStatus
  platformMessageId : Option String
  deriving DecidableEq

structure RootOutputClaim where
  rootInvocationId : String
  outputIdentity : String
  payloadFingerprint : String
  state : RootOutputState
  ownerToken : String
  claimGeneration : ℕ
  claimedAt : Instant
  leaseExpiresAt : Instant
  outcome : Option RootOutputOutcome
  receipt : Option MessageReceipt
  errorCode : Option String
  deriving DecidableEq

def RootOutputState.terminal : RootOutputState → Bool
  | completed => true
  | unknown => true
  | claimed => false
  | sending => false

def requireText (value field : String) : Option OutputFailure :=
  if value = "" ∨ 256 < value.length ∨ (value.toList.any fun c => c.toNat < 32 || c.toNat = 127) then
    some (.valueError (field ++ " must be bounded non-control text"))
  else none

def hexDigit (c : Char) : Bool := ('0' ≤ c && c ≤ '9') || ('a' ≤ c && c ≤ 'f')

def boundedIdentifier (value field : String) : Option OutputFailure :=
  if !identifier value || value.toList.any fun c => c = '/' || c = '\\' || c = '\n' then
    some (.valueError (field ++ " must be a bounded identifier"))
  else none

def checkState (c : RootOutputClaim) : Option OutputFailure :=
  if c.state = .completed then
    if c.outcome = none then some (.valueError "completed output requires its route outcome")
    else if (c.outcome = some .message) ≠ (c.receipt.isSome = true) then
      some (.valueError "only message outcomes carry an exact MessageReceipt")
    else if c.errorCode ≠ none ∧ c.outcome ≠ some .controlledResult then
      some (.valueError "only controlled results may carry an error code")
    else if c.outcome = some .controlledResult ∧ c.errorCode = none then
      some (.valueError "controlled result requires a stable error code")
    else none
  else if c.outcome ≠ none ∨ c.receipt ≠ none then
    some (.valueError "unfinished or recovered outputs cannot carry an outcome receipt")
  else if c.state = .unknown ∧ c.errorCode ≠ some "interrupted_send" then
    some (.valueError "recovered UNKNOWN output requires interrupted_send state")
  else if (c.state = .claimed ∨ c.state = .sending) ∧ c.errorCode ≠ none then
    some (.valueError "live output claims cannot carry an error code")
  else none

def checkClaim (c : RootOutputClaim) : Option OutputFailure :=
  [requireText c.rootInvocationId "root_invocation_id", requireText c.outputIdentity "output_identity",
    if c.payloadFingerprint.length ≠ 64 ∨ (c.payloadFingerprint.toList.any fun x => !hexDigit x) then
      some (.valueError "payload_fingerprint must be a lowercase SHA-256 hex digest") else none,
    requireText c.ownerToken "owner_token",
    if c.claimGeneration < 1 then some (.valueError "claim_generation must be a positive integer") else none,
    if c.leaseExpiresAt ≤ c.claimedAt then
      some (.valueError "output claim lease must expire after it is claimed") else none,
    c.errorCode.elim none fun e => boundedIdentifier e "error_code",
    checkState c].findSome? id

def RootOutputClaim.build (c : RootOutputClaim) : Except OutputFailure RootOutputClaim :=
  match checkClaim c with
  | some e => .error e
  | none => .ok c

structure OutputRow where
  claim : RootOutputClaim
  updatedAt : Instant

def OutputRow.root (r : OutputRow) : String := r.claim.rootInvocationId

def OutputRow.checked (r : OutputRow) : Bool :=
  r.claim.payloadFingerprint.length = 64 && 1 ≤ r.claim.claimGeneration &&
    match r.claim.state with
    | .completed => r.claim.outcome.isSome && (r.claim.outcome = some .message) = (r.claim.receipt.isSome = true) &&
        (r.claim.outcome = some .controlledResult) = (r.claim.errorCode.isSome = true)
    | .unknown => r.claim.outcome.isNone && r.claim.receipt.isNone && r.claim.errorCode = some "interrupted_send"
    | .claimed => r.claim.outcome.isNone && r.claim.receipt.isNone && r.claim.errorCode.isNone
    | .sending => r.claim.outcome.isNone && r.claim.receipt.isNone && r.claim.errorCode.isNone

structure OutputStore where
  rows : Table OutputRow.root
  nextGeneration : ℕ

abbrev OutputWork := Work OutputStore OutputFailure

def readRow (r : OutputRow) : Except OutputFailure RootOutputClaim := r.claim.build

def updateRows (p : OutputRow → Bool) (f : OutputRow → OutputRow) (hf : ∀ r, (f r).root = r.root) : OutputWork ℕ := do
  let s ← read
  raiseIf (s.rows.rows.any fun r => p r && !(f r).checked) .integrityError
  write fun s => { s with rows := s.rows.update p f hf }
  pure (s.rows.matching p)

def lookup (root : String) : OutputWork RootOutputClaim := do
  let s ← read
  let row ← orRaise (s.rows.get root) (.typeError "row is gone")
  ofExcept (readRow row)

def nextGeneration : OutputWork ℕ := do
  let s ← read
  write fun s => { s with nextGeneration := s.nextGeneration + 1 }
  pure s.nextGeneration

structure ClaimRequest where
  rootInvocationId : String
  outputIdentity : String
  payloadFingerprint : String
  ownerToken : String
  now : Instant
  leaseExpiresAt : Instant

def expired (cutoff : Instant) (r : OutputRow) : Bool := r.claim.state.terminal && decide (r.updatedAt < cutoff)

def ClaimRequest.first (q : ClaimRequest) (generation : ℕ) : RootOutputClaim where
  rootInvocationId := q.rootInvocationId
  outputIdentity := q.outputIdentity
  payloadFingerprint := q.payloadFingerprint
  state := .claimed
  ownerToken := q.ownerToken
  claimGeneration := generation
  claimedAt := q.now
  leaseExpiresAt := q.leaseExpiresAt
  outcome := none
  receipt := none
  errorCode := none

def claimFirst (q : ClaimRequest) : OutputWork RootOutputClaim := do
  let generation ← nextGeneration
  let candidate ← ofExcept (q.first generation).build
  let s ← read
  raiseIf ((OutputRow.mk candidate q.now).checked = false) .integrityError
  let rows ← orRaise (s.rows.insert ⟨candidate, q.now⟩) .uniqueConstraintViolation
  write fun s => { s with rows := rows }
  pure candidate

def RootOutputClaim.interrupted (c : RootOutputClaim) : RootOutputClaim :=
  { c with state := .unknown, outcome := none, receipt := none, errorCode := some "interrupted_send" }

def interrupt (updatedAt : Instant) (r : OutputRow) : OutputRow := ⟨r.claim.interrupted, updatedAt⟩

theorem interrupt_root (updatedAt : Instant) (r : OutputRow) : (interrupt updatedAt r).root = r.root := rfl

def retake (ownerToken : String) (now lease : Instant) (generation : ℕ) (r : OutputRow) : OutputRow :=
  ⟨{ r.claim with ownerToken := ownerToken, claimedAt := now, leaseExpiresAt := lease, claimGeneration := generation },
    now⟩

theorem retake_root (ownerToken : String) (now lease : Instant) (generation : ℕ) (r : OutputRow) :
    (retake ownerToken now lease generation r).root = r.root := rfl

def saveInterrupted (current : RootOutputClaim) (now : Instant) : OutputWork RootOutputClaim := do
  let unknown ← ofExcept current.interrupted.build
  let _ ← updateRows (fun r => decide (r.root = current.rootInvocationId) &&
    (decide (r.claim.outputIdentity = current.outputIdentity) &&
      decide (r.claim.claimGeneration = current.claimGeneration))) (interrupt now) (interrupt_root now)
  pure unknown

def claimAgain (q : ClaimRequest) (current : RootOutputClaim) : OutputWork RootOutputClaim := do
  let generation ← nextGeneration
  let _ ← updateRows (fun r => decide (r.root = q.rootInvocationId) &&
    (decide (r.claim.claimGeneration = current.claimGeneration) && (decide (r.claim.state = .claimed) &&
      decide (r.claim.leaseExpiresAt ≤ q.now))))
    (retake q.ownerToken q.now q.leaseExpiresAt generation) (retake_root q.ownerToken q.now q.leaseExpiresAt generation)
  lookup q.rootInvocationId

def claimExisting (q : ClaimRequest) (row : OutputRow) : OutputWork RootOutputClaim := do
  let current ← ofExcept (readRow row)
  raiseIf (current.outputIdentity ≠ q.outputIdentity ∨ current.payloadFingerprint ≠ q.payloadFingerprint)
    (.rootOutputConflict "root invocation is already bound to another output identity or payload")
  if current.state.terminal = true ∨ q.now < current.leaseExpiresAt then pure current
  else if current.state = .sending then saveInterrupted current q.now
  else claimAgain q current

def claim (retention : ℤ) (q : ClaimRequest) : OutputWork RootOutputClaim := do
  raiseIf (q.leaseExpiresAt ≤ q.now) (.valueError "claim lease must expire after now")
  write fun s => { s with rows := s.rows.delete (expired (q.now - retention)) }
  let s ← read
  match s.rows.get q.rootInvocationId with
  | none => claimFirst q
  | some row => claimExisting q row

def atClaim (c : RootOutputClaim) (state : RootOutputState) (r : OutputRow) : Bool :=
  decide (r.root = c.rootInvocationId) && (decide (r.claim.outputIdentity = c.outputIdentity) &&
    (decide (r.claim.payloadFingerprint = c.payloadFingerprint) && (decide (r.claim.ownerToken = c.ownerToken) &&
      (decide (r.claim.claimGeneration = c.claimGeneration) && decide (r.claim.state = state)))))

def updateClaimed (root : String) (p : OutputRow → Bool) (f : OutputRow → OutputRow)
    (hf : ∀ r, (f r).root = r.root) : OutputWork (Option RootOutputClaim) := do
  let n ← updateRows p f hf
  if n ≠ 1 then pure none
  else do
    let claim ← lookup root
    pure (some claim)

def beginRow (now lease : Instant) (r : OutputRow) : OutputRow :=
  ⟨{ r.claim with state := .sending, claimedAt := now, leaseExpiresAt := lease }, now⟩

theorem beginRow_root (now lease : Instant) (r : OutputRow) : (beginRow now lease r).root = r.root := rfl

def beginSending (c : RootOutputClaim) (now lease : Instant) : OutputWork (Option RootOutputClaim) := do
  raiseIf (c.state ≠ .claimed) (.typeError "begin_sending requires a claimed output")
  raiseIf (lease ≤ now) (.valueError "send lease must expire after now")
  updateClaimed c.rootInvocationId (fun r => atClaim c .claimed r && decide (now < r.claim.leaseExpiresAt))
    (beginRow now lease) (beginRow_root now lease)

def completeRow (outcome : RootOutputOutcome) (receipt : Option MessageReceipt) (errorCode : Option String)
    (completedAt : Instant) (r : OutputRow) : OutputRow :=
  ⟨{ r.claim with state := .completed, outcome := some outcome, receipt := receipt, errorCode := errorCode },
    completedAt⟩

theorem completeRow_root (outcome : RootOutputOutcome) (receipt : Option MessageReceipt) (errorCode : Option String)
    (completedAt : Instant) (r : OutputRow) : (completeRow outcome receipt errorCode completedAt r).root = r.root := rfl

def expectedState (receipt : Option MessageReceipt) : RootOutputState := if receipt.isSome then .sending else .claimed

def complete (c : RootOutputClaim) (receipt : Option MessageReceipt) (outcome : RootOutputOutcome)
    (completedAt : Instant) (errorCode : Option String) : OutputWork (Option RootOutputClaim) := do
  raiseIf ((outcome = .message) ≠ (receipt.isSome = true)) (.valueError "only a message outcome carries a MessageReceipt")
  raiseIf (c.state ≠ expectedState receipt) (.typeError "claim state does not match the output route")
  raiseIf (outcome = .controlledResult ∧ errorCode = none) (.valueError "controlled result requires an error code")
  raiseIf (outcome ≠ .controlledResult ∧ errorCode ≠ none)
    (.valueError "error_code is only valid for controlled results")
  updateClaimed c.rootInvocationId (atClaim c (expectedState receipt))
    (completeRow outcome receipt errorCode completedAt) (completeRow_root outcome receipt errorCode completedAt)

def abortBeforeDispatch (c : RootOutputClaim) (completedAt : Instant) (errorCode : String) :
    OutputWork (Option RootOutputClaim) := do
  raiseIf (c.state ≠ .sending ∨ c.receipt ≠ none)
    (.typeError "abort_before_dispatch requires a receipt-free sending claim")
  raiseIf (identifier errorCode = false) (.valueError "abort_before_dispatch requires an error code")
  updateClaimed c.rootInvocationId (fun r => atClaim c .sending r && r.claim.receipt.isNone)
    (completeRow .controlledResult none (some errorCode) completedAt)
    (completeRow_root .controlledResult none (some errorCode) completedAt)

def stale (before : Instant) (r : OutputRow) : Bool :=
  decide (r.claim.state = .sending) && decide (r.claim.leaseExpiresAt ≤ before)

def recoverRows (before recoveredAt : Instant) : List OutputRow → OutputWork (List RootOutputClaim)
  | [] => pure []
  | row :: rows => do
    let current ← ofExcept (readRow row)
    let unknown ← ofExcept current.interrupted.build
    let n ← updateRows (fun r => decide (r.root = current.rootInvocationId) &&
      (decide (r.claim.outputIdentity = current.outputIdentity) && (decide (r.claim.ownerToken = current.ownerToken) &&
        (decide (r.claim.claimGeneration = current.claimGeneration) && stale before r))))
      (interrupt recoveredAt) (interrupt_root recoveredAt)
    let recovered ← recoverRows before recoveredAt rows
    pure (if n = 1 then unknown :: recovered else recovered)

def recoverExpired (before recoveredAt : Instant) : OutputWork (List RootOutputClaim) := do
  let s ← read
  recoverRows before recoveredAt ((s.rows.rows.filter (stale before)).insertionSort fun a b => a.root ≤ b.root)

inductive OutputCall where
  | claim (retention : ℤ) (q : ClaimRequest)
  | beginSending (c : RootOutputClaim) (now lease : Instant)
  | complete (c : RootOutputClaim) (receipt : Option MessageReceipt) (outcome : RootOutputOutcome)
      (completedAt : Instant) (errorCode : Option String)
  | abortBeforeDispatch (c : RootOutputClaim) (completedAt : Instant) (errorCode : String)
  | recoverExpired (before recoveredAt : Instant)

def OutputCall.run (s : OutputStore) : OutputCall → OutputStore
  | claim retention q => (transaction (Outputs.claim retention q) s).2
  | beginSending c now lease => (transaction (Outputs.beginSending c now lease) s).2
  | complete c receipt outcome completedAt errorCode =>
    (transaction (Outputs.complete c receipt outcome completedAt errorCode) s).2
  | abortBeforeDispatch c completedAt errorCode => (transaction (Outputs.abortBeforeDispatch c completedAt errorCode) s).2
  | recoverExpired before recoveredAt => (transaction (Outputs.recoverExpired before recoveredAt) s).2

end GameLink.Outputs

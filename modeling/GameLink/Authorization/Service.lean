import GameLink.Authorization.Repository
import GameLink.Foundation.Runs

namespace GameLink.Authorization

open Foundation Work Contracts

inductive AuthCall where
  | currentSession (sessionId : String)
  | nextGeneration (principalId moduleId : String) (expected : ℕ) (sessionId : String)
  | saveSession (session : LoginSession) (expected : ℕ)
  | supersedePending (principalId moduleId : String) (generation : ℕ)
  | expirePendingOnRestart
  | currentGrant (grantId : String)
  | revokeGrant (grant : Grant) (expected : ℕ)
  | revokeGrantWithInvalidation (grant : Grant) (expected : ℕ) (invalidation : Option AuthFailure)
  | completeLogin (manager : Option KeyManager) (session : LoginSession) (grant : Grant) (expectedGeneration : ℕ)
      (expected : Option ℕ)
  | resetKeys (refusal : Option AuthFailure) (operationId : String)

def AuthCall.run (s : AuthStore) (now : Instant) : AuthCall → AuthStore
  | currentSession sessionId => (transaction (Authorization.currentSession sessionId now) s).2
  | nextGeneration principalId moduleId expected sessionId =>
    (transaction (Authorization.nextGeneration principalId moduleId expected sessionId now) s).2
  | saveSession session expected => (transaction (Authorization.saveSession session expected now) s).2
  | supersedePending principalId moduleId generation =>
    (transaction (Authorization.supersedePending principalId moduleId generation) s).2
  | expirePendingOnRestart => (transaction Authorization.expirePendingOnRestart s).2
  | currentGrant grantId => (transaction (Authorization.currentGrant grantId now) s).2
  | revokeGrant grant expected => (transaction (revokeGrantInUnit grant expected false) s).2
  | revokeGrantWithInvalidation grant expected invalidation =>
    (transaction (Authorization.revokeGrantWithInvalidation grant expected invalidation) s).2
  | completeLogin manager session grant expectedGeneration expected =>
    (transaction (Authorization.completeLogin manager session grant expectedGeneration expected now) s).2
  | resetKeys refusal operationId => (transaction (Authorization.resetKeys refusal operationId) s).2

def AuthCall.completes (s : AuthStore) (now : Instant) : AuthCall → Option String
  | completeLogin manager session grant expectedGeneration expected =>
    match (transaction (Authorization.completeLogin manager session grant expectedGeneration expected now) s).1 with
    | .ok _ => some session.sessionId
    | .error _ => none
  | _ => none

inductive AuthorizationError where
  | permission (message : String)
  | conflict
  | notFound
  | unavailable (message : String)
  | loginSessionExpired
  deriving DecidableEq

def forbidden : AuthorizationError := .permission "authorization operation is not permitted"

inductive Outcome where
  | opened (sessionId : String)
  | completed (grant : GrantReference)
  | revoked
  | raised (error : AuthorizationError)
  deriving DecidableEq

structure Scope where
  principalId : String
  moduleId : String
  adapterId : String
  conversationId : String

def Scope.key (c : Scope) : String × String := (c.principalId, c.moduleId)

structure Memory where
  generations : String × String → Option ℕ
  currentSessions : String × String → Option String
  sessionConversations : String → Option (String × String)

def Memory.empty : Memory := ⟨fun _ => none, fun _ => none, fun _ => none⟩

def Memory.record (m : Memory) (scope : Scope) (session : LoginSession) : Memory where
  generations := Function.update m.generations scope.key (some session.generation)
  currentSessions := Function.update m.currentSessions scope.key (some session.sessionId)
  sessionConversations :=
    Function.update m.sessionConversations session.sessionId (some (scope.adapterId, scope.conversationId))

def Memory.forget (m : Memory) (scope : Scope) : Memory where
  generations := m.generations
  currentSessions := Function.update m.currentSessions scope.key none
  sessionConversations :=
    match m.currentSessions scope.key with
    | none => m.sessionConversations
    | some sessionId => Function.update m.sessionConversations sessionId none

inductive Flow where
  | idle
  | opening (scope : Scope) (expected attempts : ℕ)
  | reading (scope : Scope) (sessionId : String) (generation : Option ℕ)
  | verifying (scope : Scope) (session : LoginSession)
  | looking (scope : Scope) (session : LoginSession) (grant : Grant)
  | listing (scope : Scope) (session : LoginSession) (grant : Grant) (existing : Option Grant)
  | committing (scope : Scope) (session : LoginSession) (grant : Grant) (expected : Option ℕ)
  | revoking (scope : Scope) (grant : GrantReference)
  | withdrawing (scope : Scope) (current : Grant)
  | ended (outcome : Outcome)

def Flow.sessionId : Flow → Option String
  | reading _ sessionId _ => some sessionId
  | verifying _ session => some session.sessionId
  | looking _ session _ => some session.sessionId
  | listing _ session _ _ => some session.sessionId
  | committing _ session _ _ => some session.sessionId
  | _ => none

inductive FlowStep where
  | beginLogin (scope : Scope)
  | openSession (sessionId : String) (live : Bool)
  | completeLogin (scope : Scope) (sessionId : String) (generation : Option ℕ)
  | readSession (now : Instant)
  | verify (answer : Option Grant) (secret : Bool)
  | readGrant
  | list
  | commit (manager : Option KeyManager)
  | revoke (scope : Scope) (grant : GrantReference)
  | readRevoked
  | withdraw (invalidation : Option AuthFailure)
  | fail (error : AuthorizationError)

/-- The store, and the requests of the runtime that works on it. `completions` logs the sessions that the completions
that went through have completed. -/
structure World where
  store : AuthStore
  clock : Instant
  memory : Memory
  flows : ℕ → Flow
  completions : List String

namespace World

def call (w : World) (c : AuthCall) : World :=
  { w with store := c.run w.store w.clock, completions := w.completions ++ (c.completes w.store w.clock).toList }

def put (w : World) (i : ℕ) (flow : Flow) : World := { w with flows := Function.update w.flows i flow }

def fail (w : World) (i : ℕ) (error : AuthorizationError) : World := w.put i (.ended (.raised error))

end World

/-- What `_begin_login_locked` does with the answer of `next_generation`. -/
def opened (w : World) (i : ℕ) (scope : Scope) (expected attempts : ℕ) (live : Bool) :
    Except AuthFailure LoginSession → World
  | .ok session =>
    if live then { w with memory := w.memory.record scope session }.put i (.ended (.opened session.sessionId))
    else w.fail i forbidden
  | .error (.revisionConflict resource _ actual) =>
    if resource ≠ "login_session_generation" then w.fail i .conflict
    else if attempts ≤ 1 then w.fail i .conflict
    else w.put i (.opening scope (if actual < expected then expected + 1 else actual) (attempts - 1))
  | .error _ => w.fail i (.unavailable "login session is unavailable")

def accepts (m : Memory) (scope : Scope) (generation : Option ℕ) (now : Instant) (session : LoginSession) : Bool :=
  session.ofPair scope.principalId scope.moduleId && session.status = .pending && now < session.expiresAt &&
    generation.all (· = session.generation) && m.currentSessions scope.key = some session.sessionId &&
    m.generations scope.key = some session.generation

def foundSession (w : World) (i : ℕ) (scope : Scope) (generation : Option ℕ) (now : Instant) :
    Except AuthFailure (Option LoginSession) → World
  | .error _ => w.fail i (.unavailable "login session is unavailable")
  | .ok none => w.fail i .loginSessionExpired
  | .ok (some session) =>
    if !accepts w.memory scope generation now session then w.fail i .loginSessionExpired
    else if (w.memory.sessionConversations session.sessionId).all (· = (scope.adapterId, scope.conversationId)) then
      w.put i (.verifying scope session)
    else w.fail i forbidden

def verified (w : World) (i : ℕ) (scope : Scope) (session : LoginSession) (secret : Bool) : Option Grant → World
  | none => w.fail i (.permission "authorization exchange is unverified")
  | some grant =>
    if grant.ofPair scope.principalId scope.moduleId ∧ grant.status = .active ∧ hasSecret grant = true ∧
        secret = true then
      w.put i (.looking scope session grant)
    else w.fail i (.unavailable "authorization exchange is unavailable")

def foundGrant (w : World) (i : ℕ) (scope : Scope) (session : LoginSession) (grant : Grant) :
    Except AuthFailure (Option Grant) → World
  | .error _ => w.fail i (.unavailable "grant authority is unavailable")
  | .ok none => w.put i (.listing scope session grant none)
  | .ok (some existing) =>
    if ¬ existing.ofPair scope.principalId scope.moduleId then w.fail i .conflict
    else if existing.status = .active then
      w.put i (.committing scope session { grant with revision := existing.revision + 1 } (some existing.revision))
    else w.put i (.listing scope session grant (some existing))

def accountRow (grants : List Grant) (grant : Grant) : Except AuthorizationError (Option Grant) :=
  match grants.filter fun g => g.accountId = grant.accountId with
  | [] => .ok none
  | [row] => .ok (some row)
  | _ => .error .conflict

def reauthorized (grant : Grant) (existing row : Option Grant) : Except AuthorizationError (Grant × Option ℕ) :=
  match row.filter fun r => r.status = .revoked with
  | some row =>
    if existing.any fun e => e.grantId ≠ row.grantId then .error .conflict
    else .ok ({ grant with grantId := row.grantId, revision := row.revision + 1 }, some row.revision)
  | none => if existing.isSome then .error .conflict else .ok (grant, none)

def listed (w : World) (i : ℕ) (scope : Scope) (session : LoginSession) (grant : Grant) (existing : Option Grant)
    (grants : List Grant) : World :=
  match (accountRow grants grant).bind (reauthorized grant existing) with
  | .error error => w.fail i error
  | .ok (grant, expected) => w.put i (.committing scope session grant expected)

def remembered (m : Memory) (scope : Scope) (session : LoginSession) : Memory :=
  if (m.generations scope.key).getD session.generation ≤ session.generation then m.record scope session else m

def completionHolds (scope : Scope) (session : LoginSession) (answer : LoginSession × Grant) : Bool :=
  answer.1.sessionId = session.sessionId && answer.1.generation = session.generation &&
    answer.1.status = .completed && answer.2.status = .active && answer.2.ofPair scope.principalId scope.moduleId

def committedLogin (w : World) (i : ℕ) (scope : Scope) (session : LoginSession) :
    Except AuthFailure (LoginSession × Grant) → World
  | .error (.valueError _) => w.fail i (.unavailable "authorization could not be committed")
  | .error _ => w.fail i .conflict
  | .ok answer =>
    if completionHolds scope session answer then
      { w with memory := remembered w.memory scope session }.put i
        (.ended (.completed ⟨answer.2.grantId, answer.2.revision⟩))
    else w.fail i (.unavailable "authorization repository returned invalid state")

def foundRevoked (w : World) (i : ℕ) (scope : Scope) (reference : GrantReference) :
    Except AuthFailure (Option Grant) → World
  | .error _ => w.fail i (.unavailable "grant authority is unavailable")
  | .ok none => w.fail i .notFound
  | .ok (some grant) =>
    if ¬ grant.ofPair scope.principalId scope.moduleId ∨ grant.revision ≠ reference.revision then w.fail i .conflict
    else if grant.status = .revoked then w.fail i .conflict
    else w.put i (.withdrawing scope grant)

def withdrawn (w : World) (i : ℕ) (scope : Scope) : Except AuthFailure Grant → World
  | .ok _ => { w with memory := w.memory.forget scope }.put i (.ended .revoked)
  | .error (.revisionConflict _ _ _) => w.fail i .conflict
  | .error _ => w.fail i (.unavailable "grant revocation is unavailable")

def maxGenerationRetries : ℕ := 8

def boundedText (value : String) : Bool := identifier value && !value.toList.any fun c => c.toNat < 32

def World.flow (w : World) (i : ℕ) (step : FlowStep) : World :=
  match w.flows i, step with
  | .idle, .beginLogin scope => w.put i (.opening scope ((w.memory.generations scope.key).getD 0) maxGenerationRetries)
  | .opening scope expected attempts, .openSession sessionId live =>
    opened (w.call (.nextGeneration scope.principalId scope.moduleId expected sessionId)) i scope expected attempts live
      (transaction (nextGeneration scope.principalId scope.moduleId expected sessionId w.clock) w.store).1
  | .idle, .completeLogin scope sessionId generation =>
    if boundedText sessionId then w.put i (.reading scope sessionId generation) else w.fail i .notFound
  | .reading scope sessionId generation, .readSession now =>
    foundSession (w.call (.currentSession sessionId)) i scope generation now
      (transaction (currentSession sessionId w.clock) w.store).1
  | .verifying scope session, .verify answer secret => verified w i scope session secret answer
  | .looking scope session grant, .readGrant =>
    foundGrant (w.call (.currentGrant grant.grantId)) i scope session grant
      (transaction (currentGrant grant.grantId w.clock) w.store).1
  | .listing scope session grant existing, .list =>
    listed w i scope session grant existing (listFor w.store scope.principalId scope.moduleId)
  | .committing scope session grant expected, .commit manager =>
    committedLogin
      (w.call (.completeLogin manager (session.withStatus .completed) grant session.generation expected)) i scope session
      (transaction (completeLogin manager (session.withStatus .completed) grant session.generation expected w.clock)
        w.store).1
  | .idle, .revoke scope reference => w.put i (.revoking scope reference)
  | .revoking scope reference, .readRevoked =>
    foundRevoked (w.call (.currentGrant reference.grantId)) i scope reference
      (transaction (currentGrant reference.grantId w.clock) w.store).1
  | .withdrawing scope current, .withdraw invalidation =>
    withdrawn (w.call (.revokeGrantWithInvalidation current current.revision invalidation)) i scope
      (transaction (revokeGrantWithInvalidation current current.revision invalidation) w.store).1
  | .idle, .fail _ => w
  | .ended _, .fail _ => w
  | _, .fail error => w.fail i error
  | _, _ => w

/-- A step of the world. `keys` is whatever the secret store and the key manager write to their own rows, and `restart`
is a new process over the same store. -/
inductive Action where
  | tick (now : Instant)
  | call (c : AuthCall)
  | keys (receipts : Table SecretReceipt.token) (masterKey : Option KeySelection)
      (keyOperations : Table KeyOperation.operationId)
  | flow (i : ℕ) (step : FlowStep)
  | restart

def World.step (w : World) : Action → World
  | .tick now => { w with clock := max w.clock now }
  | .call c => w.call c
  | .keys receipts masterKey keyOperations =>
    { w with store := { w.store with receipts := receipts, masterKey := masterKey, keyOperations := keyOperations } }
  | .flow i step => w.flow i step
  | .restart => { w with memory := .empty, flows := fun _ => .idle }

def World.calls (w : World) : Action → Option AuthCall
  | .call c => some c
  | .flow i step =>
    match w.flows i, step with
    | .opening scope expected _, .openSession sessionId _ =>
      some (.nextGeneration scope.principalId scope.moduleId expected sessionId)
    | .reading _ sessionId _, .readSession _ => some (.currentSession sessionId)
    | .looking _ _ grant, .readGrant => some (.currentGrant grant.grantId)
    | .committing _ session grant expected, .commit manager =>
      some (.completeLogin manager (session.withStatus .completed) grant session.generation expected)
    | .revoking _ reference, .readRevoked => some (.currentGrant reference.grantId)
    | .withdrawing _ current, .withdraw invalidation =>
      some (.revokeGrantWithInvalidation current current.revision invalidation)
    | _, _ => none
  | _ => none

def World.completes (w : World) (a : Action) : Option String := (w.calls a).bind (AuthCall.completes w.store w.clock)

def emptyStore : AuthStore := ⟨.empty, .empty, .empty, none, .empty⟩

def authorization : System World Action where
  start w := w.store.grants = .empty ∧ w.store.sessions = .empty ∧ w.memory = .empty ∧ (∀ i, w.flows i = .idle) ∧
    w.completions = []
  allowed _ _ := True
  next := World.step

end GameLink.Authorization

import GameLink.Authorization.Records

namespace GameLink.Authorization

open Foundation Work Contracts

def latestGeneration (t : Table LoginSession.sessionId) (principalId moduleId : String) : ℕ :=
  ((t.rows.filter (LoginSession.ofPair principalId moduleId)).map LoginSession.generation).foldr max 0

def numberedAs (l r : LoginSession) : Bool := r.ofPair l.principalId l.moduleId && r.generation = l.generation

def insertSession (l : LoginSession) : AuthWork Unit := do
  let s ← read
  raiseIf (s.sessions.rows.any (numberedAs l)) .uniqueConstraintViolation
  let table ← orRaise (s.sessions.insert l) .uniqueConstraintViolation
  write fun s => { s with sessions := table }

def withSessions (p : LoginSession → Bool) (status : LoginSessionStatus) (s : AuthStore) : AuthStore :=
  { s with sessions := s.sessions.update p (LoginSession.withStatus status) (LoginSession.sessionId_withStatus status) }

/-- An `UPDATE` of the status of the sessions that `p` selects, and the number of them. -/
def setStatus (p : LoginSession → Bool) (status : LoginSessionStatus) : AuthWork ℕ := do
  let s ← read
  write (withSessions p status)
  pure (s.sessions.matching p)

def pendingAt (sessionId : String) (l : LoginSession) : Bool := l.sessionId = sessionId && l.status = .pending

def currentSession (sessionId : String) (now : Instant) : AuthWork (Option LoginSession) := do
  raiseAny (bounded sessionId "session_id")
  let s ← read
  match s.sessions.get sessionId with
  | none => pure none
  | some session =>
    if session.status = .pending ∧ session.expiresAt ≤ now then do
      let _ ← setStatus (pendingAt sessionId) .expired
      pure (some (session.withStatus .expired))
    else pure (some session)

/-- `datetime.now(UTC).replace(microsecond=0) + timedelta(minutes=10)`. -/
def loginExpiry (now : Instant) : Instant := now - now % 1000000 + 600000000

def openSession (principalId moduleId : String) (generation : ℕ) (sessionId : String) (now : Instant) : LoginSession :=
  ⟨sessionId, principalId, moduleId, generation, .pending, loginExpiry now⟩

def nextGeneration (principalId moduleId : String) (expected : ℕ) (sessionId : String) (now : Instant) :
    AuthWork LoginSession := do
  raiseAny (bounded principalId "principal_id")
  raiseAny (boundedModuleId moduleId)
  let s ← read
  let actual := latestGeneration s.sessions principalId moduleId
  raiseIf (actual ≠ expected) (.revisionConflict "login_session_generation" expected actual)
  let _ ← setStatus (LoginSession.pendingOf principalId moduleId) .cancelled
  let session ← ofExcept (openSession principalId moduleId (actual + 1) sessionId now).build
  insertSession session
  pure session

def savedAt (l : LoginSession) (expected : ℕ) (r : LoginSession) : Bool :=
  r.sessionId = l.sessionId && r.ofPair l.principalId l.moduleId && r.generation = expected

def stillPendingAt (l r : LoginSession) (expected : ℕ) (row : LoginSession) : Bool :=
  savedAt l expected row && row.status = .pending && row.expiresAt = r.expiresAt

def saveNew (session : LoginSession) (expected : ℕ) : AuthWork (LoginSession × Bool) := do
  raiseIf (expected ≠ 0 ∨ session.generation ≠ 1) (.revisionConflict "login_session" expected 0)
  insertSession session
  pure (session, false)

/-- The last statements of `save`: the row has lapsed, or it takes the status of `session`. -/
def saveStatus (session row : LoginSession) (expected : ℕ) (now : Instant) : AuthWork (LoginSession × Bool) :=
  if row.status = .pending ∧ row.expiresAt ≤ now then do
    let updated ← setStatus (stillPendingAt session row expected) .expired
    raiseIf (updated ≠ 1) (.revisionConflict "login_session" expected row.generation)
    pure ({ session with status := .expired, expiresAt := row.expiresAt }, true)
  else do
    raiseIf (row.status ≠ .pending ∧ session.status ≠ row.status)
      (.revisionConflict "login_session_state" expected row.generation)
    let updated ← setStatus (savedAt session expected) session.status
    raiseIf (updated ≠ 1) (.revisionConflict "login_session" expected row.generation)
    pure (session, false)

def saveCurrent (session row : LoginSession) (expected : ℕ) (now : Instant) : AuthWork (LoginSession × Bool) := do
  raiseIf (row.generation ≠ expected ∨ session.generation ≠ expected)
    (.revisionConflict "login_session" expected row.generation)
  raiseIf (¬ row.ofPair session.principalId session.moduleId) (.valueError "login session owner cannot change")
  let s ← read
  let latest := latestGeneration s.sessions row.principalId row.moduleId
  raiseIf (latest ≠ row.generation) (.revisionConflict "login_session_generation" expected latest)
  saveStatus session row expected now

/-- `save`; the second component says that the row has lapsed, which `save` raises after the commit. -/
def saveSession (session : LoginSession) (expected : ℕ) (now : Instant) : AuthWork (LoginSession × Bool) := do
  let session ← ofExcept session.build
  let s ← read
  match s.sessions.get session.sessionId with
  | none => saveNew session expected
  | some row => saveCurrent session row expected now

def supersededBy (principalId moduleId : String) (generation : ℕ) (l : LoginSession) : Bool :=
  l.pendingOf principalId moduleId && l.generation ≠ generation

def supersedePending (principalId moduleId : String) (generation : ℕ) : AuthWork Unit := do
  raiseAny (bounded principalId "principal_id")
  raiseAny (boundedModuleId moduleId)
  raiseIf (generation < 1) (.valueError "generation must be positive")
  let _ ← setStatus (supersededBy principalId moduleId generation) .cancelled
  pure ()

def pending (l : LoginSession) : Bool := l.status = .pending

def expirePendingOnRestart : AuthWork ℕ := setStatus pending .expired

structure KeyManager where
  generation : Option ℕ
  revision : Option ℕ

def keyRefused (manager : KeyManager) : AuthFailure := .revisionConflict "master_key" (manager.generation.getD 0) 0

def keySelected (manager : KeyManager) (s : AuthStore) : Bool :=
  s.masterKey.any fun k => k.source ≠ .unselected && some k.generation = manager.generation &&
    some k.revision = manager.revision && !s.keyOperations.rows.any fun o => o.state = .preparing

def receiptUsable (s : AuthStore) (ref : SecretRef) : Bool :=
  (s.receipts.get ref.token).any fun r => s.masterKey.any (fun k => r.keyGeneration = k.generation) &&
    (r.state = .staged || r.state = .claimed || r.state = .active) && r.secretRef.principalId = ref.principalId &&
    r.secretRef.moduleId = ref.moduleId && r.secretRef.field = ref.field && r.secretRef.operationId = ref.operationId

def checkGrantKey (manager : Option KeyManager) (grant : Grant) : AuthWork Unit :=
  match manager, grant.secretRef with
  | some manager, some ref => do
    let s ← read
    raiseIf (¬ keySelected manager s) (keyRefused manager)
    raiseIf (¬ receiptUsable s ref) (keyRefused manager)
  | _, _ => pure ()

def accountOf (g r : Grant) : Bool :=
  r.principalId = g.principalId && r.moduleId = g.moduleId && r.accountId = g.accountId

def insertGrant (g : Grant) : AuthWork Unit := do
  let s ← read
  raiseIf (s.grants.rows.any (accountOf g)) .uniqueConstraintViolation
  let table ← orRaise (s.grants.insert g) .uniqueConstraintViolation
  write fun s => { s with grants := table }

def withGrants (p : Grant → Bool) (f : Grant → Grant) (hf : ∀ r, (f r).grantId = r.grantId) (s : AuthStore) :
    AuthStore := { s with grants := s.grants.update p f hf }

def overwrite (g r : Grant) : Grant := { g with grantId := r.grantId }

theorem grantId_overwrite (g r : Grant) : (overwrite g r).grantId = r.grantId := rfl

/-- An `UPDATE` of all columns of the row of `g` where `p` holds, and the number of rows it finds. -/
def replaceGrant (p : Grant → Bool) (g : Grant) : AuthWork ℕ := do
  let s ← read
  raiseIf (s.grants.matching p ≠ 0 ∧ s.grants.rows.any fun r => r.grantId ≠ g.grantId && accountOf g r)
    .uniqueConstraintViolation
  write (withGrants p (overwrite g) (grantId_overwrite g))
  pure (s.grants.matching p)

def atGrant (grantId : String) (revision : ℕ) (r : Grant) : Bool := r.grantId = grantId && r.revision = revision

def activeAt (grantId : String) (revision : ℕ) (r : Grant) : Bool := atGrant grantId revision r && r.status = .active

def pastExpiry (now : Instant) (g : Grant) : Bool := g.status = .active && g.expiresAt.any fun e => e ≤ now

def currentGrant (grantId : String) (now : Instant) : AuthWork (Option Grant) := do
  raiseAny (bounded grantId "grant_id")
  let s ← read
  match s.grants.get grantId with
  | none => pure none
  | some grant =>
    if pastExpiry now grant then do
      write (withGrants (activeAt grantId grant.revision) Grant.lapsed Grant.grantId_lapsed)
      pure (some grant.lapsed)
    else pure (some grant)

def listFor (s : AuthStore) (principalId moduleId : String) : List Grant :=
  (s.grants.rows.filter (Grant.ofPair principalId moduleId)).insertionSort fun a b => a.grantId ≤ b.grantId

def abandoned (o : KeyOperation) : KeyOperation := { o with state := .abandoned }

def preparing (o : KeyOperation) : Bool := o.state = .preparing

def abandonKeyOperation (current : Grant) : AuthWork Unit :=
  match current.secretRef with
  | none => pure ()
  | some _ => write fun s => { s with keyOperations := s.keyOperations.update preparing abandoned fun _ => rfl }

def revokeGrantInUnit (grant : Grant) (expected : ℕ) (requireExact : Bool) : AuthWork Grant := do
  raiseAny (bounded grant.grantId "grant_id")
  let s ← read
  let current ← orRaise (s.grants.get grant.grantId) (.revisionConflict "grant" expected 0)
  raiseIf (current.revision ≠ expected) (.revisionConflict "grant" expected current.revision)
  raiseIf (¬ current.ofPair grant.principalId grant.moduleId) (.valueError "grant owner cannot change")
  raiseIf (requireExact ∧ current ≠ grant) (.valueError "grant does not match the stored revision")
  raiseIf (current.status ≠ .active) (.valueError "only an active grant can be revoked")
  abandonKeyOperation current
  let revoked ← ofExcept (Grant.build { current with revision := expected + 1, status := .revoked })
  let updated ← replaceGrant (atGrant revoked.grantId expected) revoked
  raiseIf (updated ≠ 1) (.revisionConflict "grant" expected current.revision)
  let _ ← setStatus (LoginSession.pendingOf current.principalId current.moduleId) .cancelled
  pure revoked

/-- `revoke_grant_with_invalidation`; `invalidation` is what the invalidation of the other tables raises. -/
def revokeGrantWithInvalidation (grant : Grant) (expected : ℕ) (invalidation : Option AuthFailure) : AuthWork Grant := do
  raiseIf (grant.revision ≠ expected) (.revisionConflict "grant" expected grant.revision)
  let revoked ← revokeGrantInUnit grant expected true
  raiseAny invalidation
  pure revoked

def completeNew (grant : Grant) (now : Instant) : AuthWork Unit := do
  let s ← read
  raiseIf (s.grants.rows.any fun r => r.ofPair grant.principalId grant.moduleId && r.live now)
    (.revisionConflict "grant" 0 (((s.grants.rows.find? fun r =>
      r.ofPair grant.principalId grant.moduleId && r.live now).map Grant.revision).getD 0))
  insertGrant grant

def unusable (now : Instant) (current : Grant) : Bool :=
  (current.status ≠ .active && current.status ≠ .revoked) || pastExpiry now current

def rotatedAt (current : Grant) (revision : ℕ) (r : Grant) : Bool :=
  atGrant current.grantId revision r && r.status = current.status

/-- The branch of `complete_login` that rotates the active row or re-authorizes the revoked one. -/
def completeCurrent (grant : Grant) (expected : ℕ) (now : Instant) : AuthWork Unit := do
  let s ← read
  let current ← orRaise (s.grants.get grant.grantId) (.revisionConflict "grant" expected 0)
  raiseIf (current.revision ≠ expected) (.revisionConflict "grant" expected current.revision)
  raiseIf (¬ current.ofPair grant.principalId grant.moduleId) (.valueError "grant owner cannot change")
  raiseIf (current.status = .revoked ∧ current.accountId ≠ grant.accountId)
    (.revisionConflict "grant_account" expected current.revision)
  raiseIf (unusable now current) (.revisionConflict "grant_state" expected current.revision)
  let updated ← replaceGrant (rotatedAt current expected) grant
  raiseIf (updated ≠ 1) (.revisionConflict "grant" expected current.revision)

def completeGrant (grant : Grant) (expected : Option ℕ) (now : Instant) : AuthWork Unit :=
  match expected with
  | none => completeNew grant now
  | some revision => completeCurrent grant revision now

def completableSession (session : LoginSession) (expected : ℕ) (now : Instant) : AuthWork LoginSession := do
  let s ← read
  let persisted ← orRaise (s.sessions.get session.sessionId) (.revisionConflict "login_session" expected 0)
  raiseIf (persisted.generation ≠ expected)
    (.revisionConflict "login_session_generation" expected persisted.generation)
  raiseIf (¬ persisted.ofPair session.principalId session.moduleId) (.valueError "login session owner cannot change")
  let latest := latestGeneration s.sessions persisted.principalId persisted.moduleId
  raiseIf (latest ≠ expected) (.revisionConflict "login_session_generation" expected latest)
  raiseIf (persisted.status ≠ .pending) (.revisionConflict "login_session_state" expected persisted.generation)
  raiseIf (persisted.expiresAt ≤ now) (.revisionConflict "login_session_expired" expected persisted.generation)
  pure persisted

def nextGrantRevision (expected : Option ℕ) : ℕ := expected.elim 1 (· + 1)

def checkCompletion (session : LoginSession) (grant : Grant) (expectedGeneration : ℕ) (expected : Option ℕ) :
    AuthWork Unit := do
  raiseIf (expectedGeneration < 1) (.valueError "expected generation must be positive")
  raiseIf (session.generation ≠ expectedGeneration)
    (.revisionConflict "login_session_generation" expectedGeneration session.generation)
  raiseIf (session.status ≠ .completed) (.valueError "completed login session is required")
  raiseIf (grant.revision ≠ nextGrantRevision expected)
    (.revisionConflict "grant" (nextGrantRevision expected) grant.revision)
  raiseIf (grant.status ≠ .active) (.valueError "active grant is required")
  raiseIf (¬ grant.ofPair session.principalId session.moduleId) (.valueError "grant owner does not match login session")

def completeLogin (manager : Option KeyManager) (session : LoginSession) (grant : Grant) (expectedGeneration : ℕ)
    (expected : Option ℕ) (now : Instant) : AuthWork (LoginSession × Grant) := do
  let session ← ofExcept session.build
  let grant ← ofExcept grant.build
  checkCompletion session grant expectedGeneration expected
  checkGrantKey manager grant
  let persisted ← completableSession session expectedGeneration now
  completeGrant grant expected now
  let updated ← setStatus (stillPendingAt session persisted expectedGeneration) .completed
  raiseIf (updated ≠ 1) (.revisionConflict "login_session" expectedGeneration persisted.generation)
  pure ({ session with status := .completed, expiresAt := persisted.expiresAt }, grant)

def hasSecret (g : Grant) : Bool := g.secretRef.isSome

def withoutSecret (g : Grant) : Grant :=
  { g with secretRef := none, revision := g.revision + 1,
           status := if g.status = .active then .unavailable else g.status }

theorem grantId_withoutSecret (g : Grant) : (withoutSecret g).grantId = g.grantId := rfl

def notTombstoned (r : SecretReceipt) : Bool := r.state ≠ .tombstoned

def tombstoned (r : SecretReceipt) : SecretReceipt := { r with state := .tombstoned }

def preparingAt (operationId : String) (o : KeyOperation) : Bool := o.operationId = operationId && preparing o

def committed (o : KeyOperation) : KeyOperation := { o with state := .committed }

/-- The part of the activation of a `reset` that writes the authorization tables. `refusal` is what its fence, its
inventory and its key file raise. -/
def resetKeys (refusal : Option AuthFailure) (operationId : String) : AuthWork Unit := do
  raiseAny refusal
  write (withGrants hasSecret withoutSecret grantId_withoutSecret)
  let _ ← setStatus pending .cancelled
  write fun s => { s with receipts := s.receipts.update notTombstoned tombstoned fun _ => rfl }
  write fun s => { s with masterKey := s.masterKey.map fun k => ⟨k.generation + 1, k.revision + 1, .managed⟩ }
  write fun s => { s with keyOperations := s.keyOperations.update (preparingAt operationId) committed fun _ => rfl }

end GameLink.Authorization

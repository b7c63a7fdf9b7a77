import GameLink.Context.Views
import GameLink.Foundation.Table

namespace GameLink.Authorization

open Foundation Work Contracts

inductive AuthFailure where
  | valueError (message : String)
  | revisionConflict (resource : String) (expected actual : ℕ)
  | uniqueConstraintViolation
  deriving DecidableEq

inductive GrantStatus where
  | active | revoked | expired | unavailable
  deriving DecidableEq

inductive LoginSessionStatus where
  | pending | completed | cancelled | expired
  deriving DecidableEq

structure SecretRef where
  token : String
  principalId : String
  moduleId : String
  field : String
  operationId : String
  deriving DecidableEq

structure Grant where
  grantId : String
  revision : ℕ
  principalId : String
  moduleId : String
  accountId : String
  scopes : List String
  secretRef : Option SecretRef
  status : GrantStatus
  expiresAt : Option Instant
  deriving DecidableEq

structure LoginSession where
  sessionId : String
  principalId : String
  moduleId : String
  generation : ℕ
  status : LoginSessionStatus
  expiresAt : Instant
  deriving DecidableEq

def moduleIdText (s : String) : Bool :=
  match s.toList.splitOn '/' with
  | [moduleId] => Context.identifierChars moduleId
  | [packagePart, modulePart] => Context.identifierChars packagePart && Context.identifierChars modulePart
  | _ => false

def pathCharacter (c : Char) : Bool := c = '/' || c = '\\' || c = '\n'

def bounded (value label : String) : Option AuthFailure :=
  if !identifier value || value.toList.any fun c => pathCharacter c || c = '\r' then
    some (.valueError (label ++ " must be a bounded identifier"))
  else none

def boundedModuleId (value : String) : Option AuthFailure :=
  if moduleIdText value then none else some (.valueError "module_id must be a bounded module identifier")

def boundedField (value field : String) : Option AuthFailure :=
  if !identifier value || value.toList.any pathCharacter then
    some (.valueError (field ++ " must be a bounded identifier"))
  else none

def opaqueField (value : String) : Bool := value ≠ "" && !value.toList.any fun c => isBlank c || c = '/' || c = '\\'

def SecretRef.valid (ref : SecretRef) : Bool :=
  opaqueField ref.token && opaqueField ref.principalId && opaqueField ref.field && opaqueField ref.operationId &&
    moduleIdText ref.moduleId && startsWith "secret_" ref.token

def checkSecretRef (g : Grant) (ref : SecretRef) : Option AuthFailure :=
  if !ref.valid then some (.valueError "secret_ref is not an issued opaque reference")
  else if ref.principalId ≠ g.principalId ∨ ref.moduleId ≠ g.moduleId then
    some (.valueError "secret_ref is not owned by this grant")
  else none

def checkGrant (g : Grant) : Option AuthFailure :=
  [boundedField g.grantId "grant_id", boundedField g.principalId "principal_id", boundedField g.accountId "account_id",
    if moduleIdText g.moduleId then none else some (.valueError "module_id must be a bounded identifier"),
    if g.revision < 1 then some (.valueError "grant revision must be positive") else none,
    if g.scopes = [] ∨ (g.scopes.any fun scope => !identifier scope) then
      some (.valueError "grant scopes must be non-empty text") else none,
    if ¬ g.scopes.Nodup then some (.valueError "grant scopes must be unique") else none,
    g.secretRef.elim none (checkSecretRef g)].findSome? id

def Grant.build (g : Grant) : Except AuthFailure Grant :=
  match checkGrant g with
  | some e => .error e
  | none => .ok g

def checkLoginSession (l : LoginSession) : Option AuthFailure :=
  [boundedField l.sessionId "session_id", boundedField l.principalId "principal_id",
    if moduleIdText l.moduleId then none else some (.valueError "module_id must be a bounded identifier"),
    if l.generation < 1 then some (.valueError "login generation must be positive") else none].findSome? id

def LoginSession.build (l : LoginSession) : Except AuthFailure LoginSession :=
  match checkLoginSession l with
  | some e => .error e
  | none => .ok l

theorem Grant.build_eq_ok {g g' : Grant} (h : g.build = .ok g') : g = g' := by
  unfold Grant.build at h
  split at h
  · cases h
  · exact Except.ok.inj h

theorem LoginSession.build_eq_ok {l l' : LoginSession} (h : l.build = .ok l') : l = l' := by
  unfold LoginSession.build at h
  split at h
  · cases h
  · exact Except.ok.inj h

inductive SecretReceiptState where
  | staged | claimed | active | casConflict | orphan | deleteFailed | recoverable | tombstoned
  deriving DecidableEq

structure SecretReceipt where
  secretRef : SecretRef
  keyGeneration : ℕ
  state : SecretReceiptState
  deriving DecidableEq

def SecretReceipt.token (r : SecretReceipt) : String := r.secretRef.token

inductive KeySource where
  | unselected | managed | environment
  deriving DecidableEq

structure KeySelection where
  generation : ℕ
  revision : ℕ
  source : KeySource
  deriving DecidableEq

inductive KeyOperationState where
  | preparing | committed | abandoned
  deriving DecidableEq

structure KeyOperation where
  operationId : String
  state : KeyOperationState
  deriving DecidableEq

structure AuthStore where
  grants : Table Grant.grantId
  sessions : Table LoginSession.sessionId
  receipts : Table SecretReceipt.token
  masterKey : Option KeySelection
  keyOperations : Table KeyOperation.operationId

abbrev AuthWork := Work AuthStore AuthFailure

def raiseAny (e : Option AuthFailure) : AuthWork Unit :=
  match e with
  | none => pure ()
  | some e => raise e

@[simp] theorem gives_raiseAny {e : Option AuthFailure} {u u' : UnitOfWork AuthStore AuthFailure} {x : Unit} :
    (raiseAny e).Gives u x u' ↔ e = none ∧ u = u' := by
  cases e with
  | none => simp [raiseAny]
  | some e => simp [raiseAny]

namespace LoginSession

def ofPair (principalId moduleId : String) (l : LoginSession) : Bool :=
  l.principalId = principalId && l.moduleId = moduleId

def pendingOf (principalId moduleId : String) (l : LoginSession) : Bool :=
  l.ofPair principalId moduleId && l.status = .pending

def withStatus (status : LoginSessionStatus) (l : LoginSession) : LoginSession := { l with status := status }

theorem sessionId_withStatus (status : LoginSessionStatus) (l : LoginSession) :
    (l.withStatus status).sessionId = l.sessionId := rfl

end LoginSession

namespace Grant

def ofPair (principalId moduleId : String) (g : Grant) : Bool := g.principalId = principalId && g.moduleId = moduleId

def live (now : Instant) (g : Grant) : Bool := g.status = .active && g.expiresAt.all fun e => now < e

def lapsed (g : Grant) : Grant := { g with status := .expired, revision := g.revision + 1 }

theorem grantId_lapsed (g : Grant) : g.lapsed.grantId = g.grantId := rfl

end Grant

end GameLink.Authorization

import GameLink.Contracts.Identity
import GameLink.Foundation.Transaction
import Mathlib.Algebra.Order.Ring.Rat

namespace GameLink.Context

open Foundation Contracts

inductive Refusal where
  | invalidInvocation (diagnostic : Option String)
  | invocationExpired
  | operationTimeout
  | accessDenied (code : String)
  | serviceUnavailable
  | typeError (message : String)
  | valueError (message : String)
  | neverReturns
  deriving DecidableEq

def refuseWhen (c : Prop) [Decidable c] (e : Refusal) : Except Refusal Unit := if c then .error e else .ok ()

variable {x : Unit}

theorem refuseWhen_eq_ok {c : Prop} [Decidable c] {e : Refusal} : refuseWhen c e = .ok x ↔ ¬ c := by
  unfold refuseWhen
  split
  · rename_i hc
    simp [hc]
  · rename_i hc
    simp [hc]

inductive InvocationOrigin where
  | command | webPublic | llmTool | scheduler | subscription | admin | job
  deriving DecidableEq

inductive InvocationConversationKind where
  | direct | group
  deriving DecidableEq

/-- `object` is the identity of the view: two variables hold the very same view when their views are equal with it. -/
structure InvocationView where
  object : ℕ
  invocationId : String
  origin : InvocationOrigin
  actorId : Option String
  conversationId : Option String
  moduleId : String
  moduleEpoch : ℤ
  registryRevision : ℤ
  deadline : Option ℚ
  parentId : Option String
  grantId : Option String
  grantRevision : Option ℤ
  subscriptionId : Option String
  subscriptionRevision : Option ℤ
  adapterId : Option String
  capabilityId : Option String
  deliveryRoute : Option String
  conversationKind : Option InvocationConversationKind
  subscriptionScope : Option OwnershipKind
  publicSessionId : Option String
  deriving DecidableEq

def identifierStart (c : Char) : Bool := 'a' ≤ c && c ≤ 'z'

def identifierChar (c : Char) : Bool := identifierStart c || ('0' ≤ c && c ≤ '9') || c = '_'

def identifierRest : Bool → List Char → Bool
  | separated, [] => !separated
  | separated, c :: cs =>
    if identifierChar c then identifierRest false cs
    else (c = '.' || c = '-') && !separated && identifierRest true cs

def identifierChars : List Char → Bool
  | [] => false
  | c :: cs => identifierStart c && identifierRest false cs

def globalModuleId (s : String) : Bool :=
  match s.toList.splitOn '/' with
  | [packagePart, modulePart] => identifierChars packagePart && identifierChars modulePart
  | _ => false

def controlCharacter (c : Char) : Bool := c.toNat < 32 || c.toNat = 127

def requireOpaqueId (value field : String) : Option Refusal :=
  if value = "" ∨ 256 < value.length then
    some (.valueError (field ++ " must be non-empty text no longer than 256 characters"))
  else if value.toList.any controlCharacter then
    some (.valueError (field ++ " must not contain control characters"))
  else none

def requireOptionalOpaqueId (value : Option String) (field : String) : Option Refusal :=
  value.elim none fun v => requireOpaqueId v field

def requirePositiveInt (value : ℤ) (field : String) : Option Refusal :=
  if value < 1 then some (.valueError (field ++ " must be positive")) else none

def requirePairedRevision (identifier : Option String) (revision : Option ℤ) (field : String) : Option Refusal :=
  if identifier.isNone ≠ revision.isNone then
    some (.valueError (field ++ "_id and " ++ field ++ "_revision must be supplied together"))
  else revision.elim none fun r => requirePositiveInt r (field ++ "_revision")

def checkInvocationView (v : InvocationView) : Option Refusal :=
  [requireOpaqueId v.invocationId "invocation_id", requireOptionalOpaqueId v.actorId "actor_id",
    requireOptionalOpaqueId v.publicSessionId "public_session_id",
    if v.publicSessionId.isSome ∧ v.origin ≠ .webPublic then
      some (.valueError "public_session_id requires WEB_PUBLIC origin") else none,
    requireOptionalOpaqueId v.conversationId "conversation_id", if globalModuleId v.moduleId then none
      else some (.valueError "module_id must be a global package/module identifier"),
    requireOptionalOpaqueId v.parentId "parent_id", requireOptionalOpaqueId v.grantId "grant_id",
    requireOptionalOpaqueId v.subscriptionId "subscription_id", requireOptionalOpaqueId v.adapterId "adapter_id",
    requireOptionalOpaqueId v.deliveryRoute "delivery_route",
    if v.capabilityId.any fun c => !identifierChars c.toList then
      some (.valueError "capability_id must be a lowercase identifier") else none,
    requirePositiveInt v.moduleEpoch "module_epoch", requirePositiveInt v.registryRevision "registry_revision",
    requirePairedRevision v.grantId v.grantRevision "grant",
    requirePairedRevision v.subscriptionId v.subscriptionRevision "subscription",
    if v.deadline.any fun d => d ≤ 0 then
      some (.valueError "deadline must be a finite positive monotonic timestamp") else none].findSome? id

def validateContract (v : InvocationView) : Except Refusal Unit :=
  match checkInvocationView v with
  | some e => .error e
  | none => .ok ()

def validatePassed (v : InvocationView) : Except Refusal Unit :=
  refuseWhen (checkInvocationView v ≠ none) (.invalidInvocation none)

variable {v : InvocationView}

theorem validateContract_eq_ok : validateContract v = .ok x ↔ checkInvocationView v = none := by
  unfold validateContract
  cases checkInvocationView v with
  | none => simp
  | some e => simp

theorem validatePassed_eq_ok : validatePassed v = .ok x ↔ checkInvocationView v = none := by
  rw [validatePassed, refuseWhen_eq_ok, not_not]

structure JobRunProof where
  object : ℕ
  jobId : String
  runToken : String
  handlerId : String
  ownerId : String
  declarationDigest : String
  deriving DecidableEq

structure PublicWebBinding where
  moduleId : String
  capabilityId : String
  generation : ℤ
  bearerKey : String
  deadlineMonotonic : ℚ
  deriving DecidableEq

structure Answers where
  now : InvocationView → ℚ
  jobCurrent : JobRunProof → Bool
  webCurrent : ℕ → PublicWebBinding → Bool

def checkDeadline (a : Answers) (v : InvocationView) : Except Refusal Unit := do
  validatePassed v
  refuseWhen (v.deadline.any fun d => d ≤ a.now v) .invocationExpired

theorem checkDeadline_eq_ok {a : Answers} :
    checkDeadline a v = .ok x ↔ checkInvocationView v = none ∧ ∀ d, v.deadline = some d → a.now v < d := by
  simp only [checkDeadline, bind_eq_ok, validatePassed_eq_ok, refuseWhen_eq_ok, exists_and_left, exists_const]
  cases v.deadline with
  | none => simp
  | some d => simp [not_le]

def publicFailure : Refusal → Refusal
  | .invalidInvocation _ => .invalidInvocation none
  | .invocationExpired => .operationTimeout
  | .operationTimeout => .operationTimeout
  | .accessDenied code => .accessDenied code
  | .serviceUnavailable => .serviceUnavailable
  | .typeError _ => .invalidInvocation none
  | .valueError _ => .invalidInvocation none
  | .neverReturns => .neverReturns

def proofBoundary {α : Type} (x : Except Refusal α) : Except Refusal α :=
  match x with
  | .ok a => .ok a
  | .error e => .error (publicFailure e)

end GameLink.Context

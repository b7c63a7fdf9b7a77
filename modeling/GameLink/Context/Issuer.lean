import GameLink.Context.Views
import GameLink.Foundation.Forest
import GameLink.Foundation.Runs

namespace GameLink.Context

open Foundation Contracts

structure LeaseRow where
  invocationId : String
  lease : ℕ

structure MessageRow where
  invocationId : String
  text : String
  eventRef : String

structure JobProofRow where
  invocationId : String
  source : ℕ
  proof : JobRunProof

structure WebProofRow where
  invocationId : String
  proof : ℕ
  binding : PublicWebBinding

structure Issuer where
  allocated : ℕ
  hasValidator : Bool
  webDeployment : List (String × String)
  externalWebDeployment : List (String × String)
  jobSources : List ℕ
  issued : Table InvocationView.invocationId
  children : Broods String
  leases : Table LeaseRow.invocationId
  messages : Table MessageRow.invocationId
  jobProofs : Table JobProofRow.invocationId
  webProofs : Table WebProofRow.invocationId

namespace Issuer

def new (hasValidator : Bool) (deployment : List (String × String)) : Except Refusal Issuer := do
  refuseWhen (deployment.any fun p => !identifier p.1 || !identifier p.2)
    (.typeError "public web deployment must contain exact capability pairs")
  pure ⟨0, hasValidator, deployment, [], [], .empty, .empty, .empty, .empty, .empty, .empty⟩

def publicWebDeployment (s : Issuer) : List (String × String) := s.webDeployment ++ s.externalWebDeployment

def deployed (s : Issuer) (moduleId : String) (capabilityId : Option String) : Bool :=
  capabilityId.any fun c => decide ((moduleId, c) ∈ s.publicWebDeployment)

def jobCurrent (s : Issuer) (a : Answers) (v : InvocationView) : Bool :=
  (s.jobProofs.get v.invocationId).any fun r => decide (r.source ∈ s.jobSources) && a.jobCurrent r.proof

def webCurrent (s : Issuer) (a : Answers) (v : InvocationView) : Bool :=
  s.hasValidator && (s.webProofs.get v.invocationId).any fun r => a.webCurrent r.proof r.binding

def found {α : Type} (x : Option α) (e : Refusal) : Except Refusal α := x.elim (.error e) .ok

def requireChain (s : Issuer) (a : Answers) : ℕ → InvocationView → Except Refusal Unit
  | 0, _ => .error .neverReturns
  | n + 1, current => do
    refuseWhen (s.issued.get current.invocationId ≠ some current)
      (.invalidInvocation (some "Invocation is not active in this runtime"))
    refuseWhen (current.origin = .job ∧ s.jobCurrent a current = false)
      (.invalidInvocation (some "job claim is no longer current"))
    checkDeadline a current
    refuseWhen (current.origin = .webPublic ∧ s.deployed current.moduleId current.capabilityId = false)
      (.invalidInvocation (some "Public web capability is no longer deployed"))
    match current.parentId with
    | none =>
      refuseWhen (current.origin = .webPublic ∧ s.webCurrent a current = false)
        (.invalidInvocation (some "Public web proof is no longer current"))
    | some parentId =>
      match s.issued.get parentId with
      | none => .error (.invalidInvocation (some "Parent invocation is no longer active"))
      | some parent => requireChain s a n parent

def require (s : Issuer) (a : Answers) (v : InvocationView) : Except Refusal InvocationView := do
  validatePassed v
  s.requireChain a (s.allocated + 1) v
  pure v

def enter (s : Issuer) (v : InvocationView) : Issuer :=
  { s with allocated := s.allocated + 1, issued := s.issued.replace v }

structure IssueRequest where
  origin : InvocationOrigin
  moduleId : String
  moduleEpoch : ℤ
  registryRevision : ℤ
  actorId : Option String
  conversationId : Option String
  adapterId : Option String
  deliveryRoute : Option String
  conversationKind : Option InvocationConversationKind
  subscriptionScope : Option OwnershipKind
  deadline : Option ℚ
  grantId : Option String
  grantRevision : Option ℤ
  subscriptionId : Option String
  subscriptionRevision : Option ℤ
  capabilityId : Option String

def checkRoute (r : IssueRequest) : Except Refusal Unit :=
  if r.origin = .subscription then do
    refuseWhen (r.actorId = none ∨ r.subscriptionId = none ∨ r.subscriptionRevision = none ∨ r.adapterId = none ∨
        r.conversationId = none ∨ r.deliveryRoute = none ∨ r.conversationKind = none ∨ r.subscriptionScope = none)
      (.invalidInvocation (some "Subscription invocations require an owner, revision, and trusted route"))
    refuseWhen (r.subscriptionScope = some .authorized ∧ r.grantId = none)
      (.invalidInvocation (some "Authorized subscription invocations require their Grant"))
    refuseWhen (r.subscriptionScope ≠ some .authorized ∧ r.grantId ≠ none)
      (.invalidInvocation (some "Only authorized subscription invocations may carry a Grant"))
    refuseWhen (r.subscriptionScope ≠ some .public ∧ r.conversationKind ≠ some .direct)
      (.invalidInvocation (some "Private subscription invocations require a trusted direct route"))
  else do
    refuseWhen (r.deliveryRoute ≠ none)
      (.invalidInvocation (some "Only subscription invocations may carry a delivery route"))
    refuseWhen (r.conversationKind ≠ none)
      (.invalidInvocation (some "Only subscription invocations may carry a conversation kind"))
    refuseWhen (r.subscriptionScope ≠ none)
      (.invalidInvocation (some "Only subscription invocations may carry a subscription scope"))

def IssueRequest.view (r : IssueRequest) (object : ℕ) (id : String) : InvocationView where
  object := object
  invocationId := id
  origin := r.origin
  actorId := r.actorId
  conversationId := r.conversationId
  moduleId := r.moduleId
  moduleEpoch := r.moduleEpoch
  registryRevision := r.registryRevision
  deadline := r.deadline
  parentId := none
  grantId := r.grantId
  grantRevision := r.grantRevision
  subscriptionId := r.subscriptionId
  subscriptionRevision := r.subscriptionRevision
  adapterId := r.adapterId
  capabilityId := r.capabilityId
  deliveryRoute := r.deliveryRoute
  conversationKind := r.conversationKind
  subscriptionScope := r.subscriptionScope
  publicSessionId := none

def issue (s : Issuer) (a : Answers) (id : String) (r : IssueRequest) : Except Refusal (InvocationView × Issuer) := do
  refuseWhen (r.origin = .webPublic)
    (.invalidInvocation (some "Public web invocations require an owned host proof"))
  refuseWhen (r.origin = .job) (.invalidInvocation (some "Job invocations require a current worker claim"))
  refuseWhen ((r.origin = .command ∨ r.origin = .llmTool) ∧ (r.actorId = none ∨ r.conversationId = none))
    (.invalidInvocation (some "Chat invocations require an actor and conversation"))
  refuseWhen (r.origin = .admin ∧ r.actorId = none)
    (.invalidInvocation (some "Admin invocations require a verified actor"))
  refuseWhen (r.grantId ≠ none ∧ r.actorId = none)
    (.invalidInvocation (some "Granted invocations require the grant owner"))
  refuseWhen (r.subscriptionId ≠ none ∧ r.actorId = none)
    (.invalidInvocation (some "Subscription invocations require the owner"))
  checkRoute r
  validateContract (r.view s.allocated id)
  checkDeadline a (r.view s.allocated id)
  pure (r.view s.allocated id, s.enter (r.view s.allocated id))

structure JobRequest where
  source : ℕ
  proof : JobRunProof
  moduleId : String
  moduleEpoch : ℤ
  registryRevision : ℤ
  deadline : Option ℚ

def JobRequest.view (r : JobRequest) (object : ℕ) (id : String) : InvocationView where
  object := object
  invocationId := id
  origin := .job
  actorId := some r.proof.ownerId
  conversationId := none
  moduleId := r.moduleId
  moduleEpoch := r.moduleEpoch
  registryRevision := r.registryRevision
  deadline := r.deadline
  parentId := none
  grantId := none
  grantRevision := none
  subscriptionId := none
  subscriptionRevision := none
  adapterId := none
  capabilityId := none
  deliveryRoute := none
  conversationKind := none
  subscriptionScope := none
  publicSessionId := none

def issueJob (s : Issuer) (a : Answers) (id : String) (r : JobRequest) : Except Refusal (InvocationView × Issuer) := do
  refuseWhen (r.source ∉ s.jobSources ∨ a.jobCurrent r.proof = false)
    (.invalidInvocation (some "job claim is unavailable"))
  validateContract (r.view s.allocated id)
  checkDeadline a (r.view s.allocated id)
  pure (r.view s.allocated id,
    { s.enter (r.view s.allocated id) with jobProofs := s.jobProofs.replace ⟨id, r.source, r.proof⟩ })

structure WebRequest where
  proof : ℕ
  consumed : Except Refusal (Option PublicWebBinding)
  moduleId : String
  capabilityId : String
  moduleEpoch : ℤ
  registryRevision : ℤ
  generation : ℤ
  deadline : ℚ

def WebRequest.view (r : WebRequest) (b : PublicWebBinding) (object : ℕ) (id : String) : InvocationView where
  object := object
  invocationId := id
  origin := .webPublic
  actorId := none
  conversationId := none
  moduleId := r.moduleId
  moduleEpoch := r.moduleEpoch
  registryRevision := r.registryRevision
  deadline := some (if b.deadlineMonotonic < r.deadline then b.deadlineMonotonic else r.deadline)
  parentId := none
  grantId := none
  grantRevision := none
  subscriptionId := none
  subscriptionRevision := none
  adapterId := none
  capabilityId := some r.capabilityId
  deliveryRoute := none
  conversationKind := none
  subscriptionScope := none
  publicSessionId := some b.bearerKey

def issuePublicWeb (s : Issuer) (a : Answers) (id : String) (r : WebRequest) :
    Except Refusal (InvocationView × Issuer) := do
  refuseWhen (s.hasValidator = false ∨ s.deployed r.moduleId (some r.capabilityId) = false)
    (.invalidInvocation (some "Public web capability is not deployed"))
  let consumed ← r.consumed
  let binding ← found consumed (.invalidInvocation (some "Public web proof was rejected"))
  refuseWhen (binding.moduleId ≠ r.moduleId ∨ binding.capabilityId ≠ r.capabilityId ∨
      binding.generation ≠ r.generation ∨ a.webCurrent r.proof binding = false)
    (.invalidInvocation (some "Public web proof was rejected"))
  validateContract (r.view binding s.allocated id)
  checkDeadline a (r.view binding s.allocated id)
  pure (r.view binding s.allocated id,
    { s.enter (r.view binding s.allocated id) with webProofs := s.webProofs.replace ⟨id, r.proof, binding⟩ })

structure DeriveRequest where
  moduleId : String
  moduleEpoch : ℤ
  deadline : Option ℚ
  capabilityId : Option String

def DeriveRequest.crosses (r : DeriveRequest) (parent : InvocationView) : Prop :=
  r.moduleId ≠ parent.moduleId ∧ (parent.grantId ≠ none ∨ parent.grantRevision ≠ none)

instance (r : DeriveRequest) (parent : InvocationView) : Decidable (r.crosses parent) :=
  inferInstanceAs (Decidable (_ ∧ _))

def DeriveRequest.effectiveDeadline (r : DeriveRequest) (parent : InvocationView) : Option ℚ :=
  match r.deadline with
  | none => parent.deadline
  | some d => some d

def outlives (parentDeadline effectiveDeadline : Option ℚ) : Bool :=
  match parentDeadline, effectiveDeadline with
  | none, _ => false
  | some _, none => true
  | some d, some e => decide (d < e)

def DeriveRequest.view (r : DeriveRequest) (parent : InvocationView) (object : ℕ) (id : String) : InvocationView :=
  { parent with
    object := object
    invocationId := id
    parentId := some parent.invocationId
    moduleId := r.moduleId
    moduleEpoch := r.moduleEpoch
    deadline := r.effectiveDeadline parent
    capabilityId := r.capabilityId
    grantId := if r.crosses parent then none else parent.grantId
    grantRevision := if r.crosses parent then none else parent.grantRevision }

def derive (s : Issuer) (a : Answers) (id : String) (parent : InvocationView) (r : DeriveRequest) :
    Except Refusal (InvocationView × Issuer) := do
  validatePassed parent
  let parent ← s.require a parent
  refuseWhen (parent.origin = .job)
    (.invalidInvocation (some "job scopes cannot derive capability authority"))
  refuseWhen (parent.origin = .webPublic ∧ s.deployed r.moduleId r.capabilityId = false)
    (.invalidInvocation (some "Public web dependency is not deployed"))
  refuseWhen (r.crosses parent ∧ ¬ (parent.origin = .command ∨ parent.origin = .llmTool))
    (.invalidInvocation (some "A Grant cannot cross module boundaries for this origin"))
  refuseWhen (outlives parent.deadline (r.effectiveDeadline parent) = true)
    (.invalidInvocation (some "A child cannot extend its parent's deadline"))
  checkDeadline a (r.view parent s.allocated id)
  pure (r.view parent s.allocated id,
    { s.enter (r.view parent s.allocated id) with children := Broods.adopt s.children parent.invocationId id })

def attachLease (s : Issuer) (a : Answers) (v : InvocationView) (lease : Option ℕ) : Except Refusal Issuer := do
  validatePassed v
  let v ← s.require a v
  let lease ← found lease (.typeError "an admission lease is required")
  refuseWhen ((s.leases.get v.invocationId).any fun r => r.lease ≠ lease)
    (.invalidInvocation (some "Invocation already has an admission lease"))
  pure { s with leases := s.leases.replace ⟨v.invocationId, lease⟩ }

def leaseFor (s : Issuer) (a : Answers) (v : InvocationView) : Except Refusal (Option ℕ) := do
  validatePassed v
  let v ← s.require a v
  pure ((s.leases.get v.invocationId).map LeaseRow.lease)

def dropLease (s : Issuer) (id : String) : Issuer :=
  { s with leases := s.leases.delete fun r => decide (r.invocationId ∈ [id]) }

def detachLease (s : Issuer) (a : Answers) (v : InvocationView) (lease : Option ℕ) : Except Refusal Issuer := do
  validatePassed v
  let v ← s.require a v
  refuseWhen ((s.leases.get v.invocationId).map LeaseRow.lease ≠ lease)
    (.invalidInvocation (some "Cannot detach a different admission lease"))
  pure (s.dropLease v.invocationId)

def detachLeaseForCleanup (s : Issuer) (v : InvocationView) (lease : Option ℕ) : Except Refusal (Bool × Issuer) := do
  validatePassed v
  let current := (s.leases.get v.invocationId).map LeaseRow.lease
  if current = none then pure (false, s)
  else do
    refuseWhen (s.issued.get v.invocationId ≠ some v)
      (.invalidInvocation (some "Cannot clean up an unissued invocation"))
    refuseWhen (current ≠ lease) (.invalidInvocation (some "Cannot detach a different admission lease"))
    pure (true, s.dropLease v.invocationId)

def messageFor (s : Issuer) (a : Answers) (v : InvocationView) : Except Refusal MessageRow :=
  proofBoundary do
    let v ← s.require a v
    refuseWhen (v.origin ≠ .llmTool ∨ v.parentId ≠ none) .serviceUnavailable
    found (s.messages.get v.invocationId) (.invalidInvocation none)

def requireMessageCurrent (s : Issuer) (a : Answers) (sourceCurrent : Bool) (v : InvocationView) :
    Except Refusal MessageRow :=
  proofBoundary do
    let message ← s.messageFor a v
    refuseWhen (sourceCurrent = false) (.accessDenied "source_revoked")
    pure message

structure MessageRequest where
  text : String
  correlation : String
  eventRef : String

def checkMessageContext (r : MessageRequest) : Except Refusal Unit := do
  refuseWhen (16384 < r.text.length) (.valueError "message text exceeds limits")
  refuseWhen (65536 < r.text.utf8ByteSize) (.valueError "message text exceeds limits")
  match requireOpaqueId r.eventRef "event_ref" with
  | some e => .error e
  | none => .ok ()

def messageRow (s : Issuer) (a₁ a₂ : Answers) (v : InvocationView) (r : MessageRequest) : Except Refusal MessageRow := do
  let v ← s.require a₁ v
  refuseWhen (v.origin ≠ .llmTool ∨ v.parentId ≠ none) (.invalidInvocation none)
  let lease ← s.leaseFor a₂ v
  refuseWhen (lease = none ∨ (s.messages.get v.invocationId).isSome) (.invalidInvocation none)
  refuseWhen (r.correlation = "" ∨ 256 < r.correlation.length) (.invalidInvocation none)
  checkMessageContext r
  pure ⟨v.invocationId, r.text, r.eventRef⟩

def withMessage (s : Issuer) (row : MessageRow) : Issuer := { s with messages := s.messages.replace row }

def dropMessage (s : Issuer) (id : String) : Issuer :=
  { s with messages := s.messages.delete fun r => decide (r.invocationId ∈ [id]) }

def attachMessage (s : Issuer) (a₁ a₂ a₃ : Answers) (sourceCurrent : Bool) (v : InvocationView) (r : MessageRequest) :
    Except Refusal Unit × Issuer :=
  match s.messageRow a₁ a₂ v r with
  | .error e => (.error (publicFailure e), s)
  | .ok row =>
    match (s.withMessage row).requireMessageCurrent a₃ sourceCurrent v with
    | .error e => (.error (publicFailure e), (s.withMessage row).dropMessage v.invocationId)
    | .ok _ => (.ok (), s.withMessage row)

def without (s : Issuer) (removed : List String) (children : Broods String) : Issuer :=
  { s with
    children := children
    issued := s.issued.delete fun v => decide (v.invocationId ∈ removed)
    leases := s.leases.delete fun r => decide (r.invocationId ∈ removed)
    messages := s.messages.delete fun r => decide (r.invocationId ∈ removed)
    jobProofs := s.jobProofs.delete fun r => decide (r.invocationId ∈ removed)
    webProofs := s.webProofs.delete fun r => decide (r.invocationId ∈ removed) }

def orphaned (s : Issuer) (v : InvocationView) : Broods String :=
  match v.parentId with
  | none => s.children
  | some parentId => Broods.disown s.children parentId v.invocationId

def release (s : Issuer) (v : InvocationView) : Except Refusal Issuer := do
  validatePassed v
  refuseWhen (s.issued.get v.invocationId ≠ some v)
    (.invalidInvocation (some "Cannot release an unissued invocation"))
  let (removed, children) ← found
    (Broods.sweep (Broods.size (s.orphaned v) + 1) [v.invocationId] [] (s.orphaned v)) .neverReturns
  pure (s.without removed children)

def registerJobSource (s : Issuer) (source : ℕ) : Issuer := { s with jobSources := s.jobSources.insert source }

def unregisterJobSource (s : Issuer) (source : ℕ) : Issuer :=
  { s with jobSources := s.jobSources.filter fun x => decide (x ≠ source) }

def replaceExternal (s : Issuer) (deployment : List (String × String)) : Except Refusal Issuer := do
  refuseWhen (deployment.any fun p => !identifier p.1 || !identifier p.2)
    (.typeError "external public web deployment must be exact pairs")
  refuseWhen (deployment.any fun p => decide (p ∈ s.webDeployment))
    (.valueError "external public web deployment overlaps bundled targets")
  pure { s with externalWebDeployment := deployment }

end Issuer

inductive Call where
  | issue (a : Answers) (id : String) (r : Issuer.IssueRequest)
  | issueJob (a : Answers) (id : String) (r : Issuer.JobRequest)
  | issuePublicWeb (a : Answers) (id : String) (r : Issuer.WebRequest)
  | derive (a : Answers) (id : String) (parent : InvocationView) (r : Issuer.DeriveRequest)
  | attachLease (a : Answers) (v : InvocationView) (lease : Option ℕ)
  | attachMessage (a₁ a₂ a₃ : Answers) (sourceCurrent : Bool) (v : InvocationView) (r : Issuer.MessageRequest)
  | detachLease (a : Answers) (v : InvocationView) (lease : Option ℕ)
  | detachLeaseForCleanup (v : InvocationView) (lease : Option ℕ)
  | release (v : InvocationView)
  | registerJobSource (source : ℕ)
  | unregisterJobSource (source : ℕ)
  | replaceExternal (deployment : List (String × String))

namespace Call

def issued (s : Issuer) : Call → Except Refusal (InvocationView × Issuer)
  | issue a id r => s.issue a id r
  | issueJob a id r => s.issueJob a id r
  | issuePublicWeb a id r => s.issuePublicWeb a id r
  | derive a id parent r => s.derive a id parent r
  | _ => .error .neverReturns

def orElse {α : Type} (s : Issuer) (x : Except Refusal α) (f : α → Issuer) : Issuer :=
  match x with
  | .ok a => f a
  | .error _ => s

def run (s : Issuer) : Call → Issuer
  | issue a id r => orElse s (s.issue a id r) Prod.snd
  | issueJob a id r => orElse s (s.issueJob a id r) Prod.snd
  | issuePublicWeb a id r => orElse s (s.issuePublicWeb a id r) Prod.snd
  | derive a id parent r => orElse s (s.derive a id parent r) Prod.snd
  | attachLease a v lease => orElse s (s.attachLease a v lease) id
  | attachMessage a₁ a₂ a₃ sourceCurrent v r => (s.attachMessage a₁ a₂ a₃ sourceCurrent v r).2
  | detachLease a v lease => orElse s (s.detachLease a v lease) id
  | detachLeaseForCleanup v lease => orElse s (s.detachLeaseForCleanup v lease) Prod.snd
  | release v => orElse s (s.release v) id
  | registerJobSource source => s.registerJobSource source
  | unregisterJobSource source => s.unregisterJobSource source
  | replaceExternal deployment => orElse s (s.replaceExternal deployment) id

def newId : Call → Option String
  | issue _ id _ => some id
  | issueJob _ id _ => some id
  | issuePublicWeb _ id _ => some id
  | derive _ id _ _ => some id
  | _ => none

def HandsOut (s : Issuer) (c : Call) (v : InvocationView) : Prop := ∃ s', c.issued s = .ok (v, s')

end Call

def issuer : System Issuer Call where
  start s := ∃ hasValidator deployment, Issuer.new hasValidator deployment = .ok s
  allowed s c := ∀ id, c.newId = some id → s.issued.get id = none
  next := Call.run

end GameLink.Context

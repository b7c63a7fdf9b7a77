import GameLink.Authorization.Records
import GameLink.Context.Issuer

namespace GameLink.Dependencies

open Foundation Contracts Context

attribute [local instance] lawfulBEq_names

inductive Raised where
  | dependencyCall | invalidInvocation | lifecycle | scopeCancelled | scopeDeadlineExceeded | scopeStale | scopeClosed
  | parameterError | keyError | typeError | valueError | registryError | admission | timeout | other | neverReturns
  deriving DecidableEq

inductive ErrorCode where
  | parameterError | notFound | unsupported | moduleUnavailable | unknown
  deriving DecidableEq

inductive Outcome where
  | result (result : ℕ)
  | error (code : ErrorCode)
  | cancelled
  | raised (r : Raised)
  deriving DecidableEq

def Outcome.settled : Outcome → Bool
  | raised _ => false
  | _ => true

inductive Stop where
  | answer (code : ErrorCode)
  | raise (r : Raised)

def entryHandler : Raised → Option ErrorCode
  | .dependencyCall => some .moduleUnavailable
  | .invalidInvocation => some .moduleUnavailable
  | .lifecycle => some .moduleUnavailable
  | .scopeCancelled => some .moduleUnavailable
  | .scopeDeadlineExceeded => some .moduleUnavailable
  | .scopeStale => some .moduleUnavailable
  | .parameterError => some .parameterError
  | .keyError => some .unknown
  | .typeError => some .unknown
  | .valueError => some .unknown
  | .registryError => some .unknown
  | _ => none

def spawnHandler : Raised → Option ErrorCode
  | .lifecycle => some .moduleUnavailable
  | .scopeCancelled => some .moduleUnavailable
  | .scopeDeadlineExceeded => some .moduleUnavailable
  | .scopeStale => some .moduleUnavailable
  | _ => none

def awaitHandler (r : Raised) : Option ErrorCode :=
  if r = .timeout then some .moduleUnavailable else some ((spawnHandler r).getD .unknown)

def checkHandler : Raised → Option ErrorCode
  | .invalidInvocation => some .moduleUnavailable
  | .lifecycle => some .moduleUnavailable
  | .registryError => some .moduleUnavailable
  | .scopeStale => some .moduleUnavailable
  | .scopeCancelled => some .moduleUnavailable
  | _ => none

def Stop.outcome (handler : Raised → Option ErrorCode) : Stop → Outcome
  | answer code => .error code
  | raise r => (handler r).elim (.raised r) .error

def raisedBy : Refusal → Raised
  | .invalidInvocation _ => .invalidInvocation
  | .invocationExpired => .invalidInvocation
  | .operationTimeout => .timeout
  | .accessDenied _ => .other
  | .serviceUnavailable => .other
  | .typeError _ => .typeError
  | .valueError _ => .valueError
  | .neverReturns => .neverReturns

def issuerCall {α : Type} (x : Except Refusal α) : Except Stop α := x.mapError fun e => .raise (raisedBy e)

def orAnswer {α : Type} (x : Option α) (code : ErrorCode) : Except Stop α := x.elim (.error (.answer code)) .ok

def orRaise {α : Type} (x : Option α) (r : Raised) : Except Stop α := x.elim (.error (.raise r)) .ok

def answerWhen (c : Prop) [Decidable c] (code : ErrorCode) : Except Stop Unit :=
  if c then .error (.answer code) else .ok ()

def raiseWhen (c : Prop) [Decidable c] (r : Raised) : Except Stop Unit := if c then .error (.raise r) else .ok ()

def passes (x : Option Raised) : Except Stop Unit := x.elim (.ok ()) fun r => .error (.raise r)

structure CapabilityReference where
  moduleId : String
  capabilityId : String
  deriving DecidableEq

inductive Requirement where
  | name (capabilityId : String)
  | reference (reference : CapabilityReference)
  deriving DecidableEq

inductive PrivacyFloor where
  | «public» | «private» | owner
  deriving DecidableEq

inductive CapabilityEffect where
  | readOnly | write
  deriving DecidableEq

structure CapabilityDescriptor where
  capabilityId : String
  requiredCapabilities : List Requirement
  privacyFloor : PrivacyFloor
  effect : CapabilityEffect
  effectiveOrigins : List InvocationOrigin
  deriving DecidableEq

structure RegisteredModule where
  moduleId : String
  enabled : Bool
  epoch : ℤ
  capabilities : List CapabilityDescriptor
  handlers : List String

def RegisteredModule.capability (m : RegisteredModule) (capabilityId : String) : Option CapabilityDescriptor :=
  m.capabilities.find? fun d => d.capabilityId = capabilityId

structure RegistrySnapshot where
  modules : List RegisteredModule

def RegistrySnapshot.module (s : RegistrySnapshot) (moduleId : String) : Option RegisteredModule :=
  s.modules.find? fun m => m.moduleId = moduleId

structure CallerCapability where
  moduleId : String
  capabilityId : String
  registryRevision : ℤ
  moduleEpoch : ℤ

def dependencyDeclared (caller : CapabilityDescriptor) (target : CapabilityReference) (callerModuleId : String) : Bool :=
  caller.requiredCapabilities.any fun requirement =>
    match requirement with
    | .reference reference => reference = target
    | .name capabilityId => target.moduleId = callerModuleId && capabilityId = target.capabilityId

def supportsPublicReadOnly (d : CapabilityDescriptor) : Bool := d.privacyFloor = .public && d.effect = .readOnly

def toolAllowed (d : CapabilityDescriptor) : Bool :=
  supportsPublicReadOnly d && decide (InvocationOrigin.llmTool ∈ d.effectiveOrigins)

def allowsPublicWeb (s : Issuer) (moduleId : String) (d : CapabilityDescriptor) : Bool :=
  supportsPublicReadOnly d && decide (InvocationOrigin.webPublic ∈ d.effectiveOrigins) &&
    s.deployed moduleId (some d.capabilityId)

def policyRefuses (parent : InvocationView) (target : CapabilityDescriptor) : Bool :=
  (parent.origin = .webPublic &&
    (!supportsPublicReadOnly target || !decide (InvocationOrigin.webPublic ∈ target.effectiveOrigins))) ||
  (target.privacyFloor = .owner &&
    (target.effect ≠ .readOnly || parent.origin ≠ .command || parent.parentId.isSome ||
      parent.actorId.all (· = "") || parent.adapterId.isNone || parent.conversationId.isNone)) ||
  ((parent.origin = .llmTool || parent.origin = .scheduler) && !toolAllowed target) ||
  (target.privacyFloor = .private && parent.grantId.isNone)

structure Invoker where
  maxDepth : ℕ
  hasAuthorizer : Bool
  hasOwnerAuthority : Bool

inductive RequestedCapability where
  | name (capabilityId : String)
  | reference (reference : CapabilityReference)

structure Launch where
  before : ℚ
  spawn : Option Raised
  after : ℚ

/-- The arguments of a call, and what the collaborators answer until the first await. `arguments` is what the
validation of the arguments raises. -/
structure Entry where
  invoker : Invoker
  invocation : InvocationView
  capability : RequestedCapability
  arguments : Option Raised
  answers : Answers
  parentCheck : Option Raised
  caller : Option CallerCapability
  snapshot : RegistrySnapshot
  parentGuard : Option Raised
  reference : Option Raised
  clock : ℚ
  childId : String
  admission : Except Raised ℕ
  targetGuard : Option Raised
  parameters : Option Raised
  launch : Launch

def targetReference (parent : InvocationView) : RequestedCapability → CapabilityReference
  | .name capabilityId => ⟨parent.moduleId, capabilityId⟩
  | .reference reference => reference

def effectiveDeadline (parent : InvocationView) (clock : ℚ) : Except Stop (Option ℚ) := do
  raiseWhen (parent.deadline.any fun d => d ≤ clock) .scopeDeadlineExceeded
  pure parent.deadline

abbrev Chain := List (String × String)

structure Selection where
  parent : InvocationView
  target : RegisteredModule
  descriptor : CapabilityDescriptor
  reference : CapabilityReference
  chain : Chain
  deadline : Option ℚ

def Selection.key (x : Selection) : String × String := (x.target.moduleId, x.reference.capabilityId)

def Selection.request (x : Selection) : Issuer.DeriveRequest :=
  ⟨x.target.moduleId, x.target.epoch, x.deadline, some x.reference.capabilityId⟩

def selectTarget (s : Issuer) (e : Entry) (parent : InvocationView) (caller : CallerCapability) :
    Except Stop (RegisteredModule × CapabilityDescriptor × CapabilityReference) := do
  let source ← orRaise (e.snapshot.module parent.moduleId) .registryError
  raiseWhen (source.enabled = false ∨ source.epoch ≠ parent.moduleEpoch) .scopeStale
  passes e.parentGuard
  passes e.reference
  let reference := targetReference parent e.capability
  let descriptor ← orAnswer (source.capability caller.capabilityId) .unsupported
  answerWhen (dependencyDeclared descriptor reference caller.moduleId = false) .unsupported
  let target ← orAnswer (e.snapshot.module reference.moduleId) .notFound
  let targetDescriptor ← orAnswer (target.capability reference.capabilityId) .notFound
  answerWhen (target.enabled = false) .moduleUnavailable
  raiseWhen (policyRefuses parent targetDescriptor = true) .dependencyCall
  raiseWhen (parent.origin = .webPublic ∧ (allowsPublicWeb s parent.moduleId descriptor = false ∨
    allowsPublicWeb s target.moduleId targetDescriptor = false)) .dependencyCall
  pure (target, targetDescriptor, reference)

def callerMatches (caller : CallerCapability) (parent : InvocationView) : Bool :=
  caller.moduleId = parent.moduleId && caller.registryRevision = parent.registryRevision &&
    caller.moduleEpoch = parent.moduleEpoch

def select (s : Issuer) (chains : String → Option Chain) (e : Entry) : Except Stop Selection := do
  let parent ← issuerCall (s.require e.answers e.invocation)
  let lease ← issuerCall (s.leaseFor e.answers parent)
  answerWhen (lease = none) .moduleUnavailable
  passes e.parentCheck
  let caller ← orAnswer e.caller .moduleUnavailable
  answerWhen (callerMatches caller parent = false) .moduleUnavailable
  let (target, descriptor, reference) ← selectTarget s e parent caller
  let chain := (chains parent.invocationId).getD [(parent.moduleId, caller.capabilityId)]
  answerWhen (e.invoker.maxDepth + 1 ≤ chain.length) .unsupported
  answerWhen ((target.moduleId, reference.capabilityId) ∈ chain) .unsupported
  let deadline ← effectiveDeadline parent e.clock
  pure ⟨parent, target, descriptor, reference, chain, deadline⟩

def admitChild (s : Issuer) (e : Entry) (x : Selection) (child : InvocationView) : Except Stop Unit × Issuer :=
  match e.admission with
  | .error r => (.error (.raise r), s)
  | .ok lease =>
    match s.attachLease e.answers child (some lease) with
    | .error refusal => (.error (.raise (raisedBy refusal)), s)
    | .ok s' =>
      (do
        passes e.targetGuard
        passes e.parameters
        raiseWhen (x.reference.capabilityId ∉ x.target.handlers) .keyError, s')

structure Plan where
  invoker : Invoker
  selection : Selection
  child : InvocationView

def Plan.chain (p : Plan) : Chain := p.selection.chain ++ [p.selection.key]

inductive Awaited where
  | done
  | raised (r : Raised)
  | cancelled

inductive TaskEnd where
  | cancelled (done : Bool)
  | raised (r : Raised)
  | result (result : ℕ)

structure Check where
  answers : Answers
  clock : ℚ
  current : RegistrySnapshot
  targetGuard : Option Raised
  childCheck : Option Raised
  parentCheck : Option Raised

structure Recheck where
  answers : Answers
  authorized : Awaited
  grant : Option Authorization.Grant
  now : Instant
  parentCheck : Option Raised
  childCheck : Option Raised

structure Delivered where
  isResult : Bool
  valid : Option Raised

inductive Flow where
  | idle
  | capturing (p : Plan)
  | authorizing (p : Plan)
  | running (p : Plan) (grant : Option Authorization.Grant)
  | reauthorizing (p : Plan) (grant : Option Authorization.Grant) (result : ℕ)
  | recapturing (p : Plan) (result : ℕ)
  | cancelling (p : Plan)
  | expiring (p : Plan)
  | ended (child : Option InvocationView) (outcome : Outcome)

def Flow.reserved : Flow → Option Plan
  | running p _ => some p
  | reauthorizing p _ _ => some p
  | recapturing p _ => some p
  | cancelling p => some p
  | expiring p => some p
  | _ => none

/-- A step of a call. `close` is what the handler's awaitable raises when it is closed, and `again` what it raises when
it is closed once more. -/
inductive Step where
  | enter (e : Entry)
  | captured (x : Awaited) (l : Launch)
  | authorized (x : Awaited) (grant : Option Authorization.Grant) (now : Instant) (childCheck : Option Raised) (l : Launch)
  | settle (t : TaskEnd) (q : Check) (d : Delivered) (close : Option Raised)
  | reauthorized (q : Recheck) (d : Delivered) (close : Option Raised)
  | recaptured (x : Awaited) (d : Delivered) (close : Option Raised)
  | closed (close again : Option Raised)

structure World where
  issuer : Issuer
  chains : String → Option Chain
  flows : ℕ → Flow

namespace World

def put (w : World) (i : ℕ) (flow : Flow) : World := { w with flows := Function.update w.flows i flow }

def releaseChild (w : World) (child : InvocationView) : World :=
  { w with issuer := (Context.Call.release child).run w.issuer }

def abandon (w : World) (i : ℕ) (child : InvocationView) (outcome : Outcome) : World :=
  (w.releaseChild child).put i (.ended (some child) outcome)

def reserve (w : World) (p : Plan) : World :=
  { w with chains := Function.update w.chains p.child.invocationId (some p.chain) }

def finish (w : World) (i : ℕ) (p : Plan) (outcome : Outcome) : World :=
  ({ w with chains := Function.update w.chains p.child.invocationId none }.releaseChild p.child).put i
    (.ended (some p.child) outcome)

/-- The `finally` clause: when the awaitable cannot be closed, the rest of it is left out. -/
def finishTask (w : World) (i : ℕ) (p : Plan) (outcome : Outcome) : Option Raised → World
  | some r => w.put i (.ended (some p.child) (.raised r))
  | none => w.finish i p outcome

def spent (child : InvocationView) (clock : ℚ) : Bool := child.deadline.any fun d => d - clock ≤ 0

def launch (w : World) (i : ℕ) (p : Plan) (grant : Option Authorization.Grant) (l : Launch) : World :=
  if spent p.child l.before then (w.reserve p).finish i p (.error .moduleUnavailable)
  else
    match l.spawn with
    | some r => (w.reserve p).finish i p ((Stop.raise r).outcome spawnHandler)
    | none =>
      if spent p.child l.after then (w.reserve p).put i (.expiring p)
      else (w.reserve p).put i (.running p grant)

def begin (w : World) (i : ℕ) (p : Plan) (l : Launch) : World :=
  match p.selection.descriptor.privacyFloor with
  | .owner => if p.invoker.hasOwnerAuthority then w.put i (.capturing p) else w.abandon i p.child (.error .moduleUnavailable)
  | .private => if p.invoker.hasAuthorizer then w.put i (.authorizing p) else w.abandon i p.child (.error .moduleUnavailable)
  | .public => w.launch i p none l

def stopped (w : World) (i : ℕ) (child : InvocationView) (stop : Stop) : World :=
  match stop.outcome entryHandler with
  | .raised r => w.put i (.ended (some child) (.raised r))
  | outcome => w.abandon i child outcome

def enterChild (w : World) (i : ℕ) (e : Entry) (x : Selection) (child : InvocationView) (s : Issuer) :
    World :=
  match (admitChild s e x child).1 with
  | .error stop => { w with issuer := (admitChild s e x child).2 }.stopped i child stop
  | .ok _ => { w with issuer := (admitChild s e x child).2 }.begin i ⟨e.invoker, x, child⟩ e.launch

def enter (w : World) (i : ℕ) (e : Entry) : World :=
  match e.arguments with
  | some r => w.put i (.ended none (.raised r))
  | none =>
    match select w.issuer w.chains e with
    | .error stop => w.put i (.ended none (stop.outcome entryHandler))
    | .ok x =>
      match w.issuer.derive e.answers e.childId x.parent x.request with
      | .error refusal => w.put i (.ended none ((Stop.raise (raisedBy refusal)).outcome entryHandler))
      | .ok (child, s) => w.enterChild i e x child s

def captured (w : World) (i : ℕ) (p : Plan) (l : Launch) : Awaited → World
  | .cancelled => w.abandon i p.child .cancelled
  | .raised _ => w.abandon i p.child (.error .moduleUnavailable)
  | .done => w.launch i p none l

def privateGrantHolds (grant : Option Authorization.Grant) (child : InvocationView) (now : Instant) : Bool :=
  grant.any fun g => g.status = .active && child.grantId = some g.grantId && child.grantRevision = some (g.revision : ℤ) &&
    g.moduleId = child.moduleId && child.actorId.isSome && g.expiresAt.all fun e => now < e

def authorized (w : World) (i : ℕ) (p : Plan) (grant : Option Authorization.Grant) (now : Instant)
    (childCheck : Option Raised) (l : Launch) : Awaited → World
  | .cancelled => w.abandon i p.child .cancelled
  | .raised _ => w.abandon i p.child (.error .moduleUnavailable)
  | .done =>
    if privateGrantHolds grant p.child now && childCheck.isNone then w.launch i p grant l
    else w.abandon i p.child (.error .moduleUnavailable)

def check (s : Issuer) (p : Plan) (q : Check) : Except Stop Unit := do
  let parent ← issuerCall (s.require q.answers p.selection.parent)
  let child ← issuerCall (s.require q.answers p.child)
  let target ← orRaise (q.current.module p.selection.target.moduleId) .registryError
  passes q.targetGuard
  answerWhen (target.epoch ≠ child.moduleEpoch ∨ target.enabled = false) .moduleUnavailable
  answerWhen (parent.origin = .webPublic ∧ ((child.capabilityId.bind target.capability).any fun d =>
    allowsPublicWeb s target.moduleId d) = false) .moduleUnavailable
  passes q.childCheck
  let lease ← issuerCall (s.leaseFor q.answers parent)
  answerWhen (lease = none) .moduleUnavailable
  passes q.parentCheck

def deliver (w : World) (i : ℕ) (p : Plan) (result : ℕ) (d : Delivered) (close : Option Raised) : World :=
  w.finishTask i p (d.valid.elim (.result result) fun _ => .error .unknown) close

def afterPrivate (w : World) (i : ℕ) (p : Plan) (result : ℕ) (d : Delivered) (close : Option Raised) : World :=
  if d.isResult = false then w.finishTask i p (.error .unknown) close
  else if p.selection.descriptor.privacyFloor = .owner then w.put i (.recapturing p result)
  else w.deliver i p result d close

def afterChecks (w : World) (i : ℕ) (p : Plan) (grant : Option Authorization.Grant) (result : ℕ)
    (d : Delivered) (close : Option Raised) : World :=
  if p.selection.descriptor.privacyFloor = .private then
    if p.invoker.hasAuthorizer then w.put i (.reauthorizing p grant result)
    else w.finishTask i p (.error .moduleUnavailable) close
  else w.afterPrivate i p result d close

def settle (w : World) (i : ℕ) (p : Plan) (grant : Option Authorization.Grant) (q : Check) (d : Delivered)
    (close : Option Raised) : TaskEnd → World
  | .cancelled done => if done then w.finishTask i p .cancelled close else w.put i (.cancelling p)
  | .raised r => w.finishTask i p ((Stop.raise r).outcome awaitHandler) close
  | .result result =>
    if spent p.child q.clock then w.finishTask i p (.error .moduleUnavailable) close
    else
      match check w.issuer p q with
      | .error stop => w.finishTask i p (stop.outcome checkHandler) close
      | .ok _ => w.afterChecks i p grant result d close

def stillAuthorized (s : Issuer) (p : Plan) (grant : Option Authorization.Grant) (q : Recheck) : Bool :=
  privateGrantHolds q.grant p.child q.now && q.grant = grant &&
    (s.require q.answers p.selection.parent).toOption.isSome && (s.require q.answers p.child).toOption.isSome &&
    q.parentCheck.isNone && q.childCheck.isNone

def reauthorized (w : World) (i : ℕ) (p : Plan) (grant : Option Authorization.Grant) (result : ℕ) (q : Recheck)
    (d : Delivered) (close : Option Raised) : World :=
  match q.authorized with
  | .cancelled => w.finishTask i p .cancelled close
  | .raised _ => w.finishTask i p (.error .moduleUnavailable) close
  | .done =>
    if stillAuthorized w.issuer p grant q then w.afterPrivate i p result d close
    else w.finishTask i p (.error .moduleUnavailable) close

def recaptured (w : World) (i : ℕ) (p : Plan) (result : ℕ) (d : Delivered) (close : Option Raised) : Awaited → World
  | .cancelled => w.finishTask i p .cancelled close
  | .raised _ => w.finishTask i p (.error .moduleUnavailable) close
  | .done => w.deliver i p result d close

def invoke (w : World) (i : ℕ) (step : Step) : World :=
  match w.flows i, step with
  | .idle, .enter e => w.enter i e
  | .capturing p, .captured x l => w.captured i p l x
  | .authorizing p, .authorized x grant now childCheck l => w.authorized i p grant now childCheck l x
  | .running p grant, .settle t q d close => w.settle i p grant q d close t
  | .reauthorizing p grant result, .reauthorized q d close => w.reauthorized i p grant result q d close
  | .recapturing p result, .recaptured x d close => w.recaptured i p result d close x
  | .cancelling p, .closed close _ => w.finishTask i p .cancelled close
  | .expiring p, .closed close again => w.finishTask i p (close.elim (.error .moduleUnavailable) .raised) again
  | _, _ => w

end World

inductive Action where
  | issuer (c : Context.Call)
  | invoke (i : ℕ) (step : Step)

def World.next (w : World) : Action → World
  | .issuer call => { w with issuer := call.run w.issuer }
  | .invoke i step => w.invoke i step

def World.fresh (w : World) : Action → Prop
  | .issuer call => Context.issuer.allowed w.issuer call
  | .invoke _ (.enter e) => w.issuer.issued.get e.childId = none
  | .invoke _ _ => True

def World.initial (w : World) : Prop :=
  Context.issuer.start w.issuer ∧ (∀ k, w.chains k = none) ∧ ∀ i, w.flows i = .idle

end GameLink.Dependencies

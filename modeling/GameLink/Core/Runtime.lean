import GameLink.Scheduler.Repository

namespace GameLink.Core

open Foundation Contracts Scheduler

inductive Fault where
  | moduleNotFound (message : String)
  | lifecycle (message : String)
  | registry (message : String)
  | admission (message : String)
  | invalidLease (message : String)
  | capabilityUnavailable (message : String)
  | value (message : String)
  | type (message : String)
  | runtime (message : String)
  /-- An instance method or a scope that exceeded its finite bound. -/
  | timeout (message : String)
  | stopTimeout (message : String)
  | keyError
  | cancelled
  /-- An exception of the module's own code. -/
  | module
  deriving DecidableEq

structure RunIdentity where
  ref : ℕ
  runtimeId : String
  moduleId : String
  moduleEpoch : ℕ
  deriving DecidableEq

inductive HealthStatus where
  | available | unavailable | unknown
  deriving DecidableEq

structure CapabilityHealth where
  status : HealthStatus
  reason : Option String
  deriving DecidableEq

structure HealthReport where
  capabilities : List (String × CapabilityHealth)
  deriving DecidableEq

inductive RequiredCapability where
  | reference (moduleId capabilityId : String)
  | own (capabilityId : String)
  deriving DecidableEq

structure CapabilityDescriptor where
  capabilityId : String
  requiredCapabilities : List RequiredCapability
  deriving DecidableEq

structure JobDescriptor where
  jobId : String
  declarationDigest : String
  deriving DecidableEq

structure ScheduleDescriptor where
  collectorId : String
  keyVersion : ℕ
  sourceId : String
  sharedScope : OwnershipKind
  background : Bool
  deriving DecidableEq

structure ModuleManifest where
  moduleId : String
  route : String
  capabilities : List CapabilityDescriptor
  jobs : List JobDescriptor
  schedules : List ScheduleDescriptor
  tools : List String
  deriving DecidableEq

structure RegisteredModule where
  moduleId : String
  manifest : ModuleManifest
  handlers : ℕ
  enabled : Bool
  epoch : ℕ

structure Registry where
  revision : ℕ
  modules : Table RegisteredModule.moduleId
  packages : List String

inductive ModuleLifecycle where
  | discovered | starting | active | stopping | stopped | failed
  deriving DecidableEq

structure LifecycleState where
  moduleId : String
  enabled : Bool
  lifecycle : ModuleLifecycle
  epoch : ℕ
  registryRevision : ℕ
  reasonCode : Option String
  scope : Option RunIdentity
  identity : Option RunIdentity
  healthReport : Option HealthReport
  healthRevisions : Option (List (String × ℕ))
  cleanupPending : Bool

structure CandidateKey where
  packageId : String
  moduleId : String
  operationId : String
  deriving DecidableEq

structure InstanceRecord where
  packageId : String
  moduleInstance : ℕ
  handlers : Option ℕ
  installationOperationId : String
  manifest : ModuleManifest
  candidateKey : CandidateKey
  candidateCleanupStarted : Bool
  startAttempted : Bool
  running : Bool
  stopCompleted : Bool
  everActive : Bool

structure DependencyIdentity where
  moduleId : String
  moduleEpoch : ℕ
  capabilityId : String
  healthRevision : ℤ
  deriving DecidableEq

structure DeliveryMemberIdentity where
  eventKey : String
  eventVersion : ℕ
  subscriptionId : String
  subscriptionRevision : ℕ
  ownerId : String
  moduleId : String
  grantId : Option String
  grantRevision : Option ℕ
  adapterId : String
  conversationId : String
  deliveryRoute : String
  conversationKind : ConversationKind
  deriving DecidableEq

inductive DeliveryWorkKind where
  | event | digest
  deriving DecidableEq

inductive LeaseGrant where
  | admission (invocationId capabilityId : String) (healthRevision : ℤ) (dependencies : List DependencyIdentity)
  | jobRun (invocationId jobId runToken handlerId ownerId : String) (deadline : Option ℤ) (declarationDigest : String)
  | scheduled (executionLeaseId collectorId : String) (keyVersion : ℕ) (background : Bool)
  | delivery (workId : String) (kind : DeliveryWorkKind) (collectorId : String) (keyVersion : ℕ)
      (members : List DeliveryMemberIdentity)
  deriving DecidableEq

structure Lease where
  ref : ℕ
  leaseId : String
  moduleId : String
  moduleEpoch : ℕ
  registryRevision : ℕ
  grant : LeaseGrant
  deriving DecidableEq

structure InvocationView where
  ref : ℕ
  invocationId : String
  moduleId : String
  moduleEpoch : ℕ
  actorId : Option String
  fromJob : Bool
  deadline : Option ℤ
  capabilityId : Option String
  deriving DecidableEq

structure LeaseRecord where
  lease : Lease
  identity : RunIdentity
  view : Option InvocationView
  execution : Option ExecutionLease
  deriving DecidableEq

inductive Call where
  | starting (moduleId operationId : String) (manifest : ModuleManifest) (record : ℕ) (identity : RunIdentity)
  | checkingHealth (moduleId operationId : String) (manifest : ModuleManifest) (record : ℕ) (identity : RunIdentity)
  | stoppingFailed (moduleId operationId : String) (record : ℕ) (identity : RunIdentity) (fault : Fault)
  | closingScope (moduleId operationId : String)
  | cancellingSetup (moduleId operationId : String) (record : ℕ)
  | stoppingInstance (moduleId operationId : String) (record : ℕ)
  | rollingTasks (moduleId operationId : String) (record : ℕ)
  | rollingInstance (moduleId operationId : String) (record : ℕ)
  | discarding (key : CandidateKey) (record : ℕ) (rest : List ℕ) (allStopped : Bool)

/-- The state of one Lifecycle controller with its Registry and its Admission controller. Dictionaries keyed by
module are functions, and `drawn` is the heap of the run identities allocated so far. -/
structure Runtime where
  runtimeId : String
  registry : Registry
  states : String → Option LifecycleState
  instances : String → Option ℕ
  records : List InstanceRecord
  candidates : List (CandidateKey × ℕ)
  operations : String → Option String
  epochs : String → ℕ
  openGates : String → Option RunIdentity
  leases : String → Option LeaseRecord
  viewLeases : String → Option String
  leaseCount : ℕ
  drawn : List RunIdentity
  calls : ℕ → Option Call

/-- What the module's tasks look like during a step: whether the setup task, the stop task and the scope's tasks
are still running, and whether calling `start` or `check_health`, and `stop`, gives an awaitable. -/
structure Tasks where
  setupRunning : Bool
  stopRunning : Bool
  scopeTasks : Bool
  opens : Bool
  stops : Bool

inductive Awaited where
  | returned (health : Option HealthReport)
  | raised
  | timedOut (stopped : Bool)
  | cancelled (stopped : Bool)

inductive Reply where
  | waiting
  | done
  | started (identity : RunIdentity) (health : HealthReport)
  | invalidated (identity : RunIdentity)
  | settled (state : LifecycleState)
  | verdict (answer : Bool)
  | leased (lease : Lease)
  | raised (fault : Fault)

namespace Runtime

def setState (rt : Runtime) (moduleId : String) (state : Option LifecycleState) : Runtime :=
  { rt with states := Function.update rt.states moduleId state }

def setOperation (rt : Runtime) (moduleId : String) (operation : Option String) : Runtime :=
  { rt with operations := Function.update rt.operations moduleId operation }

def setEpoch (rt : Runtime) (moduleId : String) (epoch : ℕ) : Runtime :=
  { rt with epochs := Function.update rt.epochs moduleId epoch }

def setInstance (rt : Runtime) (moduleId : String) (record : Option ℕ) : Runtime :=
  { rt with instances := Function.update rt.instances moduleId record }

def setGate (rt : Runtime) (moduleId : String) (gate : Option RunIdentity) : Runtime :=
  { rt with openGates := Function.update rt.openGates moduleId gate }

def setCall (rt : Runtime) (call : ℕ) (waiting : Option Call) : Runtime :=
  { rt with calls := Function.update rt.calls call waiting }

def editRecord (rt : Runtime) (record : ℕ) (edit : InstanceRecord → InstanceRecord) : Runtime :=
  { rt with records := rt.records.modify record edit }

def setRegistry (rt : Runtime) (registry : Registry) : Runtime := { rt with registry := registry }

def newIdentity (rt : Runtime) (moduleId : String) (epoch : ℕ) : RunIdentity :=
  ⟨rt.drawn.length, rt.runtimeId, moduleId, epoch⟩

def draw (rt : Runtime) (moduleId : String) (epoch : ℕ) : Runtime :=
  { rt with drawn := rt.drawn ++ [rt.newIdentity moduleId epoch] }

def registered (rt : Runtime) (moduleId : String) : Option RegisteredModule := rt.registry.modules.get moduleId

end Runtime

namespace Registry

def publish (registry : Registry) (moduleId : String) (edit : RegisteredModule → RegisteredModule)
    (hedit : ∀ module, (edit module).moduleId = module.moduleId) : Registry :=
  { registry with
    revision := registry.revision + 1
    modules := registry.modules.update (fun module => decide (module.moduleId = moduleId)) edit hedit }

def publishLifecycleProjection (registry : Registry) (moduleId : String) (enabled : Bool) (epoch : ℕ)
    (expectedRevision : ℕ) : Except Fault Registry :=
  if registry.revision ≠ expectedRevision then .error (.registry "registry revision compare-and-swap failed")
  else
    match registry.modules.get moduleId with
    | none => .error (.registry "module is not registered")
    | some module =>
      if module.enabled = enabled ∧ module.epoch = epoch then .ok registry
      else .ok (registry.publish moduleId (fun m => { m with enabled := enabled, epoch := epoch }) fun _ => rfl)

def installLifecycleHandlers (registry : Registry) (moduleId : String) (handlers : ℕ) : Registry :=
  registry.publish moduleId (fun m => { m with handlers := handlers }) fun _ => rfl

def insertAll (registry : Registry) : List RegisteredModule → Option (Table RegisteredModule.moduleId)
  | [] => some registry.modules
  | module :: rest =>
    if registry.modules.rows.any fun other => other.manifest.route = module.manifest.route ∨
      other.manifest.tools.any (· ∈ module.manifest.tools) then none
    else
      match registry.modules.insert module with
      | none => none
      | some modules => insertAll { registry with modules := modules } rest

def registerPackage (registry : Registry) (packageId : String) (modules : List (ModuleManifest × ℕ))
    (handlersFit : Bool) : Except Fault Registry :=
  if packageId ∈ registry.packages then .error (.registry "package is already registered")
  else
    let additions := modules.map fun module =>
      (⟨packageId ++ "/" ++ module.1.moduleId, module.1, module.2, false, 0⟩ : RegisteredModule)
    if additions.any fun module => module.moduleId = "game_link/core" then
      .error (.registry "module ID is reserved by Core")
    else if additions.any fun module => ¬ module.manifest.tools.Nodup then
      .error (.registry "tool name is already registered")
    else
      match registry.insertAll additions, handlersFit with
      | some modules, true => .ok ⟨registry.revision + 1, modules, packageId :: registry.packages⟩
      | _, _ => .error (.registry "package does not satisfy the static contract")

def restoreLifecycleModule (registry : Registry) (packageId : String) (manifest : ModuleManifest) (handlers : ℕ)
    (handlersFit : Bool) : Except Fault Registry :=
  match registry.insertAll [⟨packageId ++ "/" ++ manifest.moduleId, manifest, handlers, false, 0⟩] with
  | none => .error (.registry "restored module indexes conflict")
  | some modules =>
    if handlersFit then
      .ok ⟨registry.revision + 1, modules, if packageId ∈ registry.packages then registry.packages
        else packageId :: registry.packages⟩
    else .error (.registry "capability handlers do not match the manifest")

def packageOf (moduleId : String) : String := String.ofList (moduleId.toList.takeWhile (· ≠ '/'))

def detachLifecycleModule (registry : Registry) (moduleId : String) : Except Fault Registry :=
  match registry.modules.get moduleId with
  | none => .error (.registry "module is not registered")
  | some _ =>
    let modules := registry.modules.delete fun module => decide (module.moduleId = moduleId)
    let packageId := packageOf moduleId
    .ok ⟨registry.revision + 1, modules,
      if modules.rows.any fun module => startsWith (packageId ++ "/") module.moduleId then registry.packages
      else registry.packages.filter (· ≠ packageId)⟩

end Registry

end GameLink.Core

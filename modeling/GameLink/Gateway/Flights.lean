import GameLink.Core.Runtime
import GameLink.Dependencies.Invoker
import GameLink.Foundation.Quota

namespace GameLink.Gateway

open Foundation
open Core (ModuleLifecycle)
open Context (InvocationOrigin)
open Dependencies (PrivacyFloor CapabilityEffect)

attribute [local instance] lawfulBEq_names

inductive ResultStatus where
  | success | partialSuccess | needsSelection | error
  deriving DecidableEq

def ResultStatus.publishes : ResultStatus → Bool
  | error => false
  | _ => true

inductive ErrorCode where
  | moduleUnavailable | unsupported | rateLimited
  deriving DecidableEq

structure CapabilityDescriptor where
  capabilityId : String
  privacyFloor : PrivacyFloor
  effect : CapabilityEffect
  effectiveOrigins : List InvocationOrigin

structure RegisteredModule where
  epoch : ℕ
  enabled : Bool
  capabilities : List CapabilityDescriptor

def RegisteredModule.capability (m : RegisteredModule) (capabilityId : String) : Option CapabilityDescriptor :=
  m.capabilities.find? fun c => c.capabilityId = capabilityId

structure LifecycleState where
  lifecycle : ModuleLifecycle
  identity : Option ℕ

structure Surroundings where
  modules : String → Option RegisteredModule
  states : String → Option LifecycleState
  deployment : List (String × String)

def CapabilityDescriptor.supportsPublicReadOnly (c : CapabilityDescriptor) : Bool :=
  decide (c.privacyFloor = .public) && decide (c.effect = .readOnly)

namespace Surroundings

def allowsPublicWeb (e : Surroundings) (moduleId : String) (c : CapabilityDescriptor) : Bool :=
  c.supportsPublicReadOnly && decide (.webPublic ∈ c.effectiveOrigins) && decide ((moduleId, c.capabilityId) ∈ e.deployment)

def guard (e : Surroundings) (moduleId : String) (epoch : ℕ) : Bool :=
  (e.modules moduleId).any fun m => decide (m.epoch = epoch) && m.enabled &&
    (e.states moduleId).any fun s => decide (s.lifecycle = .active) && decide (s.identity = some m.epoch)

end Surroundings

structure View where
  moduleId : String
  capabilityId : String
  moduleEpoch : ℕ
  deadline : ℚ

structure PublicWebBinding where
  moduleId : String
  capabilityId : String
  generation : ℕ
  bearerKey : String
  deadlineMonotonic : ℚ

/-- `_PublicWebFlight`, with the generation of its binding. `issued` says whether the issuer still has its view. -/
structure Flight where
  view : View
  generation : ℕ
  bearerKey : String
  root : Option ℕ
  tasks : List ℕ
  sealed : Bool
  workFinished : Bool
  timer : Bool
  issued : Bool

inductive Outcome where
  | failed
  | value (status : ResultStatus)
  deriving DecidableEq

/-- A task that is registered for a flight. It may end in any way at any time, whether it is cancelled or not.
`called` says whether its callback has run. -/
structure Task where
  flight : ℕ
  outcome : Option Outcome
  called : Bool

inductive Reply where
  | error (code : ErrorCode)
  | result (status : ResultStatus)
  deriving DecidableEq

inductive Call where
  | idle
  | waiting (flight : ℕ)
  | ended (flight : Option ℕ) (reply : Option Reply)
  deriving DecidableEq

def Call.over : Call → Bool
  | waiting _ => false
  | _ => true

structure Request where
  moduleId : String
  capabilityId : String

/-- What a new request meets. `binding` is what the host's proof gives, `current` and `stillCurrent` are what the host
says of it, `created` is whether the event loop takes the task. `flight` and `task` name the new objects. -/
structure Admission where
  binding : Option PublicWebBinding
  current : Bool
  deadline : ℚ
  stillCurrent : Bool
  flight : ℕ
  created : Bool
  task : ℕ
  registered : Bool

structure Return where
  cancelled : Bool
  proof : Bool
  admitted : Bool
  elapsed : ℚ
  fences : Bool
  around : Surroundings

structure World where
  clock : ℚ
  webClosed : Bool
  webGeneration : ℕ
  around : Surroundings
  flights : ℕ → Option Flight
  webFlights : List ℕ
  tasks : ℕ → Option Task
  calls : ℕ → Call

namespace World

def setCall (w : World) (i : ℕ) (call : Call) : World := { w with calls := Function.update w.calls i call }

def reply (w : World) (i : ℕ) (flight : Option ℕ) (reply : Reply) : World := w.setCall i (.ended flight (some reply))

def modify (w : World) (id : ℕ) (f : Flight → Flight) : World :=
  { w with flights := Function.update w.flights id ((w.flights id).map f) }

def done (w : World) (t : ℕ) : Bool := (w.tasks t).all fun task => task.outcome.isSome

def pop (w : World) (id : ℕ) : World := { w with webFlights := w.webFlights.filter fun x => decide (x ≠ id) }

def finished (w : World) (f : Flight) : Bool := f.sealed && f.root.any w.done && f.tasks.all w.done

def releaseIfDone (w : World) (id : ℕ) : World :=
  if (w.flights id).any w.finished then (w.pop id).modify id fun f => { f with tasks := [], timer := false } else w

def «seal» (w : World) (id : ℕ) : World :=
  (w.modify id fun f => { f with sealed := true, issued := f.issued && f.sealed }).releaseIfDone id

def require (w : World) (f : Flight) (proof : Bool) : Bool :=
  f.issued && decide (w.clock < f.view.deadline) &&
    decide ((f.view.moduleId, f.view.capabilityId) ∈ w.around.deployment) && proof

def check (w : World) (id : ℕ) (proof : Bool) : Bool × World :=
  if (w.flights id).any fun f => f.sealed || f.workFinished || w.webClosed then (false, w)
  else if (w.flights id).any fun f => w.require f proof then (true, w)
  else (false, w.seal id)

def addTask (w : World) (id t : ℕ) : World :=
  { w.modify id fun f => { f with tasks := t :: f.tasks } with tasks := Function.update w.tasks t (some ⟨id, none, false⟩) }

def register (w : World) (id t : ℕ) (proof : Bool) : Bool × World := (w.addTask id t).check id proof

def spawn (w : World) (id t : ℕ) (first second : Bool) : World :=
  match w.check id first with
  | (false, w) => w
  | (true, w) => (w.register id t second).2

def callback (w : World) (t : ℕ) (task : Task) : World :=
  let w := { w with tasks := Function.update w.tasks t (some { task with called := true }) }
  (if (w.flights task.flight).any fun f => decide (f.root = some t) then
    if task.outcome = some .failed then w.seal task.flight
    else w.modify task.flight fun f => { f with workFinished := true }
  else w).releaseIfDone task.flight

def sealAll : List ℕ → World → World
  | [], w => w
  | id :: ids, w => sealAll ids (w.seal id)

def fencePublicWeb (w : World) : World :=
  let w := if w.webClosed then w else { w with webClosed := true, webGeneration := w.webGeneration + 1 }
  sealAll w.webFlights w

def drainPublicWeb : List ℕ → World → World
  | [], w => w
  | id :: ids, w => drainPublicWeb ids (w.releaseIfDone id)

def issuePublicWeb (w : World) (r : Request) (m : RegisteredModule) (a : Admission) : Option (View × PublicWebBinding) :=
  if (r.moduleId, r.capabilityId) ∈ w.around.deployment then
    a.binding.bind fun b =>
      if b.moduleId = r.moduleId ∧ b.capabilityId = r.capabilityId ∧ b.generation = w.webGeneration ∧ a.current = true ∧
          w.clock < min a.deadline b.deadlineMonotonic then
        some (⟨r.moduleId, r.capabilityId, m.epoch, min a.deadline b.deadlineMonotonic⟩, b)
      else none
  else none

def bearer (w : World) (id : ℕ) : Option String := (w.flights id).map Flight.bearerKey

def hasRoom (w : World) (bearerKey : String) : Bool :=
  decide (w.webFlights.length < 4) &&
    decide ((w.webFlights.filter fun id => decide (w.bearer id = some bearerKey)).length < 2)

def newFlight (view : View) (binding : PublicWebBinding) : Flight where
  view := view
  generation := binding.generation
  bearerKey := binding.bearerKey
  root := none
  tasks := []
  sealed := false
  workFinished := false
  timer := false
  issued := true

def addFlight (w : World) (id : ℕ) (f : Flight) : World :=
  { w with flights := Function.update w.flights id (some f), webFlights := w.webFlights ++ [id] }

def launch (w : World) (i : ℕ) (a : Admission) : World :=
  if a.created then
    match (w.modify a.flight fun f => { f with root := some a.task }).register a.flight a.task a.registered with
    | (false, w) => (w.seal a.flight).reply i (some a.flight) (.error .moduleUnavailable)
    | (true, w) => (w.modify a.flight fun f => { f with timer := true }).setCall i (.waiting a.flight)
  else ((w.seal a.flight).pop a.flight).reply i (some a.flight) (.error .moduleUnavailable)

def invoke (w : World) (i : ℕ) (r : Request) (a : Admission) : World :=
  if w.webClosed then w.reply i none (.error .moduleUnavailable)
  else match w.around.modules r.moduleId with
  | none => w.reply i none (.error .moduleUnavailable)
  | some m =>
    if (m.capability r.capabilityId).any (w.around.allowsPublicWeb r.moduleId) then
      match w.issuePublicWeb r m a with
      | none => w.reply i none (.error .moduleUnavailable)
      | some (view, binding) =>
        if !a.stillCurrent then w.reply i none (.error .moduleUnavailable)
        else if w.hasRoom binding.bearerKey then (w.addFlight a.flight (newFlight view binding)).launch i a
        else w.reply i none (.error .rateLimited)
    else w.reply i none (.error .unsupported)

/-- What `_require_web_publication` asks of the gateway and of the target. -/
def publishable (w : World) (f : Flight) : Bool :=
  !w.webClosed && decide (w.webGeneration = f.generation) &&
    ((w.around.modules f.view.moduleId).any fun m => decide (m.epoch = f.view.moduleEpoch) && m.enabled &&
      (m.capability f.view.capabilityId).any (w.around.allowsPublicWeb f.view.moduleId)) &&
    w.around.guard f.view.moduleId f.view.moduleEpoch && decide (w.clock < f.view.deadline)

def active (w : World) (f : Flight) (a : Return) : Bool :=
  !f.sealed && w.require f a.proof && a.admitted && w.around.guard f.view.moduleId f.view.moduleEpoch

def result (w : World) (f : Flight) (a : Return) : Reply :=
  match (f.root.bind w.tasks).bind Task.outcome with
  | none => .error .moduleUnavailable
  | some .failed => .error .moduleUnavailable
  | some (.value status) =>
    if status.publishes then
      if w.active f a && w.publishable f then .result status else .error .moduleUnavailable
    else .result status

def disturb (w : World) (a : Return) : World :=
  let w := { w with clock := w.clock + a.elapsed, around := a.around }
  if a.fences then w.fencePublicWeb else w

def publish (w : World) (i id : ℕ) : Reply → World
  | .error code => w.reply i (some id) (.error code)
  | .result status =>
    if status.publishes && !(w.flights id).any w.publishable then w.reply i (some id) (.error .moduleUnavailable)
    else w.reply i (some id) (.result status)

def resume (w : World) (i : ℕ) (a : Return) : World :=
  match w.calls i with
  | .waiting id =>
    if a.cancelled then (w.seal id).setCall i (.ended (some id) none)
    else (w.flights id).elim w fun f => ((w.seal id).disturb a).publish i id (w.result f a)
  | _ => w

end World

inductive Action where
  | tick (elapsed : ℚ)
  | change (around : Surroundings)
  | invoke (i : ℕ) (r : Request) (a : Admission)
  | resume (i : ℕ) (a : Return)
  | check (flight : ℕ) (proof : Bool)
  | spawn (flight task : ℕ) (first second : Bool)
  | complete (task : ℕ) (outcome : Outcome)
  | callback (task : ℕ)
  | timer (flight : ℕ)
  | release (flight : ℕ)
  | fence
  | drain

namespace World

def next (w : World) : Action → World
  | .tick elapsed => { w with clock := w.clock + elapsed }
  | .change around => { w with around := around }
  | .invoke i r a => w.invoke i r a
  | .resume i a => w.resume i a
  | .check id proof => (w.check id proof).2
  | .spawn id t first second => w.spawn id t first second
  | .complete t outcome =>
    { w with tasks := Function.update w.tasks t ((w.tasks t).map fun task => { task with outcome := some outcome }) }
  | .callback t => (w.tasks t).elim w (w.callback t)
  | .timer id => w.seal id
  | .release id => w.modify id fun f => { f with issued := false }
  | .fence => w.fencePublicWeb
  | .drain => drainPublicWeb w.webFlights w

def allowed (w : World) : Action → Prop
  | .tick elapsed => 0 ≤ elapsed
  | .invoke i _ a => (w.calls i).over = true ∧ w.flights a.flight = none ∧ w.tasks a.task = none
  | .resume _ a => 0 ≤ a.elapsed
  | .spawn id t _ _ => w.flights id ≠ none ∧ w.tasks t = none
  | .check id _ => w.flights id ≠ none
  | .complete t _ => ∃ task, w.tasks t = some task ∧ task.outcome = none
  | .callback t => ∃ task, w.tasks t = some task ∧ task.outcome ≠ none ∧ task.called = false
  | .timer id => (w.flights id).any Flight.timer = true
  | _ => True

structure initial (w : World) : Prop where
  webClosed : w.webClosed = false
  flights : ∀ id, w.flights id = none
  webFlights : w.webFlights = []
  tasks : ∀ t, w.tasks t = none
  calls : ∀ i, w.calls i = .idle

end World

def gateway : System World Action where
  start := World.initial
  allowed := World.allowed
  next := World.next

end GameLink.Gateway

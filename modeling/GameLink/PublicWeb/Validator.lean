import GameLink.Foundation.Runs
import Mathlib.Algebra.Order.Ring.Rat

namespace GameLink.PublicWeb

attribute [local instance] Foundation.lawfulBEq_names

inductive Key where
  | text (s : String)
  | tuple (items : List (Option String))
  | other
  deriving DecidableEq

abbrev Target := String × String

structure Route where
  object : ℕ
  target : Target
  owner : Option ℕ
  guarded : Bool
  deriving DecidableEq

structure Binding where
  object : ℕ
  moduleId : String
  capabilityId : String
  generation : ℤ
  bearerKey : String
  deadlineMonotonic : ℚ
  deriving DecidableEq

structure Facts where
  endpoint : Key
  generation : ℕ
  key : String
  expiry : ℚ
  deadline : ℚ
  route : Route
  guarded : Bool
  minted : Bool
  binding : Option Binding
  deriving DecidableEq

structure Validator where
  generation : ℕ
  bindings : List (Key × Target)
  bundledBindings : List (Key × Target)
  routes : List (Key × Route)
  capabilityTimeouts : List (Target × ℚ)
  bundledCapabilityTimeouts : List (Target × ℚ)
  core : Option ℕ
  closed : Bool
  requests : List (ℕ × Facts)
  objects : ℕ

inductive Fault where
  | rejected (code : String)
  | valueError (text : String)
  | raised
  deriving DecidableEq

inductive Answer where
  | yes
  | no
  | raised
  deriving DecidableEq

structure Currency where
  request : Answer
  host : Answer
  hostAgain : Answer
  route : Answer
  clock : ℚ
  wall : ℚ

def proofTtl : ℚ := 30

inductive Timeouts where
  | absent
  | invalid
  | mapping (entries : List (Key × Option ℚ))

def declaredTarget : Key → Option Target
  | .tuple [some a, some b] => if a ≠ "" ∧ a.length ≤ 256 ∧ b ≠ "" ∧ b.length ≤ 256 then some (a, b) else none
  | _ => none

def freezeEntry (targets : Option (List Target)) (entry : Key × Option ℚ) : Option (Target × ℚ) :=
  match declaredTarget entry.1, entry.2 with
  | some target, some seconds =>
    if (targets.all fun l => l.contains target) ∧ 0 < seconds ∧ seconds ≤ 90 then some (target, seconds) else none
  | _, _ => none

def freezeExecutionTimeouts (targets : Option (List Target)) : Timeouts → Except Fault (List (Target × ℚ))
  | .absent => .ok []
  | .invalid => .error (.valueError "invalid execution timeout mapping")
  | .mapping entries =>
    if entries.length ≤ 128 then
      match entries.mapM (freezeEntry targets) with
      | some frozen => .ok frozen
      | none => .error (.valueError "invalid execution timeout declaration")
    else .error (.valueError "invalid execution timeout mapping")

def targetKey (target : Target) : Key := .tuple [some target.1, some target.2]

def mergeTimeouts (left right : List (Target × ℚ)) : Timeouts :=
  .mapping (((left.filter fun e => !(right.map Prod.fst).contains e.1) ++ right).map fun e =>
    (targetKey e.1, some e.2))

namespace Validator

def create (generation : ℕ) (bindings : List (Key × Target)) (timeouts : Timeouts) : Except Fault Validator :=
  match freezeExecutionTimeouts (some (bindings.map Prod.snd)) timeouts with
  | .error e => .error e
  | .ok frozen => .ok {
      generation := generation
      bindings := bindings
      bundledBindings := bindings
      routes := bindings.zipIdx.map fun e => (e.1.1, ⟨e.2, e.1.2, none, false⟩)
      capabilityTimeouts := frozen
      bundledCapabilityTimeouts := frozen
      core := none
      closed := false
      requests := []
      objects := bindings.length }

variable (v : Validator)

def attach (core : ℕ) : Except Fault Unit × Validator :=
  if v.core.isSome || v.closed then (.error (.rejected "entry_unavailable"), v) else (.ok (), { v with core := some core })

def requireRouteCurrent (host route : Answer) (endpoint : Key) (r : Route) : Except Fault Unit :=
  if v.closed = false ∧ v.core.isSome ∧ host = .yes ∧ v.routes.lookup endpoint = some r ∧ (r.guarded = false ∨ route = .yes)
  then .ok ()
  else .error (.rejected "entry_unavailable")

inductive Proof where
  | ticket (t : ℕ)
  | foreign
  deriving DecidableEq

def unavailable : Fault := .rejected "entry_unavailable"

def require (o : Currency) : Proof → Except Fault Facts
  | .foreign => .error (.rejected "request_rejected")
  | .ticket t =>
    match v.requests.lookup t with
    | none => .error unavailable
    | some facts =>
      if v.closed = true ∨ (facts.guarded = true ∧ o.request ≠ .yes) ∨ v.core = none then .error unavailable
      else if o.host = .raised then .error .raised
      else if o.host = .no ∨ facts.generation ≠ v.generation ∨ facts.deadline ≤ o.clock ∨ facts.expiry ≤ o.wall then
        .error unavailable
      else
        match v.requireRouteCurrent o.hostAgain o.route facts.endpoint facts.route with
        | .error e => .error e
        | .ok _ => .ok facts

def revoke (proof : Proof) : Validator :=
  match proof with
  | .ticket t => { v with requests := v.requests.filter fun e => e.1 ≠ t }
  | .foreign => v

def revokeOwner (moduleId : String) : Validator :=
  { v with requests := v.requests.filter fun e => e.2.route.target.1 ≠ moduleId }

def close : Validator := { v with closed := true, requests := [] }

def update (t : ℕ) (f : Facts → Facts) : Validator :=
  { v with requests := v.requests.map fun e => if e.1 = t then (e.1, f e.2) else e }

inductive Expiry where
  | int (n : ℤ)
  | float (q : ℚ)
  | other

def Expiry.value : Expiry → ℚ
  | .int n => n
  | .float q => q
  | .other => 0

inductive Predicate where
  | absent
  | callable
  | other
  deriving DecidableEq

structure Entry where
  endpoint : Key
  key : Option String
  expiry : Expiry
  startedAt : Option ℚ
  current : Predicate

def Entry.accepted (e : Entry) : Bool :=
  (match e.expiry with
    | .int _ => true
    | .float _ => e.current = .callable
    | .other => false) && e.current ≠ .other

def Entry.facts (e : Entry) (key : String) (route : Route) (o : Currency) : Facts where
  endpoint := e.endpoint
  generation := v.generation
  key := key
  expiry := e.expiry.value
  deadline := min (e.startedAt.getD o.clock + (v.capabilityTimeouts.lookup route.target).getD proofTtl)
    (o.clock + e.expiry.value - o.wall)
  route := route
  guarded := e.current = .callable
  minted := false
  binding := none

/-- `begin` reads the predicates and the clocks twice: before the ticket is entered and, through `require`, after. -/
def begin (e : Entry) (o again : Currency) : Except Fault ℕ × Validator :=
  if (v.bindings.lookup e.endpoint).isNone || !e.accepted then (.error (.rejected "request_rejected"), v)
  else
    match v.routes.lookup e.endpoint with
    | none => (.error .raised, v)
    | some route =>
      match v.requireRouteCurrent o.host o.route e.endpoint route, e.key with
      | .error fault, _ => (.error fault, v)
      | .ok _, none => (.error .raised, v)
      | .ok _, some key =>
        let entered := { v with requests := (v.objects, e.facts v key route o) :: v.requests, objects := v.objects + 1 }
        match entered.require again (.ticket v.objects) with
        | .error fault => (.error fault, entered.revoke (.ticket v.objects))
        | .ok _ => (.ok v.objects, entered)

def mint (o : Currency) (proof : Proof) : Except Fault Unit × Validator :=
  match v.require o proof, proof with
  | .error e, _ => (.error e, v)
  | .ok _, .foreign => (.error (.rejected "request_rejected"), v)
  | .ok facts, .ticket t =>
    if facts.minted then (.error (.rejected "request_rejected"), v)
    else (.ok (), v.update t fun f => { f with minted := true })

def validBinding (moduleId capabilityId key : String) (generation : ℤ) (deadline : ℚ) : Except Fault Unit :=
  if [moduleId, capabilityId, key].any fun value => value = "" || 256 < value.length then
    .error (.valueError "invalid public web binding")
  else if generation < 1 then .error (.valueError "invalid public web generation")
  else if deadline ≤ 0 then .error (.valueError "invalid public web deadline")
  else .ok ()

def consume (o : Currency) (proof : Proof) (moduleId capabilityId : String) (generation : ℤ) :
    Except Fault Binding × Validator :=
  match v.require o proof, proof with
  | .error e, _ => (.error e, v)
  | .ok _, .foreign => (.error (.rejected "request_rejected"), v)
  | .ok facts, .ticket t =>
    if facts.minted = false ∨ facts.binding.isSome = true ∨ (moduleId, capabilityId) ≠ facts.route.target then
      (.error (.rejected "request_rejected"), v)
    else
      match validBinding moduleId capabilityId facts.key generation facts.deadline with
      | .error e => (.error e, v)
      | .ok _ =>
        let binding : Binding := ⟨v.objects, moduleId, capabilityId, generation, facts.key, facts.deadline⟩
        (.ok binding, { v.update t fun f => { f with binding := some binding } with objects := v.objects + 1 })

/-- A rejection is the answer `False`; what a predicate raises leaves the call. -/
def isCurrent (o : Currency) (proof : Proof) (binding : Binding) : Except Fault Bool :=
  match v.require o proof with
  | .ok facts => .ok (facts.minted && facts.binding = some binding)
  | .error (.rejected _) => .ok false
  | .error e => .error e

def remaining (o : Currency) (clock wall : ℚ) (proof : Proof) : Except Fault ℚ :=
  match v.require o proof with
  | .ok facts => .ok (min (facts.deadline - clock) (facts.expiry - wall))
  | .error e => .error e

def routeFor (o : Currency) (proof : Proof) (endpoint : Key) : Except Fault Route :=
  match v.require o proof with
  | .ok facts => if facts.endpoint = endpoint then .ok facts.route else .error (.rejected "request_rejected")
  | .error e => .error e

structure Declared where
  target : Key
  owner : Option ℕ
  callable : Bool

structure Replacement where
  endpoint : Key
  declared : Option Declared

def endpointTarget : Key → Option Target
  | .tuple [some a, some b, some c] => if a = "" ∨ b = "" ∨ c = "" then none else some (a, c)
  | _ => none

def bindingRejected : Fault := .valueError "external public web binding rejected"

def external (item : Replacement) : Except Fault (Target × ℕ) :=
  match item.declared with
  | none => .error .raised
  | some declared =>
    match endpointTarget item.endpoint, declared.owner with
    | some target, some owner =>
      if declared.target = targetKey target ∧ (v.bundledBindings.lookup item.endpoint).isNone ∧
          target ∉ v.bundledBindings.map Prod.snd ∧ declared.callable = true then .ok (target, owner)
      else .error bindingRejected
    | _, _ => .error bindingRejected

def put (routes : List (Key × Route)) (endpoint : Key) (route : Route) : List (Key × Route) :=
  (endpoint, route) :: routes.filter fun e => e.1 ≠ endpoint

def kept (endpoint : Key) (target : Target) (owner : ℕ) : Option Route :=
  (v.routes.lookup endpoint).filter fun old => old.owner = some owner ∧ old.target = target

def build : List (Key × Route) → ℕ → List Replacement → Except Fault (List (Key × Route) × ℕ)
  | routes, objects, [] => .ok (routes, objects)
  | routes, objects, item :: rest =>
    match v.external item with
    | .error e => .error e
    | .ok (target, owner) =>
      match v.kept item.endpoint target owner with
      | some old => build (put routes item.endpoint old) objects rest
      | none => build (put routes item.endpoint ⟨objects, target, some owner, true⟩) (objects + 1) rest

def bundledRoutes : Option (List (Key × Route)) :=
  v.bundledBindings.mapM fun b => (v.routes.lookup b.1).map fun route => (b.1, route)

def externalTargets (routes : List (Key × Route)) : List Target :=
  (routes.filter fun e => (v.bundledBindings.lookup e.1).isNone).map fun e => e.2.target

def mergedTimeouts (routes : List (Key × Route)) (timeouts : Timeouts) : Except Fault (List (Target × ℚ)) :=
  match freezeExecutionTimeouts (some (v.externalTargets routes)) timeouts with
  | .error e => .error e
  | .ok extra => freezeExecutionTimeouts none (mergeTimeouts v.bundledCapabilityTimeouts extra)

def replaceExternalBindings (items : List Replacement) (timeouts : Timeouts) : Except Fault Unit × Validator :=
  match v.bundledRoutes with
  | none => (.error .raised, v)
  | some bundled =>
    match v.build bundled v.objects items with
    | .error e => (.error e, v)
    | .ok (routes, objects) =>
      match v.mergedTimeouts routes timeouts with
      | .error e => (.error e, v)
      | .ok merged => (.ok (), { v with
          bindings := routes.map fun e => (e.1, e.2.target)
          routes := routes
          capabilityTimeouts := merged
          objects := objects
          requests := v.requests.filter fun e => routes.lookup e.2.endpoint = some e.2.route })

end Validator

end GameLink.PublicWeb

import GameLink.Foundation.Runs
import GameLink.Foundation.Locks

namespace GameLink.Admin

open Foundation

structure Source where
  object : ℕ
  sourceId : String
  deriving DecidableEq

structure Grant where
  object : ℕ
  source : Option Source
  deriving DecidableEq

inductive Lock where
  | service
  | source (s : Source)
  deriving DecidableEq

/-- A call of the service that awaits something outside it: `authorize` and `validate_generation` of
native grants, the latter at the credential state or at the validator. -/
inductive Task where
  | authorize
  | credential (g : Grant)
  | validator (g : Grant)
  deriving DecidableEq

inductive Effect where
  | check
  | create (sourceId : String)
  | found (s : Source)
  | forget (s : Source)
  | shut (s : Source)
  | close
  | closeSources
  | owned (g : Grant)
  | proof (s : Source)
  | mint (source : Option Source)
  | lookup (adapterId : String)
  | suspend (task : Task)
  | validator (g : Grant)
  | addGuard (g : Grant)
  deriving DecidableEq

abbrev Code := List (Instr Lock Effect)

structure Answer where
  passed : Bool
  expired : List ℕ
  awaits : Bool

structure Authority where
  sources : List Source
  grants : List Grant
  closed : Bool
  shut : List Source
  objects : ℕ
  snapshot : List Source
  tasks : List Task
  guards : List Grant

namespace Code

def owned (g : Grant) : Code := [.acquire .service, .effect (.owned g), .release]

def lifetime (g : Grant) : Code := owned g ++ [.effect .check]

def sourceCheck (s : Source) : Code := [.acquire (.source s), .effect (.proof s), .release]

def sourceClose (s : Source) : Code := [.acquire (.source s), .effect (.shut s), .release]

def mint (source : Option Source) : Code := [.acquire .service, .effect (.mint source), .release]

def check (g : Grant) : Code :=
  lifetime g ++ .effect .check :: match g.source with
    | some s => sourceCheck s
    | none => [.effect .check]

def fence (g : Grant) : Code :=
  (match g.source with
    | some s => [.acquire (.source s), .effect (.proof s)]
    | none => [.acquire .service]) ++ check g

def assertCurrent (g : Grant) : Code := .effect .check :: check g ++ [.effect (.addGuard g)]

def commit (guards : List Grant) : Code :=
  guards.flatMap fence ++ .effect .check :: List.replicate guards.length .release

def resume : Task → Code
  | .authorize => .effect .check :: mint none
  | .credential g => .effect .check :: lifetime g ++ [.effect (.validator g)]
  | .validator g => .effect .check :: lifetime g

end Code

inductive Operation where
  | registerSource (sourceId : String)
  | unregisterSource (s : Source)
  | close
  | authorize (adapterId : String)
  | revalidate (g : Grant) (adapterId : String)
  | validateGeneration (g : Grant)
  | resourceFields (g : Grant)
  | issue (s : Source)
  | check (s : Source)
  | finish (s : Source)
  | closeSource (s : Source)

def Operation.code : Operation → Code
  | .registerSource sourceId => [.acquire .service, .effect (.create sourceId), .release]
  | .unregisterSource s =>
    [.acquire .service, .effect (.found s)] ++ Code.sourceClose s ++ [.effect (.forget s), .release]
  | .close => [.acquire .service, .effect .close, .release, .effect .closeSources]
  | .authorize adapterId => [.effect .check, .effect (.lookup adapterId)]
  | .revalidate g adapterId =>
    .effect .check :: Code.owned g ++ [.effect .check, .effect .check, .effect (.lookup adapterId)]
  | .validateGeneration g =>
    .effect .check :: Code.owned g ++ Code.lifetime g ++ match g.source with
      | some s => Code.sourceCheck s
      | none => [.effect (.suspend (.credential g))]
  | .resourceFields g => Code.owned g ++ [.effect .check]
  | .issue s => [.effect .check, .acquire (.source s), .effect (.proof s), .release]
  | .check s => Code.sourceCheck s
  | .finish s => [.acquire (.source s), .release]
  | .closeSource s => Code.sourceClose s

namespace Authority

variable (x : Answer) (d : Authority)

def source (sourceId : String) : Option Source := d.sources.find? fun s => s.sourceId = sourceId

/-- `none` is an exception or an early return: every `with` block is left. -/
def perform : Effect → Authority × Option Code
  | .check => if x.passed then (d, some []) else (d, none)
  | .create sourceId =>
    if d.closed || (d.source sourceId).isSome || !x.passed then (d, none)
    else ({ d with sources := d.sources ++ [⟨d.objects, sourceId⟩], objects := d.objects + 1 }, some [])
  | .found s => if d.source s.sourceId = some s then (d, some []) else (d, none)
  | .forget s =>
    ({ d with
        sources := d.sources.filter fun e => e.sourceId ≠ s.sourceId
        grants := d.grants.filter fun g => g.source ≠ some s }, some [])
  | .shut s => ({ d with shut := s :: d.shut }, some [])
  | .close => ({ d with closed := true, grants := [], snapshot := d.sources }, some [])
  | .closeSources => (d, some (d.snapshot.flatMap Code.sourceClose))
  | .owned g => if d.closed || g ∉ d.grants then (d, none) else (d, some [])
  | .proof s => if s ∈ d.shut || !x.passed then (d, none) else (d, some [])
  | .mint source =>
    if d.closed then (d, none)
    else
      ({ d with
          grants := d.grants.filter (fun g => g.object ∉ x.expired) ++ [⟨d.objects, source⟩]
          objects := d.objects + 1 }, some [])
  | .lookup adapterId =>
    if d.closed then (d, none)
    else
      match d.source adapterId with
      | some s => (d, some (Code.sourceCheck s ++ Code.mint (some s)))
      -- without a source the credential state is awaited
      | none => if x.passed then ({ d with tasks := d.tasks ++ [.authorize] }, some []) else (d, none)
  | .suspend task => ({ d with tasks := d.tasks ++ [task] }, some [])
  | .validator g =>
    if !x.passed then (d, none)
    else if x.awaits then ({ d with tasks := d.tasks ++ [.validator g] }, some [])
    else (d, some (Code.lifetime g))
  | .addGuard g => ({ d with guards := d.guards ++ [g] }, some [])

end Authority

structure World where
  loop : Thread Lock Effect
  executor : Thread Lock Effect
  authority : Authority

inductive Action where
  | call (o : Operation)
  | resume (i : ℕ)
  | loop (x : Answer)
  | assertCurrent (g : Grant)
  | commit
  | abandon
  | execute (x : Answer)

namespace World

variable (w : World)

def start : World := ⟨⟨[], []⟩, ⟨[], []⟩, ⟨[], [], false, [], 0, [], [], []⟩⟩

def loopStep (x : Answer) : World :=
  let r := w.loop.run (fun e d => d.perform x e) w.authority
  { w with loop := r.1, authority := r.2 }

def executorStep (x : Answer) : World :=
  let r := w.executor.run (fun e d => d.perform x e) w.authority
  { w with executor := r.1, authority := r.2 }

def next : Action → World
  | .call o => { w with loop := ⟨w.loop.held, o.code⟩ }
  | .resume i =>
    match w.authority.tasks[i]? with
    | some task =>
      { w with
        loop := ⟨w.loop.held, Code.resume task⟩
        authority := { w.authority with tasks := w.authority.tasks.eraseIdx i } }
    | none => w
  | .loop x => w.loopStep x
  | .assertCurrent g => { w with executor := ⟨w.executor.held, Code.assertCurrent g⟩ }
  | .commit => { w with executor := ⟨w.executor.held, Code.commit w.authority.guards⟩ }
  | .abandon => { w with authority := { w.authority with guards := [] } }
  | .execute x => w.executorStep x

def allowed : Action → Bool
  | .call _ => w.loop.code.isEmpty
  | .resume _ => w.loop.code.isEmpty
  | .loop _ => w.loop.free w.executor
  | .assertCurrent _ => w.executor.code.isEmpty
  | .commit => w.executor.code.isEmpty
  | .abandon => w.executor.code.isEmpty
  | .execute _ => w.executor.free w.loop

/-- The step takes the service lock to close a registered source whose lock the executor holds with the
service lock still to take, or takes the lock of a source, with the service lock to follow, while the loop
holds the service lock and is about to close that source. -/
def crossing : Action → Bool
  | .loop _ => w.authority.sources.any fun s =>
    w.loop.enters .service (.source s) && w.executor.crosses (.source s) .service
  | .execute _ => w.authority.sources.any fun s =>
    w.executor.enters (.source s) .service && w.loop.crosses .service (.source s)
  | _ => false

end World

def system : System World Action where
  start w := w = World.start
  allowed w a := w.allowed a = true
  next w a := w.next a

def orderly : System World Action where
  start := system.start
  allowed w a := system.allowed w a ∧ w.crossing a = false
  next := system.next

end GameLink.Admin

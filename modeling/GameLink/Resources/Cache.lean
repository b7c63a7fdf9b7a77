import GameLink.Foundation.Runs
import GameLink.Resources.Inventory

namespace GameLink.Resources

open Foundation Contracts

structure ResourceCachePolicy where
  maxFileBytes : ℕ
  maxBytes : ℕ
  maxItems : ℕ
  ttl : Instant
  maxTtl : Instant
  cleanupBatch : ℕ
  rawBytes : ℕ
  rawItems : ℕ
  positive : 0 < maxFileBytes ∧ 0 < maxBytes ∧ 0 < maxItems ∧ 0 < cleanupBatch
  within : maxFileBytes ≤ maxBytes
  expiry : 0 < ttl ∧ 0 < maxTtl ∧ ttl ≤ maxTtl

structure CachePolicies where
  policy : ResourceCachePolicy
  publicPolicy : ResourceCachePolicy

def CachePolicies.of (c : CachePolicies) (scope : OwnerScope) : ResourceCachePolicy :=
  if scope.kind = .public then c.publicPolicy else c.policy

structure Files where
  final : Ref → Option Content
  pending : Ref → Bool
  staged : String → Option (Ref × Content)

structure StoreRequest where
  scope : OwnerScope
  mediaType : String
  content : Content
  moduleId : String
  ttl : Option Instant
  cacheClass : ResourceCacheClass
  mediaValid : Bool

def StoreRequest.lifetime (r : StoreRequest) (p : ResourceCachePolicy) : Instant := r.ttl.getD p.ttl

def StoreRequest.admissible (r : StoreRequest) (p : ResourceCachePolicy) : Bool :=
  decide (r.content.length ≤ p.maxFileBytes) && decide (0 < r.lifetime p ∧ r.lifetime p ≤ p.maxTtl) && r.mediaValid

structure Room where
  excluded : List String
  used : ℤ
  count : ℤ
  inventory : ℕ
  own : Option ℕ
  expiredOnly : Bool
  visited : List String

abbrev Victim := String × ℕ

inductive Stage where
  | check
  | registration
  | entry
  | pins (excluded : List String)
  | usage (excluded : List String)
  | own (excluded : List String) (used count : ℕ)
  | loop (r : Room)
  | candidates (r : Room) (protectRaw : Bool)
  | evict (r : Room) (v : Victim) (rest : List Victim)
  | unlink (r : Room) (v : Victim) (rest : List Victim)
  | unlinkMarker (r : Room) (v : Victim) (rest : List Victim)
  | finish (r : Room) (v : Victim) (rest : List Victim)
  | evicted (r : Room) (rest : List Victim)
  | inspect
  | stage
  | mark (operation : String)
  | replace (operation : String)
  | discard (operation : String)
  | settle
  | confirm (row : AssetRow)
  | final (row : AssetRow)
  | returned (row : AssetRow)
  | failed

def Stage.over : Stage → Bool
  | returned _ => true
  | failed => true
  | _ => false

structure Job where
  request : StoreRequest
  now : Instant
  current : Option AssetRow
  legacy : Bool
  stage : Stage

structure Answer where
  passed : Bool
  operation : String

inductive Reading where
  | idle
  | lookup (ref : Ref)
  | lease (ref : Ref)
  | entry (ref : Ref)
  | metadata (ref : Ref) (entry : Option EntryRow)
  | fetch (ref : Ref) (entry : Option EntryRow) (metadata : AssetRow)
  | file (ref : Ref) (entry : Option EntryRow) (metadata fetched : AssetRow)
  | touch (ref : Ref) (content : Content)
  | ended (ref : Ref) (content : Option Content)

def Reading.leased : Reading → Option Ref
  | entry ref => some ref
  | metadata ref _ => some ref
  | fetch ref _ _ => some ref
  | file ref _ _ _ => some ref
  | touch ref _ => some ref
  | _ => none

structure World where
  clock : Instant
  inventory : Inventory
  files : Files
  active : Option Job
  readers : List Ref
  readings : ℕ → Reading

namespace World

variable [ContentHashing]

def lockFree (w : World) : Bool := w.active.all fun job => job.stage.over

end World

variable [ContentHashing]

def Job.ref (job : Job) : Ref := ⟨job.request.scope, contentId job.request.content job.request.scope⟩

def Job.size (job : Job) : ℕ := job.request.content.length

def Job.victim (job : Job) (v : Victim) : Ref := ⟨job.request.scope, v.1⟩

def Room.fits (r : Room) (p : ResourceCachePolicy) (size : ℕ) : Bool :=
  decide (r.used + (size - (r.own.getD 0 : ℕ) : ℤ) ≤ p.maxBytes) &&
    decide (r.count + (if r.own.isNone then 1 else 0) ≤ p.maxItems)

def Room.leave (r : Room) (p : ResourceCachePolicy) (size : ℕ) : Stage :=
  if r.fits p size then .inspect
  else if r.expiredOnly then .loop { r with expiredOnly := false }
  else .failed

def Room.next (r : Room) : List Victim → Stage
  | [] => .loop r
  | v :: rest => .evict r v rest

def Room.proceed (r : Room) (p : ResourceCachePolicy) (size : ℕ) (rest : List Victim) : Stage :=
  if r.fits p size then .inspect else r.next rest

def Room.visit (r : Room) (v : Victim) : Room := { r with visited := r.visited ++ [v.1] }

def Room.freed (r : Room) (v : Victim) : Room := { r with used := r.used - v.2, count := r.count - 1 }

namespace Job

def registration (job : Job) (p : ResourceCachePolicy) : Inventory.Registration where
  ref := job.ref
  mediaType := job.request.mediaType
  sizeBytes := job.size
  expiresAt := job.now + job.request.lifetime p
  moduleId := job.request.moduleId
  contentSha256 := ContentHashing.sha256 job.request.content
  now := job.now
  cacheClass := job.request.cacheClass

def query (job : Job) (r : Room) (protectRaw : Bool) (p : ResourceCachePolicy) : Inventory.CandidateQuery where
  scope := job.request.scope
  now := job.now
  limit := min p.cleanupBatch (r.inventory - r.visited.length)
  expiredOnly := r.expiredOnly
  excludedAssetIds := r.excluded ++ r.visited
  protectRaw := protectRaw

def protectsRaw (job : Job) (r : Room) (p : ResourceCachePolicy) (s : Inventory) : Bool :=
  !r.expiredOnly && job.request.cacheClass ≠ .raw &&
    (decide ((s.managedClassUsage job.request.scope .raw).1 ≤ p.rawBytes) ||
      decide ((s.managedClassUsage job.request.scope .raw).2 ≤ p.rawItems))

def fresh (job : Job) (r : Room) (protectRaw : Bool) (p : ResourceCachePolicy) (s : Inventory) : List Victim :=
  (s.managedCandidates (job.query r protectRaw p)).filter fun v =>
    !decide (v.1 ∈ r.excluded) && !decide (v.1 ∈ r.visited)

def leasedAssets (job : Job) (readers : List Ref) : List String :=
  (readers.filter fun ref => decide (ref.scope = job.request.scope)).map Ref.assetId

end Job

namespace World

def goto (w : World) (job : Job) (stage : Stage) : World := { w with active := some { job with stage := stage } }

def checked (w : World) (job : Job) (a : Answer) (next : World) : World :=
  if a.passed then next else w.goto job .failed

def unlinkFinal (w : World) (ref : Ref) : World :=
  { w with files := { w.files with final := Function.update w.files.final ref none } }

def unlinkPending (w : World) (ref : Ref) : World :=
  { w with files := { w.files with pending := Function.update w.files.pending ref false } }

def writePending (w : World) (ref : Ref) : World :=
  { w with files := { w.files with pending := Function.update w.files.pending ref true } }

def writeStaged (w : World) (operation : String) (ref : Ref) (content : Content) : World :=
  { w with files := { w.files with staged := Function.update w.files.staged operation (some (ref, content)) } }

def unlinkStaged (w : World) (operation : String) : World :=
  { w with files := { w.files with staged := Function.update w.files.staged operation none } }

def replaceFinal (w : World) (operation : String) (ref : Ref) (content : Content) : World :=
  { w with files := { w.files with
      final := Function.update w.files.final ref (some content)
      staged := Function.update w.files.staged operation none } }

def tryEvict (w : World) (p : ResourceCachePolicy) (job : Job) (a : Answer) (r : Room) (v : Victim)
    (rest : List Victim) : World :=
  if job.victim v ∈ w.readers then w.goto job ((r.visit v).proceed p job.size rest)
  else w.checked job a <|
    match w.inventory.managedMarkEvicting (job.victim v) w.clock with
    | (true, s) => { w with inventory := s }.goto job (.unlink (r.visit v) v rest)
    | (false, _) => w.goto job ((r.visit v).proceed p job.size rest)

def settleStore (w : World) (p : ResourceCachePolicy) (job : Job) : World :=
  if job.legacy then w.goto job (job.current.elim .failed .confirm)
  else
    { w with inventory := w.inventory.registerManaged (job.registration p) }.goto job
      (.confirm ((job.registration p).asset (w.inventory.assets.get job.ref)))

def advance (c : CachePolicies) (w : World) (job : Job) (a : Answer) : World :=
  let p := c.of job.request.scope
  let s := w.inventory
  match job.stage with
  | .check => w.checked job a (w.goto { job with now := w.clock } .registration)
  | .registration => w.goto { job with current := s.assets.get job.ref } .entry
  | .entry =>
    if job.current.isSome ∧ s.entries.get job.ref = none then
      if job.current.any fun r => Inventory.expired r.expiresAt job.now then w.goto job .failed
      else w.goto { job with legacy := true } .inspect
    else w.goto { job with legacy := false } (.pins (job.ref.assetId :: job.leasedAssets w.readers))
  | .pins excluded => w.goto job (.usage (excluded ++ s.pinnedAssetIds job.request.scope job.now))
  | .usage excluded =>
    w.goto job (.own excluded (s.managedUsage job.request.scope).1 (s.managedUsage job.request.scope).2)
  | .own excluded used count =>
    w.goto job (.loop ⟨excluded, used, count, count, (s.entries.get job.ref).map EntryRow.sizeBytes, true, []⟩)
  | .loop r =>
    if r.visited.length < r.inventory then w.checked job a (w.goto job (.candidates r (job.protectsRaw r p s)))
    else w.goto job (r.leave p job.size)
  | .candidates r protectRaw =>
    match job.fresh r protectRaw p s with
    | [] => w.goto job (r.leave p job.size)
    | v :: rest => w.goto job (.evict r v rest)
  | .evict r v rest => w.tryEvict p job a r v rest
  | .unlink r v rest => w.checked job a ((w.unlinkFinal (job.victim v)).goto job (.unlinkMarker r v rest))
  | .unlinkMarker r v rest => (w.unlinkPending (job.victim v)).goto job (.finish r v rest)
  | .finish r v rest =>
    w.checked job a <| { w with inventory := s.managedFinishEviction (job.victim v) }.goto job (.evicted (r.freed v) rest)
  | .evicted r rest => w.checked job a (w.goto job (r.proceed p job.size rest))
  | .inspect =>
    w.checked job a <| w.goto job <|
      if job.current.isSome ∧ w.files.final job.ref = some job.request.content then .settle else .stage
  | .stage => (w.writeStaged a.operation job.ref job.request.content).goto job (.mark a.operation)
  | .mark operation =>
    if a.passed then (w.writePending job.ref).goto job (.replace operation) else w.goto job (.discard operation)
  | .replace operation =>
    match w.files.staged operation with
    | none => w.goto job .failed
    | some file => (w.replaceFinal operation job.ref file.2).goto job .settle
  | .discard operation => (w.unlinkStaged operation).goto job .failed
  | .settle => w.checked job a (w.settleStore p job)
  | .confirm row => (w.unlinkPending job.ref).goto job (.final row)
  | .final row => w.checked job a (w.goto job (.returned row))
  | .returned _ => w
  | .failed => w

def setReading (w : World) (i : ℕ) (x : Reading) : World := { w with readings := Function.update w.readings i x }

def endReading (w : World) (i : ℕ) (ref : Ref) (content : Option Content) : World :=
  { w with readers := w.readers.erase ref }.setReading i (.ended ref content)

def verified (ref : Ref) (entry : Option EntryRow) (metadata fetched : AssetRow) (content : Content) : Bool :=
  decide (content.length = fetched.sizeBytes) && decide (content.length = metadata.sizeBytes) &&
    decide (contentId content ref.scope = ref.assetId) &&
    entry.all fun e => decide (ContentHashing.sha256 content = e.contentSha256)

def read (w : World) (i : ℕ) : World :=
  match w.readings i with
  | .idle => w
  | .lookup ref =>
    w.setReading i ((w.inventory.metadata ref w.clock).elim (.ended ref none) fun _ => .lease ref)
  | .lease ref =>
    if w.lockFree then { w with readers := ref :: w.readers }.setReading i (.entry ref) else w
  | .entry ref =>
    if (w.inventory.entries.get ref).any EntryRow.evicting then w.endReading i ref none
    else w.setReading i (.metadata ref (w.inventory.entries.get ref))
  | .metadata ref entry =>
    match w.inventory.metadata ref w.clock with
    | none => w.endReading i ref none
    | some m => w.setReading i (.fetch ref entry m)
  | .fetch ref entry m =>
    match w.inventory.metadata ref w.clock with
    | none => w.endReading i ref none
    | some m' => w.setReading i (.file ref entry m m')
  | .file ref entry m m' =>
    match w.files.final ref with
    | none => w.endReading i ref none
    | some content =>
      if verified ref entry m m' content then
        if entry.isSome then w.setReading i (.touch ref content) else w.endReading i ref (some content)
      else w.endReading i ref none
  | .touch ref content =>
    { w with inventory := w.inventory.managedTouch ref w.clock }.endReading i ref (some content)
  | .ended _ _ => w

def abandon (w : World) (i : ℕ) : World :=
  match (w.readings i).leased with
  | some ref => { w with readers := w.readers.erase ref }.setReading i .idle
  | none => w.setReading i .idle

def crash (w : World) : World := { w with active := none, readers := [], readings := fun _ => .idle }

end World

inductive Action where
  | tick (n : ℕ)
  | store (r : StoreRequest)
  | advance (a : Answer)
  | «open» (i : ℕ) (ref : Ref)
  | read (i : ℕ)
  | abandon (i : ℕ)
  | pin (r : Inventory.PinRequest)
  | unpin (pinId : String) (holder : String × String × String)
  | releaseInvocation (invocationId : String)
  | delete (ref : Ref)
  | crash

namespace World

def next (c : CachePolicies) (w : World) : Action → World
  | .tick n => { w with clock := w.clock + n }
  | .store r => { w with active := some ⟨r, 0, none, false, .check⟩ }
  | .advance a => w.active.elim w fun job => w.advance c job a
  | .open i ref => w.setReading i (.lookup ref)
  | .read i => w.read i
  | .abandon i => w.abandon i
  | .pin r => (w.inventory.pinResources r).elim w fun s => { w with inventory := s }
  | .unpin pinId holder => { w with inventory := w.inventory.unpinResources pinId holder }
  | .releaseInvocation invocationId => { w with inventory := w.inventory.releaseInvocationPins invocationId }
  | .delete ref => { w with inventory := w.inventory.delete ref }
  | .crash => w.crash

def allowed (c : CachePolicies) (w : World) : Action → Prop
  | .store r => w.lockFree = true ∧ r.admissible (c.of r.scope) = true
  | .advance a => w.files.staged a.operation = none
  | .open i _ => w.readings i = .idle
  | .pin r => w.lockFree = true ∧ r.now ≤ w.clock ∧ ∀ p ∈ w.inventory.pins.rows, p.pinId ≠ r.pinId
  | _ => True

structure Registered (w : World) (r : AssetRow) : Prop where
  file : ∃ content, w.files.final r.ref = some content ∧ contentId content r.ref.scope = r.ref.assetId ∧
    content.length = r.sizeBytes

structure initial (w : World) : Prop where
  entries : w.inventory.entries = .empty
  pins : w.inventory.pins = .empty
  active : w.active = none
  readers : w.readers = []
  readings : ∀ i, w.readings i = .idle
  assets : ∀ ref r, w.inventory.assets.get ref = some r → w.Registered r
  final : ∀ ref, w.files.final ref ≠ none → w.inventory.assets.get ref ≠ none
  staged : ∀ operation, w.files.staged operation = none

end World

def resources (c : CachePolicies) : System World Action where
  start := World.initial
  allowed := World.allowed c
  next := World.next c

end GameLink.Resources

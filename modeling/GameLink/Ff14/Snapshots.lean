import GameLink.Foundation.Versioned
import GameLink.Ff14.Evaluator

namespace GameLink.Ff14

open Foundation Contracts Digest

/-! `modules/ff14/features/calendar_snapshots.py`: synchronisation of one stored record for each source. -/

def manualCooldownSeconds : ℤ := 300

def maxBytes : ℕ := 1000000

structure StoredFeed where
  raw : String
  fetchedAt : Instant
  version : String
  deriving DecidableEq

structure SnapshotValue where
  schemaVersion : Option ℤ
  region : Option String
  sourceId : Option String
  urlFingerprint : Option String
  lastAttemptAt : Option Instant
  scheduleAnchorAt : Option Instant
  nextDueAt : Option Instant
  retryAfter : Option Instant
  lastStatus : Option String
  complete : Option StoredFeed
  partialFeed : Option StoredFeed
  deriving DecidableEq

def SnapshotValue.empty : SnapshotValue := ⟨none, none, none, none, none, none, none, none, none, none, none⟩

inductive SyncMode where
  | due | cold | manual
  deriving DecidableEq

structure SourceSync where
  service : ℕ
  region : String
  spec : CalendarSourceSpec
  interval : ℤ
  mode : SyncMode
  deriving DecidableEq

def sourceKey (region : String) (spec : CalendarSourceSpec) : String := region ++ ":" ++ spec.sourceId

def SourceSync.key (sync : SourceSync) : String := sourceKey sync.region sync.spec

/-- `synchronize` checks region, mode and interval; `_synchronize_bound` takes the source from the table. -/
def SourceSync.valid (sync : SourceSync) : Bool :=
  (sync.region = "cn" || sync.region = "global") &&
    (sync.interval = 21600 || sync.interval = 43200 || sync.interval = 86400) &&
    calendarSourceSpec sync.region sync.spec.sourceId = some sync.spec &&
    (sync.spec.sourceId = "ff14_calendar_primary" || sync.spec.sourceId = "ff14_calendar_fallback")

def addSeconds (t : Instant) (n : ℤ) : Except Failure Instant := inYears (t + n * second)

/-- `anchor + timedelta(seconds=interval)` when there is an anchor, else the stored due time. -/
def nextDueOf (value : SnapshotValue) (interval : ℤ) : Except Failure (Option Instant) :=
  match value.scheduleAnchorAt with
  | some anchor =>
    match addSeconds anchor interval with
    | .ok due => .ok (some due)
    | .error e => .error e
  | none => .ok value.nextDueAt

inductive SyncStep where
  | skip (value : SnapshotValue) (limited : Bool)
  | claim (value : SnapshotValue)
  deriving DecidableEq

def isAhead (now : Instant) (t : Option Instant) : Bool := t.any fun t => now < t

section

variable [Hashing]

def urlFingerprint (spec : CalendarSourceSpec) : String := Hashing.sha256 spec.url

def currentValue (sync : SourceSync) (current : Option (Versioned SnapshotValue)) : SnapshotValue :=
  match current with
  | none => .empty
  | some record =>
    if record.value.urlFingerprint = some (urlFingerprint sync.spec) then record.value else .empty

def claimedValue (sync : SourceSync) (now anchor nextDue retryAfter : Instant) (value : SnapshotValue) :
    SnapshotValue :=
  { value with
    schemaVersion := some 1
    region := some sync.region
    sourceId := some sync.spec.sourceId
    urlFingerprint := some (urlFingerprint sync.spec)
    lastAttemptAt := some now
    scheduleAnchorAt := some anchor
    nextDueAt := some nextDue
    retryAfter := some retryAfter
    lastStatus := some "interrupted" }

def claimAnchor (sync : SourceSync) (now : Instant) (nextDue anchor : Option Instant) : Option Instant :=
  if sync.mode ≠ .manual ∨ !isAhead now nextDue then some now else anchor

def startClaim (sync : SourceSync) (now : Instant) (value : SnapshotValue) (nextDue : Option Instant) :
    Except Failure SyncStep :=
  match claimAnchor sync now nextDue value.scheduleAnchorAt with
  | none => .error (.valueError "assertion failed")
  | some anchor =>
    match addSeconds anchor sync.interval, addSeconds now manualCooldownSeconds with
    | .ok due, .ok retryAfter => .ok (.claim (claimedValue sync now anchor due retryAfter value))
    | .error e, _ => .error e
    | _, .error e => .error e

def beforeClaim (sync : SourceSync) (now : Instant) (current : Option (Versioned SnapshotValue)) :
    Except Failure SyncStep :=
  let value := currentValue sync current
  match nextDueOf value sync.interval with
  | .error e => .error e
  | .ok nextDue =>
    if sync.mode = .due ∧ isAhead now nextDue then .ok (.skip value false)
    else if sync.mode = .cold ∧ (value.complete.isSome ∨ value.partialFeed.isSome) then .ok (.skip value false)
    else if sync.mode ≠ .due ∧ isAhead now value.retryAfter then .ok (.skip value (sync.mode = .manual))
    else startClaim sync now value nextDue

inductive Completeness where
  | complete | partialResult
  deriving DecidableEq

structure Body where
  length : ℕ
  text : Option String
  deriving DecidableEq

/-- How the fetch ends. `raises` is a cancellation or an error that nothing here catches; `parsed` is what
`parse_ics` answers on the body, or nothing when it raises. -/
inductive FetchOutcome where
  | raises
  | sourceError (code : String)
  | timeout
  | response (statusCode : ℤ) (body : Body) (parsed : Option Completeness)
  deriving DecidableEq

structure Settled where
  value : SnapshotValue
  fetched : Option StoredFeed
  deriving DecidableEq

def failedFetch (value : SnapshotValue) : Settled := ⟨{ value with lastStatus := some "failed" }, none⟩

def storeFeed (value : SnapshotValue) (feed : StoredFeed) : Completeness → Settled
  | .complete => ⟨{ value with complete := some feed, partialFeed := none, lastStatus := some "complete" }, some feed⟩
  | .partialResult => ⟨{ value with partialFeed := some feed, lastStatus := some "partial" }, none⟩

def settle (value : SnapshotValue) (fetchedAt : Instant) : FetchOutcome → Option Settled
  | .raises => none
  | .sourceError code => if code = "cancelled" then none else some (failedFetch value)
  | .timeout => some (failedFetch value)
  | .response statusCode body parsed =>
    if ¬ (200 ≤ statusCode ∧ statusCode < 300) then some (failedFetch value)
    else if maxBytes < body.length then some (failedFetch value)
    else
      match body.text with
      | none => some (failedFetch value)
      | some text =>
        match parsed with
        | none => none
        | some completeness =>
          some (storeFeed value ⟨text, fetchedAt, Hashing.sha256 text⟩ completeness)

end

inductive WriteFate where
  | answered | lost | unanswered
  deriving DecidableEq

inductive SyncPhase where
  | reading (now : Instant)
  | claiming (current : Option (Versioned SnapshotValue)) (value : SnapshotValue)
  | fetching (claim : Versioned SnapshotValue)
  | committing (claim : Versioned SnapshotValue) (settled : Settled)
  | ended (result : Option (SnapshotValue × Bool))
  deriving DecidableEq

structure SyncTask where
  sync : SourceSync
  phase : SyncPhase
  deriving DecidableEq

def SyncTask.running (t : SyncTask) : Bool :=
  match t.phase with
  | .ended _ => false
  | _ => true

structure SyncClaim where
  task : ℕ
  sync : SourceSync
  record : Versioned SnapshotValue
  deriving DecidableEq

structure SyncFetch where
  task : ℕ
  feed : StoredFeed
  deriving DecidableEq

structure SnapshotState where
  records : Records String SnapshotValue
  tasks : ℕ → Option SyncTask
  claims : List SyncClaim
  fetches : List SyncFetch

inductive SyncAction where
  | enter (id : ℕ) (sync : SourceSync) (now : Instant)
  | read (id : ℕ) (raises : Bool)
  | claim (id : ℕ) (fate : WriteFate)
  | fetch (id : ℕ) (fetchedAt : Instant) (outcome : FetchOutcome)
  | commit (id : ℕ) (fate : WriteFate)
  | cancel (id : ℕ)

namespace SnapshotState

def move (s : SnapshotState) (id : ℕ) (sync : SourceSync) (phase : SyncPhase) : SnapshotState :=
  { s with tasks := Function.update s.tasks id (some ⟨sync, phase⟩) }

def claimWrite (s : SnapshotState) (key : String) (current : Option (Versioned SnapshotValue)) (value : SnapshotValue) :
    Option (Records String SnapshotValue × Versioned SnapshotValue) :=
  match current with
  | none => (s.records.create key value).map fun records => (records, ⟨1, value⟩)
  | some record =>
    (s.records.replace key value record.revision).map fun records => (records, ⟨record.revision + 1, value⟩)

def latestValue (s : SnapshotState) (key : String) : SnapshotValue :=
  match s.records key with
  | some record => record.value
  | none => .empty

def claim (s : SnapshotState) (id : ℕ) (sync : SourceSync) (current : Option (Versioned SnapshotValue))
    (value : SnapshotValue) (fate : WriteFate) : SnapshotState :=
  if fate = .lost then s.move id sync (.ended none)
  else
    match s.claimWrite sync.key current value with
    | none => s.move id sync (.ended (some (s.latestValue sync.key, sync.mode = .manual)))
    | some (records, record) =>
      { s with records := records, claims := ⟨id, sync, record⟩ :: s.claims }.move id sync
        (if fate = WriteFate.answered then .fetching record else .ended none)

def commit (s : SnapshotState) (id : ℕ) (sync : SourceSync) (claim : Versioned SnapshotValue) (settled : Settled)
    (fate : WriteFate) : SnapshotState :=
  if fate = .lost then s.move id sync (.ended none)
  else
    match s.records.replace sync.key settled.value claim.revision with
    | none => s.move id sync (.ended none)
    | some records =>
      { s with records := records }.move id sync
        (.ended (if fate = WriteFate.answered then some (settled.value, false) else none))

def note (s : SnapshotState) (id : ℕ) (fetched : Option StoredFeed) : SnapshotState :=
  { s with fetches := (fetched.map fun feed => (⟨id, feed⟩ : SyncFetch)).toList ++ s.fetches }

variable [Hashing]

def afterRead (s : SnapshotState) (id : ℕ) (sync : SourceSync) (now : Instant) : SnapshotState :=
  match beforeClaim sync now (s.records sync.key) with
  | .error _ => s.move id sync (.ended none)
  | .ok (.skip value limited) => s.move id sync (.ended (some (value, limited)))
  | .ok (.claim value) => s.move id sync (.claiming (s.records sync.key) value)

def next (s : SnapshotState) : SyncAction → SnapshotState
  | .enter id sync now =>
    match s.tasks id with
    | none => s.move id sync (.reading now)
    | some _ => s
  | .read id raises =>
    match s.tasks id with
    | some ⟨sync, .reading now⟩ => if raises then s.move id sync (.ended none) else s.afterRead id sync now
    | _ => s
  | .claim id fate =>
    match s.tasks id with
    | some ⟨sync, .claiming current value⟩ => s.claim id sync current value fate
    | _ => s
  | .fetch id fetchedAt outcome =>
    match s.tasks id with
    | some ⟨sync, .fetching claim⟩ =>
      match settle claim.value fetchedAt outcome with
      | none => s.move id sync (.ended none)
      | some settled => (s.note id settled.fetched).move id sync (.committing claim settled)
    | _ => s
  | .commit id fate =>
    match s.tasks id with
    | some ⟨sync, .committing claim settled⟩ => s.commit id sync claim settled fate
    | _ => s
  | .cancel id =>
    match s.tasks id with
    | some t => if t.running then s.move id t.sync (.ended none) else s
    | none => s

end SnapshotState

def SnapshotState.unlocked (s : SnapshotState) (sync : SourceSync) : Prop :=
  ∀ id t, s.tasks id = some t → t.running = true → t.sync.service = sync.service → t.sync.key ≠ sync.key

variable [Hashing]

def snapshotSystem : System SnapshotState SyncAction where
  start s := s.tasks = (fun _ => none) ∧ s.claims = [] ∧ s.fetches = []
  allowed s
    | .enter _ sync _ => sync.valid = true ∧ s.unlocked sync
    | _ => True
  next := SnapshotState.next

end GameLink.Ff14

import Mathlib.Data.List.MinMax
import Mathlib.Data.Prod.Lex
import GameLink.Ff14.Snapshots

namespace GameLink.Ff14

open Foundation Contracts Digest

/-! `CalendarSnapshots.read`: the stored feeds are parsed again for a window, and one of them is shown. -/

def maxReminderAge : ℤ := 172800 * second

inductive Slot where
  | absent
  | other
  | payload (fetchedAt : Option Instant) (raw version : Option String)
  deriving DecidableEq

def Slot.present (slot : Slot) : Bool := slot ≠ .absent

structure FeedRecord where
  region : Option String
  sourceId : Option String
  urlFingerprint : Option String
  lastStatus : Option String
  complete : Slot
  partialFeed : Slot
  deriving DecidableEq

def StoredFeed.slot (feed : StoredFeed) : Slot := .payload (some feed.fetchedAt) (some feed.raw) (some feed.version)

def SnapshotValue.feeds (value : SnapshotValue) : FeedRecord where
  region := value.region
  sourceId := value.sourceId
  urlFingerprint := value.urlFingerprint
  lastStatus := value.lastStatus
  complete := (value.complete.map StoredFeed.slot).getD .absent
  partialFeed := (value.partialFeed.map StoredFeed.slot).getD .absent

structure ParseOptions where
  windowStart : Instant
  windowEnd : Instant
  displayTimezone : String
  rejectFloating : Bool
  deriving DecidableEq

structure ReadOptions extends ParseOptions where
  intervalSeconds : ℤ
  deriving DecidableEq

structure ParsedFeed (ω : Type) where
  completeness : Completeness
  occurrences : List ω
  warnings : List String
  deriving DecidableEq

structure CalendarSourceSnapshot (ω : Type) where
  region : String
  completeness : ObservationCompleteness
  windowStart : Instant
  windowEnd : Instant
  sourceId : Option String
  sourceVariant : Option String
  sourceUrl : Option String
  sourceVersion : Option String
  occurrences : List ω
  warningCodes : List String
  fetchedAt : Option Instant
  deriving DecidableEq

structure StoredCandidate where
  spec : CalendarSourceSpec
  inComplete : Bool
  feed : StoredFeed
  lastStatus : Option String
  deriving DecidableEq

structure Choice (ω : Type) where
  candidate : StoredCandidate
  parsed : ParsedFeed ω
  snapshot : CalendarSourceSnapshot ω
  deriving DecidableEq

def primarySource : String := "ff14_calendar_primary"

def fallback : String := "ff14_calendar_fallback"

section

variable [Hashing]

/-- One record of `_values`: a record of another region, source or URL is no value. -/
def storedValue (region sourceId : String) (records : String → Option FeedRecord) :
    Option (CalendarSourceSpec × FeedRecord) := do
  let spec ← calendarSourceSpec region sourceId
  let record ← records (sourceKey region spec)
  if record.region = some region ∧ record.sourceId = some sourceId ∧ record.urlFingerprint = some (urlFingerprint spec)
  then some (spec, record) else none

def storedValues (region : String) (records : String → Option FeedRecord) : List (CalendarSourceSpec × FeedRecord) :=
  [primarySource, fallback].filterMap fun sourceId => storedValue region sourceId records

def validFeed : Slot → Option StoredFeed
  | .payload (some fetchedAt) (some raw) version =>
    if maxBytes < raw.length then none
    else if maxBytes < raw.utf8ByteSize ∨ version ≠ some (Hashing.sha256 raw) then none
    else some ⟨raw, fetchedAt, Hashing.sha256 raw⟩
  | _ => none

def candidatesOf (value : CalendarSourceSpec × FeedRecord) : List StoredCandidate :=
  ((validFeed value.2.complete).map fun feed => ⟨value.1, true, feed, value.2.lastStatus⟩).toList ++
    ((validFeed value.2.partialFeed).map fun feed => ⟨value.1, false, feed, value.2.lastStatus⟩).toList

def storedCandidates (values : List (CalendarSourceSpec × FeedRecord)) : List StoredCandidate :=
  values.flatMap candidatesOf

end

def feedAge (now fetchedAt : Instant) : ℤ := max 0 (now - fetchedAt)

section

variable {ω : Type} (parse : String → String → ParseOptions → Option (ParsedFeed ω)) (region : String)
  (options : ReadOptions)

def primaryFailed (values : List (CalendarSourceSpec × FeedRecord)) : Bool :=
  values.any fun v => v.1.sourceId = primarySource && v.2.lastStatus = some "failed"

def warningsOf (values : List (CalendarSourceSpec × FeedRecord)) (limited : Bool) (now : Instant) (c : StoredCandidate)
    (parsed : ParsedFeed ω) : List String :=
  (parsed.warnings.map fun code => "parser:" ++ code) ++
    (if c.spec.sourceId = fallback ∧ primaryFailed values then ["primary_source_failed"] else []) ++
    (if 2 * options.intervalSeconds * second ≤ feedAge now c.feed.fetchedAt then ["snapshot_stale"] else []) ++
    (if c.lastStatus.any (fun s => s = "failed" || s = "interrupted" || s = "partial") ∧ c.inComplete then
      ["snapshot_refresh_failed"] else []) ++ (if limited then ["refresh_cooldown"] else []) ++
    (if options.rejectFloating ∧ maxReminderAge < feedAge now c.feed.fetchedAt then ["snapshot_too_old"] else [])

def statusOf (now : Instant) (c : StoredCandidate) (parsed : ParsedFeed ω) : ObservationCompleteness :=
  if options.rejectFloating ∧ maxReminderAge < feedAge now c.feed.fetchedAt then .failed
  else if c.inComplete ∧ parsed.completeness = .complete then .complete
  else .partialResult

def snapshotOf (values : List (CalendarSourceSpec × FeedRecord)) (limited : Bool) (now : Instant) (c : StoredCandidate)
    (parsed : ParsedFeed ω) : CalendarSourceSnapshot ω where
  region := region
  completeness := statusOf options now c parsed
  windowStart := options.windowStart
  windowEnd := options.windowEnd
  sourceId := some c.spec.sourceId
  sourceVariant := some c.spec.variant
  sourceUrl := some c.spec.url
  sourceVersion := some c.feed.version
  occurrences := parsed.occurrences
  -- `dict.fromkeys` keeps the first of equal warnings.
  warningCodes := (warningsOf options values limited now c parsed).eraseDups
  fetchedAt := some c.feed.fetchedAt

def choiceOf (values : List (CalendarSourceSpec × FeedRecord)) (limited : Bool) (now : Instant) (c : StoredCandidate) :
    Option (Choice ω) :=
  (parse c.feed.raw c.spec.sourceId options.toParseOptions).map fun parsed =>
    ⟨c, parsed, snapshotOf region options values limited now c parsed⟩

abbrev intOrder : PartialOrder ℤ := Int.instLinearOrder.toPartialOrder

attribute [local instance] intOrder

/-- `item[:4]`: complete before partial, then a partial with occurrences, then the newest, then the primary -/
def Choice.key (choice : Choice ω) : Bool ×ₗ Bool ×ₗ ℤ ×ₗ Bool :=
  toLex (choice.candidate.inComplete, toLex
    (if choice.candidate.inComplete then true else !choice.parsed.occurrences.isEmpty, toLex
      (choice.candidate.feed.fetchedAt, choice.candidate.spec.sourceId = primarySource)))

def unavailable : CalendarSourceSnapshot ω :=
  ⟨region, .failed, options.windowStart, options.windowEnd, none, none, none, none, [], ["source_unavailable"], none⟩

variable [Hashing]

def readValues (values : List (CalendarSourceSpec × FeedRecord)) (limited : Bool) (now : Instant) :
    Option (CalendarSourceSnapshot ω) := do
  let choices ← (storedCandidates values).mapM (choiceOf parse region options values limited now)
  match choices.argmax Choice.key with
  | some choice => return choice.snapshot
  | none => return unavailable region options

/-- The records that `read` chooses from, and whether its synchronisation was limited. `before` are the records before
`_synchronize_bound`, `after` those that it leaves. -/
def readRecords (manual coldSync limited : Bool) (before after : String → Option FeedRecord) :
    List (CalendarSourceSpec × FeedRecord) × Bool :=
  let values := if manual then [] else storedValues region before
  if manual || (coldSync && !values.any fun v => v.2.complete.present || v.2.partialFeed.present) then
    (storedValues region after, limited)
  else (values, false)

def readSnapshot (manual coldSync limited : Bool) (before after : String → Option FeedRecord) (now : Instant) :
    Option (CalendarSourceSnapshot ω) :=
  let r := readRecords region manual coldSync limited before after
  readValues parse region options r.1 r.2 now

end

end GameLink.Ff14

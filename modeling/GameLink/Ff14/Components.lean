import Mathlib.Data.Prod.Lex
import Mathlib.Data.String.Basic
import GameLink.Foundation.Grouping
import GameLink.Ff14.Gaps

namespace GameLink.Ff14.Ics

open Foundation Contracts Digest

/-! The events of an iCalendar feed: their times, their properties and their revisions. -/

inductive Fault where
  | problem (code : String) (used : ℕ)
  | attributeError
  | raised (e : Failure)
  deriving DecidableEq

def Fault.of : SeriesError → Fault
  | .problem code used => .problem code used
  | .raised e => .raised e

def fail {α : Type} (code : String) : Except Fault α := .error (.problem code 0)

def failIf (c : Prop) [Decidable c] (code : String) : Except Fault Unit := if c then fail code else pure ()

def call {α : Type} (x : Except Failure α) : Except Fault α := x.mapError .raised

def ordinary : Failure → Bool
  | .keyError _ => true
  | .typeError => true
  | .valueError _ => true
  | .overflowError => true
  | _ => false

structure Zone where
  key : String
  info : ZoneInfo

def utc : Zone := ⟨"UTC", ZoneInfo.ofTransitions 0 []⟩

structure Timed where
  zone : Zone
  wall : ℤ
  offset : ℤ

inductive Temporal where
  | date (d : LocalDate)
  | timed (t : Timed)

def Temporal.isDate : Temporal → Bool
  | .date _ => true
  | .timed _ => false

def Timed.ofWall (zone : Zone) (wall : ℤ) : Timed := ⟨zone, wall, zone.info.wallOffset false wall⟩

def Timed.utc (t : Timed) : Except Failure Instant := inYears (t.wall - t.offset)

def Timed.ofInstant (zone : Zone) (u : Instant) : Except Failure Timed :=
  (inYears (u + zone.info.utcOffset u)).map fun wall => ⟨zone, wall, zone.info.utcOffset u⟩

/-- `value.astimezone(zone)`, which leaves a value of that zone as it is. -/
def Timed.astimezone (t : Timed) (zone : Zone) : Except Failure Timed :=
  if t.zone.key = zone.key then .ok t
  else do
    let u ← t.utc
    Timed.ofInstant zone u

inductive Identity where
  | date (d : LocalDate)
  | timed (wall offset : ℤ)
  deriving DecidableEq

def identity : Temporal → Identity
  | .date d => .date d
  | .timed t => .timed t.wall t.offset

/-- The order of the texts: a date comes before the times of its day, `+` before `-`. -/
def Identity.rank : Identity → ℤ ×ₗ ℤ ×ₗ ℤ ×ₗ ℤ
  | .date d => toLex (d.ordinal * day, toLex (0, toLex (0, 0)))
  | .timed wall offset => toLex (wall, toLex (1, toLex (if 0 ≤ offset then 0 else 1, offset.natAbs)))

def duration : Temporal → Temporal → Except Failure ℤ
  | .timed first, .timed last => do
    let last ← last.utc
    let first ← first.utc
    pure (last - first)
  | .date first, .date last => pure ((last.ordinal - first.ordinal) * day)
  | _, _ => throw .typeError

def validatePair (first last : Temporal) : Except Fault Unit :=
  match first, last with
  | .timed _, .timed _ => do
    let length ← call (duration first last)
    if length < 0 then fail "INVALID_EVENT" else pure ()
  | .date d, .date d' => if d'.ordinal ≤ d.ordinal then fail "INVALID_EVENT" else pure ()
  | _, _ => fail "INVALID_EVENT"

def validateSameTemporalKind : Temporal → Temporal → Except Fault Unit
  | .date _, .date _ => pure ()
  | .timed t, .timed t' => if t.zone.key = t'.zone.key then pure () else fail "UNSUPPORTED_RECURRENCE"
  | _, _ => fail "UNSUPPORTED_RECURRENCE"

inductive Raw where
  | date (d : LocalDate)
  | naive (wall : ℤ)
  | aware (t : Aware)
  | other
  deriving DecidableEq

structure Dated where
  dt : Raw
  tzid : String
  range : String
  deriving DecidableEq

inductive Atom where
  | text (upper : String)
  | number (n : ℤ)
  | date (d : LocalDate)
  | datetime (seconds : ℤ) (offset : Option ℤ)
  deriving DecidableEq

structure Rule where
  items : List (String × List Atom)
  deriving DecidableEq

inductive PropertyValue where
  | dated (d : Dated)
  | dates (value : String) (dts : List Dated)
  | recur (rule : Rule)
  | other
  deriving DecidableEq

/-- A VEVENT: its own properties under upper-case names, those of the components inside it with their BEGIN and END
lines, and what `decoded` and `to_ical` answer. -/
structure Component where
  own : List (String × PropertyValue)
  nested : List (String × PropertyValue)
  uid : Except Failure (Option String)
  sequence : Except Failure ℤ
  stamp : Except Failure (Option Instant)
  summary : Except Failure String
  status : Except Failure String
  ical : String

namespace Component

def contains (c : Component) (name : String) : Bool := c.own.any fun e => e.1 == name

def get (c : Component) (name : String) : Option PropertyValue := (c.own.find? fun e => e.1 == name).map Prod.snd

def propertyItems (c : Component) : List (String × PropertyValue) :=
  ("BEGIN", .other) :: (c.own ++ c.nested ++ [("END", .other)])

def properties (c : Component) (name : String) : List PropertyValue :=
  (c.propertyItems.filter fun e => e.1 == name).map Prod.snd

def safeUid (c : Component) : Option String :=
  match c.uid with
  | .ok (some uid) => if uid = "" then none else some uid
  | _ => none

end Component

structure Event where
  component : Component
  uid : String
  recurrenceId : Option Temporal
  start : Option Temporal
  stop : Option Temporal
  summary : String
  cancelled : Bool
  sequence : ℤ
  stamp : Option Instant

structure Recurrence where
  values : List ℤ
  stops : Option Failure

inductive Until where
  | date (d : LocalDate)
  | instant (t : Instant)
  deriving DecidableEq

/-- The libraries, and the arguments of `parse_ics` beside the feed. `rrulestr` is given the rule, an UNTIL in place of
its own, and DTSTART as a time on the wall clock, of a zone for a timed event. -/
structure Setting where
  dateutil : Dateutil
  zones : String → Except Failure ZoneInfo
  rrulestr : Rule → Option Until → Option Zone → ℤ → Except Failure Recurrence
  display : Zone
  windowStart : Aware
  windowEnd : Aware
  sourceId : String
  rejectFloating : Bool

section

variable (e : Setting)

def resolved (zone : Zone) (wall : ℤ) : Except Fault Timed :=
  match resolveLocal e.dateutil zone.info wall with
  | .ok wall => .ok (Timed.ofWall zone wall)
  | .error err => .error (Fault.of err)

def zoneOf (tzid : String) : Except Fault Zone :=
  match e.zones tzid with
  | .ok info => .ok ⟨tzid, info⟩
  | .error (.keyError _) => fail "INVALID_TIMEZONE"
  | .error (.valueError _) => fail "INVALID_TIMEZONE"
  | .error err => .error (.raised err)

def zoned (tzid : String) (wall : ℤ) : Except Fault Temporal := do
  let zone ← zoneOf e tzid
  let t ← resolved e zone wall
  pure (.timed t)

def temporal (value : Dated) : Except Fault Temporal :=
  match value.dt with
  | .naive wall =>
    if value.tzid ≠ "" then zoned e value.tzid wall
    else if e.rejectFloating then fail "FLOATING_TIME_UNSUPPORTED"
    else do
      let t ← resolved e e.display wall
      pure (.timed t)
  | .aware t =>
    if value.tzid ≠ "" then zoned e value.tzid t.wall
    else if t.offset ≠ 0 then fail "INVALID_TIMEZONE"
    else .ok (.timed ⟨utc, t.wall, 0⟩)
  | .date d => if value.tzid ≠ "" then fail "INVALID_TIMEZONE" else .ok (.date d)
  | .other => fail "INVALID_EVENT"

/-- `_temporal(component.get(name))`, where the component has that property -/
def temporalOf (c : Component) (name : String) : Except Fault (Option Temporal) :=
  if c.contains name then
    match c.get name with
    | none => .error (.raised (.valueError "missing temporal value"))
    | some (.dated value) => (temporal e value).map some
    | some _ => .error .attributeError
  else .ok none

def onceOnly : List String :=
  ["UID", "DTSTART", "DTEND", "STATUS", "SEQUENCE", "DTSTAMP", "RECURRENCE-ID", "RRULE"]

def valueError {α : Type} : Except Fault α := .error (.raised (.valueError ""))

def valueErrorIf (c : Prop) [Decidable c] : Except Fault Unit := if c then valueError else pure ()

def readStamp (c : Component) : Except Fault (Option Instant) :=
  if c.contains "DTSTAMP" then do
    let stamp ← call c.stamp
    match stamp with
    | some stamp => pure (some stamp)
    | none => valueError
  else pure none

def stopOf : Option Temporal → Option Temporal → Except Fault (Option Temporal)
  | some first, some last => do
    validatePair first last
    pure (some last)
  | some (.date d), none => (call (addDays d 1)).map fun d => some (.date d)
  | some (.timed t), none => pure (some (.timed t))
  | none, last => pure last

def checkRange (c : Component) : Except Fault Unit :=
  match c.get "RECURRENCE-ID" with
  | some (.dated value) =>
    if value.range = "THISANDFUTURE" then fail "UNSUPPORTED_RECURRENCE"
    else if value.range ≠ "" then valueError
    else pure ()
  | _ => pure ()

def readFields (c : Component) (uid : String) : Except Fault Event := do
  let sequence ← call c.sequence
  valueErrorIf (sequence < 0)
  let stamp ← readStamp c
  let start ← temporalOf e c "DTSTART"
  let last ← temporalOf e c "DTEND"
  let recurrenceId ← temporalOf e c "RECURRENCE-ID"
  let stop ← stopOf start last
  let summary ← call c.summary
  let status ← call c.status
  valueErrorIf (status ∉ ["", "CONFIRMED", "TENTATIVE", "CANCELLED"])
  checkRange c
  pure ⟨c, uid, recurrenceId, start, stop, summary, status == "CANCELLED", sequence, stamp⟩

def invalidEvent {α : Type} : Except Fault α → Except Fault α
  | .error (.raised err) => if ordinary err then fail "INVALID_EVENT" else .error (.raised err)
  | x => x

def readEvent (c : Component) : Except Fault Event :=
  if c.contains "DURATION" || c.contains "EXRULE" then fail "INVALID_EVENT"
  else if onceOnly.any fun name => 1 < (c.properties name).length then fail "INVALID_EVENT"
  else
    match c.safeUid with
    | none => fail "INVALID_EVENT"
    | some uid => invalidEvent (readFields e c uid)

end

def Event.age (item : Event) : ℤ ×ₗ ℤ := toLex (item.sequence, item.stamp.getD minWall)

def latest (candidates : List Event) : Except Fault Event :=
  match candidates.insertionSort fun a b => b.age ≤ a.age with
  | [] => .error (.raised (.valueError ""))
  | top :: rest =>
    if rest.any fun item =>
        item.sequence == top.sequence && item.stamp == top.stamp && item.component.ical != top.component.ical then
      fail "CONFLICTING_REVISION"
    else .ok top

def latestOfAll : List (Option Identity × List Event) → Except Fault (List Event)
  | [] => .ok []
  | (_, candidates) :: rest => do
    let top ← latest candidates
    let chosen ← latestOfAll rest
    pure (top :: chosen)

def selectRevisions (events : List Event) : Except Fault (List Event × List Event) := do
  let chosen ← latestOfAll (groupBy (fun item => item.recurrenceId.map identity) events)
  pure (chosen.filter fun item => item.recurrenceId.isNone, chosen.filter fun item => item.recurrenceId.isSome)

end GameLink.Ff14.Ics

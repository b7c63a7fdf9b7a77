import GameLink.Ff14.Times
import GameLink.Foundation.Memory

namespace GameLink.Ff14

open Foundation Contracts Digest

/-! `modules/ff14/features/calendar_evaluator.py`: one summary of seven local days. -/

def filterKind : String := "daily_summary"

def defaultTimezone : String := "Asia/Shanghai"

def defaultLocalTime : String := "08:00"

def dailyWindowDays : ℤ := 7

def maxRememberedDates : ℕ := 32

def maxDisplayEvents : ℕ := 15

def maxSummaryLength : ℕ := 160

def maxPayloadOccurrences : ℕ := 2000

structure CalendarSourceSpec where
  sourceId : String
  variant : String
  url : String
  deriving DecidableEq

def calendarSourceSpec (region sourceId : String) : Option CalendarSourceSpec :=
  if region = "cn" ∧ sourceId = "ff14_calendar_primary" then
    some ⟨sourceId, "cn_google", "https://calendar.google.com/calendar/ical/up88drvlnnh2t77hbpqq8v33i2cngfh7%40import.calendar.google.com/public/basic.ics"⟩
  else if region = "cn" ∧ sourceId = "ff14_calendar_fallback" then
    some ⟨sourceId, "cn_icloud", "https://p66-caldav.icloud.com/published/2/MTAyMTk3MTMxMjExMDIxOXsjasy7WUO0EcKVz7qGEuVjjTlRkgd6WOZM171uxP_u-QM51M24lHzRlAQir-oodDRRTzZeusSLbw0snkZoqI4"⟩
  else if region = "global" ∧ sourceId = "ff14_calendar_primary" then
    some ⟨sourceId, "global_google", "https://calendar.google.com/calendar/ical/1gpnler51bgs1ajti10ao946ou367bf6%40import.calendar.google.com/public/basic.ics"⟩
  else if region = "global" ∧ sourceId = "ff14_calendar_fallback" then
    some ⟨sourceId, "global_icloud", "https://p66-caldav.icloud.com/published/2/MTAyMTk3MTMxMjExMDIxOXsjasy7WUO0EcKVz7qGEuVzSK8L9ZRQYf1sxUFeH1A1a22GJLf6nfk2-CZNYMv5iOxCNlUR-umbJKFWWAUVRp8"⟩
  else none

structure SubscriptionView where
  revision : ℕ
  filters : Json
  deriving DecidableEq

/-- One entry of a payload. A field that is absent or of another type is `none`, an absent marker `some false`. -/
structure RawOccurrence where
  allDay : Option Bool
  summary : Option String
  sourceId : Option String
  start : IsoText
  stop : IsoText
  cancelled : Option Bool
  deriving DecidableEq

structure CalendarPayload where
  schemaVersion : Option ℤ
  region : Option String
  completeness : Option String
  sourceId : Option String
  sourceVariant : Option String
  sourceUrl : Option String
  sourceVersion : Option String
  occurrences : Option (List RawOccurrence)
  windowStart : IsoText
  windowEnd : IsoText
  sourceFetchedAt : Option IsoText
  deriving DecidableEq

structure CalendarObservation where
  key : CollectionKey
  dataVersion : ℕ
  collectedAt : Instant
  completeness : ObservationCompleteness
  payload : CalendarPayload
  deriving DecidableEq

structure SummaryState where
  subscriptionRevision : Option ℕ
  scheduleFingerprint : Option String
  baselineLocalDate : Option LocalDate
  lastEventLocalDate : Option LocalDate
  emittedLocalDates : List LocalDate
  deriving DecidableEq

def SummaryState.empty : SummaryState := ⟨none, none, none, none, []⟩

structure Settings where
  region : String
  timezone : String
  time : String
  deriving DecidableEq

inductive Span where
  | allDay (start stop : LocalDate)
  | timed (start stop : Aware)
  deriving DecidableEq

structure DisplayOccurrence where
  summary : String
  span : Span
  sourceId : String
  deriving DecidableEq

structure CalendarSnapshot where
  sourceId : String
  sourceVariant : String
  sourceUrl : String
  windowStart : Instant
  windowEnd : Instant
  occurrences : List RawOccurrence
  sourceFetchedAt : Option Aware
  deriving DecidableEq

def decimalDigit (c : Char) : Bool := '0' ≤ c && c ≤ '9'

def isVersion (text : String) : Bool :=
  text.toList.length = 64 && text.toList.all fun c => decimalDigit c || ('a' ≤ c && c ≤ 'f')

def parseLocalTime (text : String) : Except Failure ℕ :=
  match minuteOfDay text with
  | .ok minutes => .ok minutes
  | .error _ => .error (.valueError "time must use HH:MM")

def lastSegment (text : String) : String := String.ofList (text.toList.reverse.takeWhile (· ≠ '/')).reverse

def parseTemporal (start stop : IsoText) (allDay : Bool) : Except Failure Span :=
  if allDay then
    match start, stop with
    | .date first, .date last => .ok (.allDay first last)
    | _, _ => .error (.valueError "Invalid isoformat string")
  else
    match start, stop with
    | .aware first, .aware last => .ok (.timed first last)
    | _, _ => .error (.valueError "timed occurrence must be timezone-aware")

def asDisplayOccurrence (raw : RawOccurrence) : Except Failure DisplayOccurrence :=
  match raw.allDay with
  | none => .error (.valueError "invalid occurrence kind")
  | some allDay =>
    match raw.summary, raw.sourceId with
    | some summary, some sourceId =>
      match parseTemporal raw.start raw.stop allDay with
      | .error e => .error e
      | .ok span =>
        if raw.cancelled = none then .error (.valueError "invalid cancellation marker")
        else .ok ⟨summary, span, sourceId⟩
    | _, _ => .error (.valueError "invalid occurrence text")

def isCancelled (raw : RawOccurrence) : Bool := raw.cancelled = some true

section

variable (zones : String → Option ZoneInfo)

def loadTimezone (name : String) : Except Failure ZoneInfo :=
  if name = "" ∨ 128 < name.length then .error (.valueError "timezone must be an IANA name")
  else
    match zones name with
    | some zone => .ok zone
    | none => .error (.valueError "timezone must be an IANA name")

def textOr (value : Option Json) (default error : String) : Except Failure String :=
  match value with
  | none => .ok default
  | some (.str text) => .ok text
  | some _ => .error (.valueError error)

def subscriptionRegion (filters : Json) : Except Failure String :=
  match filters.field "region" with
  | some (.str region) =>
    if region = "cn" ∨ region = "global" then .ok region else .error (.valueError "unsupported region")
  | _ => .error (.valueError "unsupported region")

def subscriptionSettings (subscription : SubscriptionView) : Except Failure Settings := do
  let filters := subscription.filters
  if filters.field "kind" ≠ some (.str filterKind) then .error (.valueError "unsupported subscription kind")
  else
    let region ← subscriptionRegion filters
    let timezone ← textOr (filters.field "timezone") defaultTimezone "timezone must be an IANA name"
    let _ ← loadTimezone zones timezone
    let time ← textOr (filters.field "time") defaultLocalTime "time must use HH:MM"
    let _ ← parseLocalTime time
    pure ⟨region, timezone, time⟩

def validateCollectionKey (observation : CalendarObservation) (region : String) : Except Failure Unit :=
  let key := observation.key
  if lastSegment key.moduleId ≠ "ff14" ∨ key.collectorId ≠ "ff14.calendar.collect" ∨ key.keyVersion ≠ 1 ∨
      key.sourceId ≠ "ff14_calendar_primary" ∨ key.scope.kind ≠ .public ∨
      key.parameters ≠ .obj [("region", .str region)] then
    .error (.valueError "calendar observation key does not match the public contract")
  else .ok ()

def payloadSource (payload : CalendarPayload) (region : String) : Except Failure CalendarSourceSpec :=
  match payload.sourceId.bind (calendarSourceSpec region) with
  | none => .error (.valueError "unknown calendar source")
  | some spec =>
    if payload.sourceVariant ≠ some spec.variant then .error (.valueError "calendar source region mismatch")
    else if payload.sourceUrl ≠ some spec.url then .error (.valueError "invalid calendar source URL")
    else if !payload.sourceVersion.any isVersion then .error (.valueError "invalid source version")
    else .ok spec

def payloadOccurrences (payload : CalendarPayload) : Except Failure (List RawOccurrence) :=
  match payload.occurrences with
  | some occurrences =>
    if maxPayloadOccurrences < occurrences.length then .error (.valueError "invalid occurrence collection")
    else .ok occurrences
  | none => .error (.valueError "invalid occurrence collection")

def payloadWindow (payload : CalendarPayload) : Except Failure (Instant × Instant) :=
  match payload.windowStart, payload.windowEnd with
  | .aware start, .aware stop =>
    if start.offset ≠ 0 ∨ stop.offset ≠ 0 ∨ stop.instant ≤ start.instant then
      .error (.valueError "invalid source window")
    else .ok (start.instant, stop.instant)
  | _, _ => .error (.valueError "invalid source window")

def payloadFetchedAt (payload : CalendarPayload) (collectedAt : Instant) : Except Failure (Option Aware) :=
  match payload.sourceFetchedAt with
  | none => .ok none
  | some (.aware fetched) =>
    if 0 ≤ collectedAt - fetched.instant ∧ collectedAt - fetched.instant ≤ 2 * day then .ok (some fetched)
    else .error (.valueError "source snapshot is not fresh enough for reminders")
  | some _ => .error (.valueError "source snapshot is not fresh enough for reminders")

def checkOccurrences (sourceId : String) : List RawOccurrence → Except Failure Unit
  | [] => .ok ()
  | raw :: rest =>
    match asDisplayOccurrence raw with
    | .error e => .error e
    | .ok item =>
      if item.sourceId ≠ sourceId ∨ 240 < item.summary.length then .error (.valueError "invalid source occurrence")
      else checkOccurrences sourceId rest

def completePayload (observation : CalendarObservation) (region : String) : Except Failure CalendarSnapshot := do
  let payload := observation.payload
  if observation.dataVersion ≠ 1 then .error (.valueError "unsupported observation data version")
  else if payload.schemaVersion ≠ some 1 ∨ payload.region ≠ some region ∨ payload.completeness ≠ some "complete" then
    .error (.valueError "observation payload is not a complete calendar snapshot")
  else
    let spec ← payloadSource payload region
    let occurrences ← payloadOccurrences payload
    let window ← payloadWindow payload
    let fetchedAt ← payloadFetchedAt payload observation.collectedAt
    checkOccurrences spec.sourceId occurrences
    pure ⟨spec.sourceId, spec.variant, spec.url, window.1, window.2, occurrences, fetchedAt⟩

def covers (snapshot : CalendarSnapshot) (requiredStart requiredEnd : Instant) : Bool :=
  snapshot.windowStart ≤ requiredStart && requiredEnd ≤ snapshot.windowEnd

structure Inputs where
  settings : Settings
  snapshot : CalendarSnapshot
  zone : ZoneInfo
  dueTime : ℕ

def readInputs (subscription : SubscriptionView) (observation : CalendarObservation) : Except Failure Inputs := do
  let settings ← subscriptionSettings zones subscription
  validateCollectionKey observation settings.region
  let snapshot ← completePayload observation settings.region
  let zone ← loadTimezone zones settings.timezone
  let dueTime ← parseLocalTime settings.time
  pure ⟨settings, snapshot, zone, dueTime⟩

end

section

variable (dateutil : Dateutil)

def selects (localDate localEndDate : LocalDate) (startAt endAt now : Instant) : Span → Except Failure Bool
  | .allDay first last => .ok (decide (first.ordinal < localEndDate.ordinal ∧ localDate.ordinal < last.ordinal))
  | .timed first last =>
    match first.utc, last.utc with
    | .ok start, .ok stop =>
      if start = stop then .ok (decide (startAt ≤ start ∧ start < endAt ∧ now ≤ start))
      else .ok (decide (start < endAt ∧ startAt < stop ∧ now < stop))
    | .error e, _ => .error e
    | _, .error e => .error e

def selectOccurrences (localDate localEndDate : LocalDate) (startAt endAt now : Instant) :
    List RawOccurrence → Except Failure (List DisplayOccurrence)
  | [] => .ok []
  | raw :: rest =>
    match asDisplayOccurrence raw with
    | .error _ => selectOccurrences localDate localEndDate startAt endAt now rest
    | .ok item =>
      if isCancelled raw then selectOccurrences localDate localEndDate startAt endAt now rest
      else
        match selects localDate localEndDate startAt endAt now item.span,
            selectOccurrences localDate localEndDate startAt endAt now rest with
        | .ok true, .ok selected => .ok (item :: selected)
        | .ok false, .ok selected => .ok selected
        | .error e, _ => .error e
        | _, .error e => .error e

def sortKey (zone : ZoneInfo) (item : DisplayOccurrence) : Except Failure (Instant × String) :=
  match item.span with
  | .allDay first _ =>
    match midnightInstant dateutil first zone with
    | .ok start => .ok (start, item.summary)
    | .error e => .error e
  | .timed first _ =>
    match first.utc with
    | .ok start => .ok (start, item.summary)
    | .error e => .error e

def keyed (zone : ZoneInfo) (item : DisplayOccurrence) : Except Failure ((Instant × String) × DisplayOccurrence) :=
  match sortKey dateutil zone item with
  | .ok key => .ok (key, item)
  | .error e => .error e

def keyAtMost (a b : (Instant × String) × DisplayOccurrence) : Bool :=
  a.1.1 < b.1.1 || (a.1.1 = b.1.1 && a.1.2 ≤ b.1.2)

def filterOccurrences (occurrences : List RawOccurrence) (localDate : LocalDate) (days : ℤ) (zone : ZoneInfo)
    (now : Instant) : Except Failure (List DisplayOccurrence) := do
  let localEndDate ← addDays localDate days
  let startAt ← midnightInstant dateutil localDate zone
  let endAt ← midnightInstant dateutil localEndDate zone
  let now ← inYears now
  let selected ← selectOccurrences localDate localEndDate startAt endAt now occurrences
  let keys ← selected.mapM (keyed dateutil zone)
  pure ((keys.mergeSort keyAtMost).map Prod.snd)

inductive ShownTime where
  | allDay (d : LocalDate)
  | wall (time : ℤ)
  | pointInTime
  deriving DecidableEq

structure DocumentRow where
  summary : String
  start : ShownTime
  stop : ShownTime
  ongoing : Bool
  deriving DecidableEq

structure CalendarDocument where
  localDate : LocalDate
  days : ℤ
  timezoneName : String
  sourceVariant : String
  sourceUrl : String
  fetchedAt : ℤ
  rows : List DocumentRow
  omitted : ℕ
  deriving DecidableEq

def boundedSummary (summary : String) : String :=
  let words := (summary.toList.splitOnP isBlank).filter fun word => !word.isEmpty
  let clean := (([' '] : List Char).intercalate words).take maxSummaryLength
  if clean = [] then "未命名活动" else String.ofList clean

def formatStart (zone : ZoneInfo) : Span → Except Failure ShownTime
  | .allDay first _ => .ok (.allDay first)
  | .timed first _ =>
    match toZone zone first.instant with
    | .ok wall => .ok (.wall wall)
    | .error e => .error e

def formatEnd (zone : ZoneInfo) : Span → Except Failure ShownTime
  | .allDay _ last =>
    match addDays last (-1) with
    | .ok inclusive => .ok (.allDay inclusive)
    | .error e => .error e
  | .timed first last =>
    if last.instant = first.instant then .ok .pointInTime
    else
      match toZone zone last.instant with
      | .ok wall => .ok (.wall wall)
      | .error e => .error e

def isOngoing (localNow : ℤ) (now : Instant) : Span → Bool
  | .allDay first _ => first.ordinal ≤ localNow / day
  | .timed first _ => first.instant ≤ now

def documentRow (zone : ZoneInfo) (localNow : ℤ) (now : Instant) (item : DisplayOccurrence) :
    Except Failure DocumentRow :=
  match formatStart zone item.span, formatEnd zone item.span with
  | .ok start, .ok stop => .ok ⟨boundedSummary item.summary, start, stop, isOngoing localNow now item.span⟩
  | .error e, _ => .error e
  | _, .error e => .error e

def buildCalendarDocument (zone : ZoneInfo) (timezoneName : String) (snapshot : CalendarSnapshot)
    (localDate : LocalDate) (days : ℤ) (now : Instant) : Except Failure CalendarDocument := do
  let selected ← filterOccurrences dateutil snapshot.occurrences localDate days zone now
  let localNow ← toZone zone now
  let localFetched ← toZone zone ((snapshot.sourceFetchedAt.map Aware.instant).getD now)
  let rows ← (selected.take maxDisplayEvents).mapM (documentRow zone localNow now)
  pure ⟨localDate, days, timezoneName, snapshot.sourceVariant, snapshot.sourceUrl, localFetched, rows,
    selected.length - maxDisplayEvents⟩

structure EvaluationDecision where
  state : SummaryState
  triggered : Bool
  eventKey : Option String
  eventVersion : Option ℕ
  displayData : Option CalendarDocument
  deriving DecidableEq

def EvaluationDecision.quiet (state : SummaryState) : EvaluationDecision := ⟨state, false, none, none, none⟩

def parseEmittedDates (dates : List LocalDate) : List LocalDate :=
  (dates.foldl (fun seen d => if d ∈ seen then seen else seen ++ [d]) []).rtake maxRememberedDates

def rememberDate (emitted : List LocalDate) (today : LocalDate) : List LocalDate :=
  if today ∈ emitted then emitted else (emitted ++ [today]).rtake maxRememberedDates

structure Moment where
  today : LocalDate
  isDue : Bool
  deriving DecidableEq

def moment (zone : ZoneInfo) (dueTime : ℕ) (collectedAt : Instant) : Except Failure Moment := do
  let localNow ← toZone zone collectedAt
  let today ← dateOf localNow
  let dueAt ← localDueInstant dateutil today dueTime zone
  let now ← inYears collectedAt
  pure ⟨today, decide (dueAt ≤ now)⟩

def newBaseline (m : Moment) : Except Failure LocalDate := if m.isDue then addDays m.today 1 else .ok m.today

/-- Whether the snapshot covers the local days that a summary of `today` shows. -/
def coversWindow (zone : ZoneInfo) (snapshot : CalendarSnapshot) (today : LocalDate) : Except Failure Bool := do
  let windowStart ← midnightInstant dateutil today zone
  let lastDay ← addDays today dailyWindowDays
  let windowEnd ← midnightInstant dateutil lastDay zone
  pure (covers snapshot windowStart windowEnd)

variable [Hashing]

def scheduleFingerprint (settings : Settings) : String :=
  Hashing.sha256 (settings.region ++ "\x00" ++ settings.timezone ++ "\x00" ++ settings.time)

def lastEventDate (prior : SummaryState) : Option LocalDate :=
  match prior.lastEventLocalDate with
  | some d => some d
  | none => (parseEmittedDates prior.emittedLocalDates).getLast?

/-- `_evaluation_state` with everything but the baseline as it was before. -/
def keptState (revision : ℕ) (settings : Settings) (prior : SummaryState) (baseline : LocalDate) : SummaryState :=
  ⟨some revision, some (scheduleFingerprint settings), some baseline, lastEventDate prior,
    parseEmittedDates prior.emittedLocalDates⟩

def emit (revision : ℕ) (inputs : Inputs) (prior : SummaryState) (baseline today : LocalDate)
    (document : CalendarDocument) : EvaluationDecision where
  state := ⟨some revision, some (scheduleFingerprint inputs.settings), some baseline, some today,
    rememberDate (parseEmittedDates prior.emittedLocalDates) today⟩
  triggered := true
  eventKey := some ("ff14.calendar.daily." ++ today.isoformat)
  eventVersion := some 1
  displayData := some document

def evaluateSchedule (revision : ℕ) (collectedAt : Instant) (inputs : Inputs) (prior : SummaryState) (m : Moment)
    (baseline : LocalDate) : Except Failure EvaluationDecision :=
  let kept := EvaluationDecision.quiet (keptState revision inputs.settings prior baseline)
  if m.today.ordinal < baseline.ordinal ∨ !m.isDue then .ok kept
  else if lastEventDate prior = some m.today then .ok kept
  else
    match coversWindow dateutil inputs.zone inputs.snapshot m.today with
    | .error e => .error e
    | .ok false => .ok kept
    | .ok true =>
      if m.today ∈ parseEmittedDates prior.emittedLocalDates then .ok kept
      else
        match buildCalendarDocument dateutil inputs.zone inputs.settings.timezone inputs.snapshot m.today
            dailyWindowDays collectedAt with
        | .error e => .error e
        | .ok document => .ok (emit revision inputs prior baseline m.today document)

def sameSchedule (revision : ℕ) (settings : Settings) (prior : SummaryState) : Bool :=
  prior.subscriptionRevision = some revision && prior.scheduleFingerprint = some (scheduleFingerprint settings)

def evaluateInputs (revision : ℕ) (collectedAt : Instant) (inputs : Inputs) (prior : SummaryState) :
    Except Failure EvaluationDecision :=
  match moment dateutil inputs.zone inputs.dueTime collectedAt with
  | .error e => .error e
  | .ok m =>
    if sameSchedule revision inputs.settings prior then
      match prior.baselineLocalDate with
      | some baseline => evaluateSchedule dateutil revision collectedAt inputs prior m baseline
      | none =>
        match newBaseline m with
        | .error e => .error e
        | .ok baseline => evaluateSchedule dateutil revision collectedAt inputs prior m baseline
    else
      match newBaseline m with
      | .error e => .error e
      | .ok baseline => .ok (.quiet (keptState revision inputs.settings prior baseline))

def evaluate (zones : String → Option ZoneInfo) (subscription : SubscriptionView) (observation : CalendarObservation)
    (previousState : Option SummaryState) : Except Failure EvaluationDecision :=
  let prior := previousState.getD .empty
  if observation.completeness ≠ .complete then .ok (.quiet prior)
  else
    match readInputs zones subscription observation with
    | .error (.valueError _) => .ok (.quiet prior)
    | .error .typeError => .ok (.quiet prior)
    | .error (.keyError _) => .ok (.quiet prior)
    | .error e => .error e
    | .ok inputs => evaluateInputs dateutil subscription.revision observation.collectedAt inputs prior

end

end GameLink.Ff14

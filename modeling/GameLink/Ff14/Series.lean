import GameLink.Ff14.Components

namespace GameLink.Ff14.Ics

open Foundation Contracts Digest

/-! The occurrences of one series: its rule up to a bound, RDATE, EXDATE and the overrides. -/

structure CalendarOccurrence where
  uid : String
  recurrenceIdentity : Identity
  summary : String
  start : Temporal
  stop : Temporal
  allDay : Bool
  cancelled : Bool
  sourceId : String

def maxCandidatesPerUid : ℕ := 10000

def maxCandidatesPerSource : ℕ := 40000

def failUsed {α : Type} (code : String) (used : ℕ) : Except Fault α := .error (.problem code used)

def Rule.values (rule : Rule) (key : String) : Option (List Atom) := (rule.items.find? fun e => e.1 == key).map Prod.snd

def Rule.has (rule : Rule) (key : String) : Bool := (rule.values key).isSome

def allowedKeys : List String := ["FREQ", "INTERVAL", "COUNT", "UNTIL", "BYDAY", "BYMONTHDAY", "WKST"]

def Atom.int : Atom → Option ℤ
  | .number n => some n
  | _ => none

def Rule.first (rule : Rule) (key : String) (default : Atom) : Atom := ((rule.values key).getD [default]).headD default

def untilFits (start : Temporal) : Atom → Bool
  | .datetime _ offset => !start.isDate && offset == some 0
  | .date _ => start.isDate
  | _ => false

def Rule.valid (rule : Rule) (start : Temporal) : Bool :=
  !rule.items.isEmpty && (rule.items.all fun e => allowedKeys.contains e.1) &&
    (match rule.values "FREQ" with
      | some [.text freq] => ["DAILY", "WEEKLY", "MONTHLY"].contains freq
      | _ => false) &&
    !(rule.has "COUNT" && rule.has "UNTIL") &&
    (["INTERVAL", "COUNT", "UNTIL", "WKST"].all fun key => ((rule.values key).getD [.number 1]).length == 1) &&
    (match (rule.first "INTERVAL" (.number 1)).int with
      | some interval => decide (1 ≤ interval ∧ interval ≤ 366)
      | none => false) &&
    (match (rule.first "COUNT" (.number 1)).int with
      | some count => decide (1 ≤ count)
      | none => false) &&
    rule.first "WKST" (.text "MO") == .text "MO" &&
    (((rule.values "BYDAY").getD []).all fun weekday =>
      [.text "MO", .text "TU", .text "WE", .text "TH", .text "FR", .text "SA", .text "SU"].contains weekday) &&
    (((rule.values "BYMONTHDAY").getD []).all fun monthDay =>
      match monthDay.int with
      | some n => decide (1 ≤ n ∧ n ≤ 31)
      | none => false) &&
    (match rule.values "UNTIL" with
      | some (bound :: _) => untilFits start bound
      | _ => true)

def validateRule (rule : Rule) (start : Temporal) : Except Fault Unit :=
  if rule.valid start then pure () else fail "UNSUPPORTED_RECURRENCE"

def addDuration : Temporal → ℤ → Except Failure Temporal
  | .timed t, length => do
    let u ← t.utc
    let u ← inYears (u + length)
    let t ← Timed.ofInstant t.zone u
    pure (.timed t)
  | .date d, length => (addDays d (length / day)).map .date

section

variable (e : Setting)

def displayValue : Temporal → Except Failure Temporal
  | .timed t => (t.astimezone e.display).map .timed
  | .date d => .ok (.date d)

def instant : Temporal → Except Failure Instant
  | .timed t => t.utc
  | .date d => instantOf e.display.info (d.ordinal * day)

def intersects (first last : Temporal) : Except Failure Bool := do
  let first ← instant e first
  let last ← instant e last
  let lower ← e.windowStart.utc
  let upper ← e.windowEnd.utc
  if first = last then pure (decide (lower ≤ first ∧ first < upper))
  else pure (decide (first < upper ∧ lower < last))

def readDate (start : Temporal) (value : Dated) : Except Fault Temporal := do
  let candidate ← temporal e value
  validateSameTemporalKind start candidate
  pure candidate

def readExdates (start : Temporal) : PropertyValue → Except Fault (List Temporal)
  | .dates _ dts => dts.mapM (readDate e start)
  | _ => .error .attributeError

def readRdates (start : Temporal) : PropertyValue → Except Fault (List Temporal)
  | .dates value dts => if value = "PERIOD" then fail "UNSUPPORTED_RECURRENCE" else dts.mapM (readDate e start)
  | _ => .error .attributeError

def unsupported {α : Type} : Except Fault α → Except Fault α
  | .error .attributeError => fail "UNSUPPORTED_RECURRENCE"
  | .error (.raised .typeError) => fail "UNSUPPORTED_RECURRENCE"
  | .error (.raised (.valueError _)) => fail "UNSUPPORTED_RECURRENCE"
  | x => x

def readExceptions (c : Component) (start : Temporal) : Except Fault (List Temporal × List Temporal) :=
  unsupported do
    failIf (1 < (c.properties "RRULE").length) "UNSUPPORTED_RECURRENCE"
    let exdates ← (c.properties "EXDATE").mapM (readExdates e start)
    let rdates ← (c.properties "RDATE").mapM (readRdates e start)
    pure (exdates.flatten, rdates.flatten)

def targetOf (start : Temporal) : List Event → Instant → Except Fault Instant
  | [], target => .ok target
  | item :: rest, target =>
    match item.recurrenceId with
    | none => targetOf start rest target
    | some rid => do
      validateSameTemporalKind start rid
      let u ← call (instant e rid)
      targetOf start rest (max target u)

def untilDate (rule : Rule) : Option LocalDate :=
  match rule.values "UNTIL" with
  | some (.date d :: _) => some d
  | _ => none

def untilInstant (rule : Rule) : Option Instant :=
  match rule.values "UNTIL" with
  | some (.datetime seconds (some offset) :: _) => some (seconds * second - offset)
  | _ => none

def earlier (d : LocalDate) : Option LocalDate → LocalDate
  | none => d
  | some d' => if d'.ordinal < d.ordinal then d' else d

def spanDays (targetDay startDay : LocalDate) : ℕ := (max 1 (targetDay.ordinal - startDay.ordinal + 1)).toNat

def boundDays (rule : Rule) (start : LocalDate) (target : Instant) : Except Failure (Instant × Until × ℕ) := do
  let shown ← Timed.ofInstant e.display target
  let targetDay ← dateOf shown.wall
  let targetDay := earlier targetDay (untilDate rule)
  let target ← (Timed.ofWall e.display (targetDay.ordinal * day + (day - 1))).utc
  pure (target, .date targetDay, spanDays targetDay start)

/-- `target.replace(microsecond=0)`, a second later if that is before it -/
def roundUp (target : Instant) : Except Failure Instant :=
  if target % second = 0 then .ok target else inYears (target / second * second + second)

def boundInstant (rule : Rule) (start : Timed) (target : Instant) : Except Failure (Instant × Until × ℕ) := do
  let target :=
    match untilInstant rule with
    | none => target
    | some u => min target u
  let startDay ← dateOf start.wall
  let shown ← Timed.ofInstant start.zone target
  let targetDay ← dateOf shown.wall
  let limit ← roundUp target
  pure (target, .instant limit, spanDays targetDay startDay)

def boundOf (rule : Rule) (start : Temporal) (target : Instant) : Except Failure (Instant × Until × ℕ) :=
  match start with
  | .date d => boundDays e rule d target
  | .timed t => boundInstant rule t target

/-- The zone and the time that `rrulestr` starts from: a whole day has no zone. -/
def recurrenceStart : Temporal → Option Zone × ℤ
  | .date d => (none, d.ordinal * day)
  | .timed t => (some t.zone, t.wall)

def withinBudgets (used uidBudget sourceBudget : ℕ) : Except Fault Unit :=
  if uidBudget < used then failUsed "RECURRENCE_BUDGET" used
  else if sourceBudget < used then failUsed "SOURCE_BUDGET" used
  else pure ()

def boundedRecurrence (rule : Rule) (start : Temporal) (target : Instant) (dates uidBudget sourceBudget : ℕ) :
    Except Fault (Recurrence × Instant × ℕ) := do
  let (target, limit, span) ← call (boundOf e rule start target)
  withinBudgets (span + dates) uidBudget sourceBudget
  let (zone, wall) := recurrenceStart start
  match e.rrulestr rule (if rule.has "COUNT" then none else some limit) zone wall with
  | .ok recurrence => pure (recurrence, target, span + dates)
  | .error _ => fail "UNSUPPORTED_RECURRENCE"

def normalize (start : Temporal) (value : ℤ) : Except Fault Timed :=
  match start with
  | .timed t => resolved e t.zone value
  | .date _ => .ok (Timed.ofWall e.display value)

def candidateOf (start : Temporal) (normalized : Timed) : Except Failure Temporal :=
  match start with
  | .timed _ => .ok (.timed normalized)
  | .date _ => (dateOf normalized.wall).map .date

def collect (start : Temporal) (target : Instant) (rdates used uidBudget sourceBudget : ℕ) (stops : Option Failure) :
    List ℤ → ℕ → Except Fault (List Temporal × ℕ)
  | [], emitted =>
    match stops with
    | none => .ok ([], emitted)
    | some err => .error (.raised err)
  | value :: rest, emitted =>
    if min uidBudget sourceBudget < emitted + 1 + rdates then
      failUsed (if sourceBudget < emitted + 1 + rdates then "SOURCE_BUDGET" else "RECURRENCE_BUDGET")
        (max used (emitted + 1 + rdates))
    else do
      let normalized ← normalize e start value
      let candidate ← call (candidateOf start normalized)
      let u ← call normalized.utc
      if target < u then pure ([candidate], emitted + 1)
      else do
        let (candidates, emitted) ← collect start target rdates used uidBudget sourceBudget stops rest (emitted + 1)
        pure (candidate :: candidates, emitted)

def guarded {α : Type} (used : ℕ) : Except Fault α → Except Fault α
  | .error (.problem code 0) => failUsed code used
  | .error (.problem code n) => failUsed code n
  | .error _ => fail "UNSUPPORTED_RECURRENCE"
  | .ok x => .ok x

def ruleCandidates (rule : Rule) (start : Temporal) (overrides : List Event) (rdates : List Temporal)
    (exdateCount uidBudget sourceBudget : ℕ) : Except Fault (List Temporal × ℕ) := do
  validateRule rule start
  let target ← call e.windowEnd.utc
  let target ← targetOf e start overrides target
  let (recurrence, target, used) ←
    boundedRecurrence e rule start target (rdates.length + exdateCount) uidBudget sourceBudget
  let (candidates, emitted) ←
    guarded used (collect e start target rdates.length used uidBudget sourceBudget recurrence.stops recurrence.values 0)
  pure (candidates ++ rdates, max used (emitted + rdates.length))

def rawCandidates (c : Component) (start : Temporal) (overrides : List Event) (exdates rdates : List Temporal)
    (uidBudget sourceBudget : ℕ) : Except Fault (List Temporal × ℕ) :=
  match c.get "RRULE" with
  | none => .ok (start :: rdates, rdates.length + 1 + exdates.length)
  | some (.recur rule) => ruleCandidates e rule start overrides rdates exdates.length uidBudget sourceBudget
  | some _ => .error .attributeError

/-- `unique`: the candidates that no EXDATE takes out, under their identities -/
def uniqueCandidates (exdates : List Identity) (candidates : List Temporal) : List (Identity × Temporal) :=
  (candidates.filter fun candidate => !exdates.contains (identity candidate)).foldl
    (fun unique candidate => setEntry unique (identity candidate) candidate) []

def overrideMap (overrides : List Event) : List (Identity × Event) :=
  overrides.foldl (fun entries item =>
    match item.recurrenceId with
    | some rid => setEntry entries (identity rid) item
    | none => entries) []

def addedEnd (start : Temporal) (length : ℤ) (used : ℕ) : Except Fault Temporal :=
  match addDuration start length with
  | .ok stop => .ok stop
  | .error .overflowError => failUsed "INVALID_EVENT" used
  | .error (.valueError _) => failUsed "INVALID_EVENT" used
  | .error err => .error (.raised err)

def withUsed {α : Type} (used : ℕ) : Except Fault α → Except Fault α
  | .error (.problem code _) => failUsed code used
  | x => x

def otherKind (start : Temporal) : Option Temporal → Bool
  | none => false
  | some value => value.isDate != start.isDate

def instanceTimes (master : Event) (start : Temporal) (length : ℤ) (used : ℕ) (override : Option Event)
    (candidate : Temporal) : Except Fault (Temporal × Temporal × Bool × String) :=
  match override with
  | some item =>
    if otherKind start item.start || otherKind start item.stop then failUsed "INVALID_EVENT" used
    else do
      let first := item.start.getD candidate
      let last ← match item.stop with
        | some stop => pure stop
        | none => addedEnd first length used
      pure (first, last, item.cancelled, if item.summary = "" then master.summary else item.summary)
  | none => do
    let last ← addedEnd candidate length used
    pure (candidate, last, master.cancelled, master.summary)

def instanceOf (master : Event) (start : Temporal) (length : ℤ) (used : ℕ) (override : Option Event) (id : Identity)
    (candidate : Temporal) : Except Fault (List CalendarOccurrence) := do
  let (first, last, cancelled, summary) ← instanceTimes master start length used override candidate
  withUsed used (validatePair first last)
  let shown ← call (intersects e first last)
  if shown then do
    let start ← call (displayValue e first)
    let stop ← call (displayValue e last)
    pure [⟨master.uid, id, summary, start, stop, first.isDate, cancelled, e.sourceId⟩]
  else pure []

def instances (master : Event) (start : Temporal) (length : ℤ) (used : ℕ) :
    List (Identity × Temporal) → List (Identity × Event) → Except Fault (List CalendarOccurrence)
  | [], overrides => if overrides.isEmpty then .ok [] else failUsed "ORPHAN_OVERRIDE" used
  | (id, candidate) :: rest, overrides => do
    let shown ← instanceOf e master start length used (overrides.lookup id) id candidate
    let more ← instances master start length used rest (overrides.filter fun entry => entry.1 != id)
    pure (shown ++ more)

def expandFrom (master : Event) (overrides : List Event) (start stop : Temporal) (uidBudget sourceBudget : ℕ) :
    Except Fault (List CalendarOccurrence × ℕ) := do
  let length ← call (duration start stop)
  let (exdates, rdates) ← readExceptions e master.component start
  let (candidates, used) ← rawCandidates e master.component start overrides exdates rdates uidBudget sourceBudget
  withinBudgets used uidBudget sourceBudget
  let occurrences ← instances e master start length used (uniqueCandidates (exdates.map identity) candidates)
    (overrideMap overrides)
  pure (occurrences, used)

def expandSeries (master : Event) (overrides : List Event) (uidBudget sourceBudget : ℕ) :
    Except Fault (List CalendarOccurrence × ℕ) :=
  match master.start, master.stop with
  | some start, some stop => expandFrom e master overrides start stop uidBudget sourceBudget
  | _, _ => .error (.raised .typeError)

def Settled {α : Type} (x : Except Fault α) : Prop := ∀ used, x ≠ .error (.problem "SOURCE_BUDGET" used)

def Agrees {α : Type} (large small : Except Fault α) : Prop := Settled small → large = small

variable {e}

theorem Settled.of_bind {α β : Type} {x : Except Fault α} {f : α → Except Fault β} (h : Settled (x >>= f)) : Settled x := by
  rintro used rfl
  exact h used rfl

variable {α : Type}

theorem settled_ok (a : α) : Settled (.ok a) := by
  intro used h
  cases h

variable {used : ℕ}

theorem settled_problem {code : String} (h : code ≠ "SOURCE_BUDGET") :
    Settled (.error (.problem code used) : Except Fault α) := by
  intro n hn
  cases hn
  exact h rfl

theorem Agrees.bind {α β : Type} {x x' : Except Fault α} {f f' : α → Except Fault β} (hx : Agrees x' x)
    (hf : ∀ a, x = .ok a → Agrees (f' a) (f a)) : Agrees (x' >>= f') (x >>= f) := by
  intro h
  rw [hx h.of_bind]
  cases hx : x with
  | error err => rfl
  | ok a =>
    rw [hx] at h
    exact hf a hx h

theorem Agrees.refl (x : Except Fault α) : Agrees x x := fun _ => rfl

theorem withinBudgets_agrees {used uidBudget small large : ℕ} (hle : small ≤ large) :
    Agrees (withinBudgets used uidBudget large) (withinBudgets used uidBudget small) := by
  intro h
  unfold withinBudgets at h ⊢
  by_cases huid : uidBudget < used
  · rw [if_pos huid, if_pos huid]
  rw [if_neg huid] at h ⊢
  rw [if_neg huid]
  by_cases hsource : small < used
  · rw [if_pos hsource] at h
    exact (h used rfl).elim
  · rw [if_neg hsource, if_neg (by omega)]

variable {start : Temporal} {target : Instant}

theorem boundedRecurrence_agrees {rule : Rule} {dates uidBudget small large : ℕ} (hle : small ≤ large) :
    Agrees (boundedRecurrence e rule start target dates uidBudget large)
      (boundedRecurrence e rule start target dates uidBudget small) := by
  unfold boundedRecurrence
  apply (Agrees.refl _).bind
  intro bound _
  apply (withinBudgets_agrees hle).bind
  intro _ _
  exact Agrees.refl _

theorem collect_agrees {rdates used uidBudget small large : ℕ}
    {stops : Option Failure} (hle : small ≤ large) (values : List ℤ) (emitted : ℕ) :
    Agrees (collect e start target rdates used uidBudget large stops values emitted)
      (collect e start target rdates used uidBudget small stops values emitted) := by
  induction values generalizing emitted with
  | nil => exact Agrees.refl _
  | cons value rest ih =>
    unfold collect
    by_cases hsmall : min uidBudget small < emitted + 1 + rdates
    · rw [if_pos hsmall]
      intro h
      by_cases hsource : small < emitted + 1 + rdates
      · rw [if_pos hsource] at h
        exact (h _ rfl).elim
      · rw [if_neg hsource, if_pos (by omega), if_neg (by omega)]
    · rw [if_neg hsmall, if_neg (by omega)]
      apply (Agrees.refl _).bind
      intro normalized _
      apply (Agrees.refl _).bind
      intro candidate _
      apply (Agrees.refl _).bind
      intro u _
      by_cases hu : target < u
      · rw [if_pos hu, if_pos hu]
        exact Agrees.refl _
      rw [if_neg hu, if_neg hu]
      apply (ih (emitted + 1)).bind
      intro _ _
      exact Agrees.refl _

theorem guarded_agrees {large small : Except Fault α} (h : Agrees large small) :
    Agrees (guarded used large) (guarded used small) := by
  intro hguarded
  have hsettled : Settled small := by
    rintro n rfl
    cases n with
    | zero => exact hguarded used rfl
    | succ n => exact hguarded (n + 1) rfl
  rw [h hsettled]

variable {overrides : List Event} {uidBudget small large : ℕ}

theorem rawCandidates_agrees {c : Component} {exdates rdates : List Temporal} (hle : small ≤ large) :
    Agrees (rawCandidates e c start overrides exdates rdates uidBudget large)
      (rawCandidates e c start overrides exdates rdates uidBudget small) := by
  unfold rawCandidates
  split
  · exact Agrees.refl _
  · unfold ruleCandidates
    apply (Agrees.refl _).bind
    intro _ _
    apply (Agrees.refl _).bind
    intro _ _
    apply (Agrees.refl _).bind
    intro _ _
    apply (boundedRecurrence_agrees hle).bind
    intro _ _
    apply (guarded_agrees (collect_agrees hle _ _)).bind
    intro _ _
    exact Agrees.refl _
  · exact Agrees.refl _

variable {master : Event}

theorem expandSeries_agrees (hle : small ≤ large) :
    Agrees (expandSeries e master overrides uidBudget large) (expandSeries e master overrides uidBudget small) := by
  unfold expandSeries
  split
  · unfold expandFrom
    apply (Agrees.refl _).bind
    intro _ _
    apply (Agrees.refl _).bind
    intro _ _
    apply (rawCandidates_agrees hle).bind
    intro _ _
    apply (withinBudgets_agrees hle).bind
    intro _ _
    exact Agrees.refl _
  · exact Agrees.refl _

theorem of_bind_eq_ok {ε α β : Type} {x : Except ε α} {f : α → Except ε β} {b : β} (h : x >>= f = .ok b) :
    ∃ a, x = .ok a ∧ f a = .ok b := by
  cases x with
  | error err => cases h
  | ok a => exact ⟨a, rfl, h⟩

theorem withinBudgets_eq_ok {used uidBudget sourceBudget : ℕ} (h : withinBudgets used uidBudget sourceBudget = .ok ()) :
    used ≤ uidBudget ∧ used ≤ sourceBudget := by
  unfold withinBudgets at h
  split at h
  · cases h
  split at h
  · cases h
  · omega

theorem guarded_eq_ok {x : Except Fault α} {a : α} (h : guarded used x = .ok a) : x = .ok a := by
  unfold guarded at h
  split at h
  · cases h
  · cases h
  · cases h
  · exact h

theorem spanDays_pos (targetDay startDay : LocalDate) : 0 < spanDays targetDay startDay := by
  unfold spanDays
  omega

theorem boundOf_span_pos {rule : Rule} {bound : Instant × Until × ℕ}
    (h : boundOf e rule start target = .ok bound) : 0 < bound.2.2 := by
  unfold boundOf at h
  cases start with
  | date d =>
    obtain ⟨shown, -, h⟩ := of_bind_eq_ok h
    obtain ⟨targetDay, -, h⟩ := of_bind_eq_ok h
    obtain ⟨last, -, h⟩ := of_bind_eq_ok h
    cases h
    exact spanDays_pos _ _
  | timed t =>
    obtain ⟨startDay, -, h⟩ := of_bind_eq_ok h
    obtain ⟨shown, -, h⟩ := of_bind_eq_ok h
    obtain ⟨targetDay, -, h⟩ := of_bind_eq_ok h
    obtain ⟨limit, -, h⟩ := of_bind_eq_ok h
    cases h
    exact spanDays_pos _ _

variable {uidBudget sourceBudget used : ℕ}

theorem rawCandidates_used_pos {c : Component} {exdates rdates candidates : List Temporal}
    (h : rawCandidates e c start overrides exdates rdates uidBudget sourceBudget = .ok (candidates, used)) : 0 < used := by
  unfold rawCandidates at h
  split at h
  · cases h
    omega
  · unfold ruleCandidates at h
    obtain ⟨-, -, h⟩ := of_bind_eq_ok h
    obtain ⟨target, -, h⟩ := of_bind_eq_ok h
    obtain ⟨target', -, h⟩ := of_bind_eq_ok h
    obtain ⟨⟨recurrence, bound, work⟩, hbounded, h⟩ := of_bind_eq_ok h
    obtain ⟨⟨collected, emitted⟩, -, h⟩ := of_bind_eq_ok h
    have hwork : 0 < work := by
      unfold boundedRecurrence at hbounded
      obtain ⟨⟨last, limit, span⟩, hbound, hbounded⟩ := of_bind_eq_ok hbounded
      obtain ⟨-, -, hbounded⟩ := of_bind_eq_ok hbounded
      have hspan : 0 < span := by
        unfold call Except.mapError at hbound
        split at hbound
        · cases hbound
        rename_i hok
        cases hbound
        exact boundOf_span_pos hok
      dsimp only at hbounded
      split at hbounded
      · cases hbounded
        omega
      · cases hbounded
    cases h
    omega
  · cases h

theorem instanceOf_uid {length : ℤ} {override : Option Event} {id : Identity}
    {candidate : Temporal} {shown : List CalendarOccurrence}
    (h : instanceOf e master start length used override id candidate = .ok shown) :
    ∀ o ∈ shown, o.uid = master.uid := by
  unfold instanceOf at h
  obtain ⟨⟨first, last, cancelled, summary⟩, -, h⟩ := of_bind_eq_ok h
  obtain ⟨-, -, h⟩ := of_bind_eq_ok h
  obtain ⟨intersecting, -, h⟩ := of_bind_eq_ok h
  cases intersecting with
  | false =>
    cases h
    simp
  | true =>
    obtain ⟨start', -, h⟩ := of_bind_eq_ok h
    obtain ⟨stop', -, h⟩ := of_bind_eq_ok h
    cases h
    simp

variable {occurrences : List CalendarOccurrence}

theorem instances_uid {length : ℤ} {unique : List (Identity × Temporal)} {overrides : List (Identity × Event)}
    (h : instances e master start length used unique overrides = .ok occurrences) :
    ∀ o ∈ occurrences, o.uid = master.uid := by
  induction unique generalizing overrides occurrences with
  | nil =>
    unfold instances at h
    split at h
    · cases h
      simp
    · cases h
  | cons entry rest ih =>
    obtain ⟨id, candidate⟩ := entry
    unfold instances at h
    obtain ⟨shown, hshown, h⟩ := of_bind_eq_ok h
    obtain ⟨more, hmore, h⟩ := of_bind_eq_ok h
    cases h
    intro o ho
    rcases List.mem_append.mp ho with ho | ho
    · exact instanceOf_uid hshown o ho
    · exact ih hmore o ho

theorem expandSeries_ok (h : expandSeries e master overrides uidBudget sourceBudget = .ok (occurrences, used)) :
    0 < used ∧ used ≤ sourceBudget ∧ ∀ o ∈ occurrences, o.uid = master.uid := by
  unfold expandSeries at h
  split at h
  · unfold expandFrom at h
    obtain ⟨length, -, h⟩ := of_bind_eq_ok h
    obtain ⟨⟨exdates, rdates⟩, -, h⟩ := of_bind_eq_ok h
    obtain ⟨⟨candidates, work⟩, hraw, h⟩ := of_bind_eq_ok h
    obtain ⟨⟨⟩, hbudgets, h⟩ := of_bind_eq_ok h
    obtain ⟨found, hfound, h⟩ := of_bind_eq_ok h
    cases h
    exact ⟨rawCandidates_used_pos hraw, (withinBudgets_eq_ok hbudgets).2, instances_uid hfound⟩
  · cases h

end

end GameLink.Ff14.Ics

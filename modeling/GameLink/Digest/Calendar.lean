import GameLink.Contracts.Subscriptions

namespace GameLink.Digest

open Foundation Contracts

/-! Dates of the proleptic Gregorian calendar. -/

structure Civil where
  year : ℤ
  month : ℤ
  day : ℤ
  deriving DecidableEq

def ofMarch (year month dayOfMonth : ℤ) : Civil :=
  if month < 10 then ⟨year, month + 3, dayOfMonth + 1⟩ else ⟨year + 1, month - 9, dayOfMonth + 1⟩

def civil (n : ℤ) : Civil :=
  let era := (n + 719468) / 146097
  let dayOfEra := (n + 719468) % 146097
  let century := min (dayOfEra / 36524) 3
  let dayOfCentury := dayOfEra - 36524 * century
  let cycle := dayOfCentury / 1461
  let dayOfCycle := dayOfCentury % 1461
  let year := min (dayOfCycle / 365) 3
  let dayOfYear := dayOfCycle - 365 * year
  let month := (5 * dayOfYear + 2) / 153
  ofMarch (400 * era + 100 * century + 4 * cycle + year) month (dayOfYear - (153 * month + 2) / 5)

theorem civil_parts (n : ℤ) : ∃ era century cycle year dayOfYear month,
    0 ≤ century ∧ century ≤ 3 ∧ 0 ≤ cycle ∧ cycle ≤ 24 ∧ 0 ≤ year ∧ year ≤ 3 ∧ 0 ≤ month ∧ month ≤ 11 ∧
    0 ≤ dayOfYear - (153 * month + 2) / 5 ∧ dayOfYear - (153 * month + 2) / 5 ≤ 30 ∧
    n + 719468 = 146097 * era + 36524 * century + 1461 * cycle + 365 * year + dayOfYear ∧
    civil n = ofMarch (400 * era + 100 * century + 4 * cycle + year) month (dayOfYear - (153 * month + 2) / 5) := by
  refine ⟨_, _, _, _, _, _, ?_, ?_, ?_, ?_, ?_, ?_, ?_, ?_, ?_, ?_, ?_, rfl⟩
  all_goals omega

theorem ofMarch_injective {y m d y' m' d' : ℤ} (h0 : 0 ≤ m) (h11 : m ≤ 11) (h0' : 0 ≤ m') (h11' : m' ≤ 11)
    (h : ofMarch y m d = ofMarch y' m' d') : y = y' ∧ m = m' ∧ d = d' := by
  unfold ofMarch at h
  split at h <;> split at h
  all_goals
    simp only [Civil.mk.injEq] at h
    omega

theorem civil_injective {n n' : ℤ} (h : civil n = civil n') : n = n' := by
  obtain ⟨e, c, q, y, d, m, hc0, hc3, hq0, hq24, hy0, hy3, hm0, hm11, -, -, hn, hcivil⟩ := civil_parts n
  obtain ⟨e', c', q', y', d', m', hc0', hc3', hq0', hq24', hy0', hy3', hm0', hm11', -, -, hn', hcivil'⟩ := civil_parts n'
  rw [hcivil, hcivil'] at h
  obtain ⟨hyear, rfl, hday⟩ := ofMarch_injective hm0 hm11 hm0' hm11' h
  have he : e = e' := by omega
  have hc : c = c' := by omega
  have hq : q = q' := by omega
  omega

structure LocalDate where
  ordinal : ℤ
  inYears : -719162 ≤ ordinal ∧ ordinal ≤ 2932896
  deriving DecidableEq

theorem civil_bounds (d : LocalDate) : 1 ≤ (civil d.ordinal).year ∧ (civil d.ordinal).year ≤ 9999 ∧
    1 ≤ (civil d.ordinal).month ∧ (civil d.ordinal).month ≤ 12 ∧
    1 ≤ (civil d.ordinal).day ∧ (civil d.ordinal).day ≤ 31 := by
  have hrange := d.inYears
  obtain ⟨e, c, q, y, n, m, hc0, hc3, hq0, hq24, hy0, hy3, hm0, hm11, hd0, hd30, hn, hcivil⟩ := civil_parts d.ordinal
  rw [hcivil]
  unfold ofMarch
  split
  all_goals
    dsimp only
    omega

namespace LocalDate

variable {d d' : LocalDate}

@[ext]
theorem ext (h : d.ordinal = d'.ordinal) : d = d' := by
  cases d; cases d'; cases h; rfl

def ofOrdinal (n : ℤ) : Except Failure LocalDate :=
  if h : -719162 ≤ n ∧ n ≤ 2932896 then .ok ⟨n, h⟩ else .error .overflowError

def digit (n : ℤ) : Char := Char.ofNat (48 + (n % 10).toNat)

def isoformat (d : LocalDate) : String :=
  let c := civil d.ordinal
  String.ofList [digit (c.year / 1000), digit (c.year / 100), digit (c.year / 10), digit c.year, '-',
    digit (c.month / 10), digit c.month, '-', digit (c.day / 10), digit c.day]

theorem digit_injective {a b : ℤ} (h : digit a = digit b) : a % 10 = b % 10 := by
  have hdigits : ∀ i < 10, ∀ j < 10, Char.ofNat (48 + i) = Char.ofNat (48 + j) → i = j := by decide
  have heq := hdigits (a % 10).toNat (by omega) (b % 10).toNat (by omega) h
  omega

theorem isoformat_injective (h : d.isoformat = d'.isoformat) : d = d' := by
  have hbounds := civil_bounds d
  have hbounds' := civil_bounds d'
  have hchars := String.ofList_injective h
  simp only [List.cons.injEq, and_true, true_and] at hchars
  obtain ⟨hy3, hy2, hy1, hy0, hm1, hm0, hd1, hd0⟩ := hchars
  have hyear : (civil d.ordinal).year = (civil d'.ordinal).year := by
    have h3 := digit_injective hy3
    have h2 := digit_injective hy2
    have h1 := digit_injective hy1
    have h0 := digit_injective hy0
    omega
  have hmonth : (civil d.ordinal).month = (civil d'.ordinal).month := by
    have h1 := digit_injective hm1
    have h0 := digit_injective hm0
    omega
  have hday : (civil d.ordinal).day = (civil d'.ordinal).day := by
    have h1 := digit_injective hd1
    have h0 := digit_injective hd0
    omega
  refine LocalDate.ext (civil_injective ?_)
  cases hc : civil d.ordinal
  cases hc' : civil d'.ordinal
  rw [hc, hc'] at hyear hmonth hday
  cases hyear; cases hmonth; cases hday
  rfl

example : (⟨19782, by decide⟩ : LocalDate).isoformat = "2024-02-29" := by decide +kernel

end LocalDate

/-! The wall clock of a timezone. -/

def second : ℤ := 1000000

def minute : ℤ := 60 * second

def day : ℤ := 86400 * second

/-- What a timezone answers: the offset at an instant, and the offset that a time on the wall clock is read with,
for its first and (`fold`) its second occurrence. -/
structure ZoneInfo where
  utcOffset : Instant → ℤ
  wallOffset : Bool → ℤ → ℤ

def lastStep (before : ℤ) (steps : List (ℤ × ℤ)) (x : ℤ) : ℤ :=
  steps.foldl (fun current step => if step.1 ≤ x then step.2 else current) before

def wallSteps (fold : Bool) : ℤ → List (ℤ × ℤ) → List (ℤ × ℤ)
  | _, [] => []
  | previous, (instant, offset) :: rest =>
    (instant + (if fold then min previous offset else max previous offset), offset) :: wallSteps fold offset rest

def ZoneInfo.ofTransitions (before : ℤ) (transitions : List (Instant × ℤ)) : ZoneInfo where
  utcOffset := lastStep before transitions
  wallOffset fold := lastStep before (wallSteps fold before transitions)

def wallTime (d : LocalDate) (minutes : ℕ) : ℤ := d.ordinal * day + minutes * minute

def occurrence (zone : ZoneInfo) (wall : ℤ) (fold : Bool) : Option Instant :=
  let candidate := wall - zone.wallOffset fold wall
  if candidate + zone.utcOffset candidate = wall then some candidate else none

/-- The first second after `wall` that the clock shows, among the next `n`. -/
def firstShown (zone : ZoneInfo) (wall : ℤ) : ℕ → Option Instant
  | 0 => none
  | n + 1 =>
    match occurrence zone (wall + second) false, occurrence zone (wall + second) true with
    | some instant, _ => some instant
    | none, some instant => some instant
    | none, none => firstShown zone (wall + second) n

def decimal (c : Char) : Option ℕ := if '0' ≤ c ∧ c ≤ '9' then some (c.toNat - 48) else none

def minuteOfDay (text : String) : Except Failure ℕ :=
  match text.toList with
  | [hourTens, hourUnits, ':', minuteTens, minuteUnits] =>
    match decimal hourTens, decimal hourUnits, decimal minuteTens, decimal minuteUnits with
    | some a, some b, some c, some d =>
      if 10 * a + b ≤ 23 ∧ 10 * c + d ≤ 59 then .ok (60 * (10 * a + b) + (10 * c + d))
      else .error (.valueError "local_time must use 24-hour HH:MM format")
    | _, _, _, _ => .error (.valueError "local_time must use 24-hour HH:MM format")
  | _ => .error (.valueError "local_time must use 24-hour HH:MM format")

def resolveWall (zone : ZoneInfo) (profile : DigestScheduleProfile) (wall : ℤ) : Except Failure (Option Instant) :=
  match occurrence zone wall false, occurrence zone wall true with
  | some first, some second =>
    .ok (some (if first = second ∨ profile.foldPolicy = .firstOccurrence then first else second))
  | some first, none => .ok (some first)
  | none, some second => .ok (some second)
  | none, none =>
    match profile.gapPolicy with
    | .skip => .ok none
    | .nextValidInstant =>
      match firstShown zone wall 86400 with
      | some instant => .ok (some instant)
      | none => .error (.candidateRejected "timezone gap exceeds supported transition window")

def resolveLocalBoundary (zones : String → ZoneInfo) (d : LocalDate) (profile : DigestScheduleProfile) :
    Except Failure (Option Instant) := do
  let minutes ← minuteOfDay profile.localTime
  resolveWall (zones profile.timezoneName) profile (wallTime d minutes)

variable {b : Instant}

theorem occurrence_shows {zone : ZoneInfo} {wall : ℤ} {fold : Bool}
    (h : occurrence zone wall fold = some b) : b + zone.utcOffset b = wall := by
  unfold occurrence at h
  dsimp only at h
  split at h
  · rename_i hshows
    rw [← Option.some.inj h]
    exact hshows
  · cases h

def Shown (zone : ZoneInfo) (wall : ℤ) : Prop := ∃ fold b, occurrence zone wall fold = some b

variable {profile : DigestScheduleProfile}

theorem resolveWall_shows {zone : ZoneInfo} {wall : ℤ}
    (hshown : Shown zone wall) (h : resolveWall zone profile wall = .ok (some b)) : b + zone.utcOffset b = wall := by
  obtain ⟨fold, shown, hfold⟩ := hshown
  unfold resolveWall at h
  split at h
  · rename_i first second hfirst hsecond
    rw [← Option.some.inj (Except.ok.inj h)]
    split
    · exact occurrence_shows hfirst
    · exact occurrence_shows hsecond
  · rename_i hfirst _
    rw [← Option.some.inj (Except.ok.inj h)]
    exact occurrence_shows hfirst
  · rename_i hsecond
    rw [← Option.some.inj (Except.ok.inj h)]
    exact occurrence_shows hsecond
  rename_i hfirst hsecond
  cases fold with
  | false => rw [hfirst] at hfold; cases hfold
  | true => rw [hsecond] at hfold; cases hfold

def boundary (zones : String → ZoneInfo) (profile : DigestScheduleProfile) (d : LocalDate) : Option Instant :=
  match resolveLocalBoundary zones d profile with
  | .ok due => due
  | .error _ => none

theorem boundary_eq_some {zones : String → ZoneInfo} {d : LocalDate} :
    boundary zones profile d = some b ↔ resolveLocalBoundary zones d profile = .ok (some b) := by
  unfold boundary
  cases h : resolveLocalBoundary zones d profile with
  | error e => simp
  | ok due => simp

end GameLink.Digest

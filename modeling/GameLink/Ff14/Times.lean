import GameLink.Digest.Calendar

namespace GameLink.Ff14

open Foundation Contracts Digest

/-! Python's datetimes: a time on the wall clock of the years 1 to 9999, and conversions that raise outside. -/

def minWall : ℤ := -719162 * day

def maxWall : ℤ := 2932897 * day - 1

def inYears (wall : ℤ) : Except Failure ℤ := if minWall ≤ wall ∧ wall ≤ maxWall then .ok wall else .error .overflowError

structure Aware where
  wall : ℤ
  offset : ℤ
  deriving DecidableEq

def Aware.instant (t : Aware) : Instant := t.wall - t.offset

def Aware.utc (t : Aware) : Except Failure Instant := inYears t.instant

/-- `datetime.fromtimestamp(t, UTC).astimezone(zone)`, as the wall clock shows it. -/
def toZone (zone : ZoneInfo) (t : Instant) : Except Failure ℤ :=
  match inYears t with
  | .ok t => inYears (t + zone.utcOffset t)
  | .error e => .error e

def addDays (d : LocalDate) (n : ℤ) : Except Failure LocalDate := LocalDate.ofOrdinal (d.ordinal + n)

def dateOf (wall : ℤ) : Except Failure LocalDate := LocalDate.ofOrdinal (wall / day)

inductive IsoText where
  | date (d : LocalDate)
  | aware (t : Aware)
  | naive (wall : ℤ)
  | invalid
  deriving DecidableEq

structure Dateutil where
  datetimeExists : ZoneInfo → ℤ → Except Failure Bool
  resolveImaginary : ZoneInfo → ℤ → Except Failure ℤ

def instantOf (zone : ZoneInfo) (wall : ℤ) : Except Failure Instant := inYears (wall - zone.wallOffset false wall)

section

variable (dateutil : Dateutil)

def localMidnight (d : LocalDate) (zone : ZoneInfo) : Except Failure ℤ :=
  match dateutil.datetimeExists zone (wallTime d 0) with
  | .ok true => .ok (wallTime d 0)
  | .ok false => dateutil.resolveImaginary zone (wallTime d 0)
  | .error e => .error e

def midnightInstant (d : LocalDate) (zone : ZoneInfo) : Except Failure Instant :=
  match localMidnight dateutil d zone with
  | .ok wall => instantOf zone wall
  | .error e => .error e

def existsAfter (zone : ZoneInfo) (wall : ℤ) (seconds : ℕ) : Except Failure Bool :=
  match inYears (wall + seconds * second) with
  | .ok probe => dateutil.datetimeExists zone probe
  | .error e => .error e

def searchGap (zone : ZoneInfo) (wall : ℤ) (low high : ℕ) : Except Failure ℕ :=
  if low < high then
    match existsAfter dateutil zone wall ((low + high) / 2) with
    | .ok true => searchGap zone wall low ((low + high) / 2)
    | .ok false => searchGap zone wall ((low + high) / 2 + 1) high
    | .error e => .error e
  else .ok low
termination_by high - low

/-- The first valid second after a wall time inside a gap that ends at `shifted`. -/
def firstValid (zone : ZoneInfo) (wall shifted : ℤ) : Except Failure Instant :=
  let gap := shifted - wall
  if gap ≤ 0 ∨ 3 * day < gap then .error (.valueError "timezone gap cannot be resolved safely")
  else
    match searchGap dateutil zone wall 1 (gap / second).toNat with
    | .ok low =>
      match existsAfter dateutil zone wall low with
      | .ok true => instantOf zone (wall + low * second)
      | .ok false => .error (.valueError "timezone gap cannot be resolved safely")
      | .error e => .error e
    | .error e => .error e

def localDueInstant (d : LocalDate) (dueTime : ℕ) (zone : ZoneInfo) : Except Failure Instant :=
  match dateutil.datetimeExists zone (wallTime d dueTime) with
  | .ok true => instantOf zone (wallTime d dueTime)
  | .ok false =>
    match dateutil.resolveImaginary zone (wallTime d dueTime) with
    | .ok shifted => firstValid dateutil zone (wallTime d dueTime) shifted
    | .error e => .error e
  | .error e => .error e

end

def ZoneInfoBounded (zone : ZoneInfo) : Prop := ∀ t, -day < zone.utcOffset t ∧ zone.utcOffset t < day

theorem inYears_eq_ok {wall wall' : ℤ} : inYears wall = .ok wall' ↔ wall = wall' ∧ minWall ≤ wall ∧ wall ≤ maxWall := by
  unfold inYears
  split
  · rename_i h
    simp [h]
  rename_i h
  simp only [reduceCtorEq, false_iff]
  exact fun hs => h hs.2

theorem toZone_eq_ok {zone : ZoneInfo} {t wall : ℤ} (h : toZone zone t = .ok wall) :
    inYears t = .ok t ∧ wall = t + zone.utcOffset t := by
  unfold toZone at h
  cases ht : inYears t with
  | error e => rw [ht] at h; cases h
  | ok t' =>
    obtain ⟨rfl, -⟩ := inYears_eq_ok.mp ht
    rw [ht] at h
    exact ⟨rfl, (inYears_eq_ok.mp h).1.symm⟩

theorem ofOrdinal_eq_ok {n : ℤ} {d : LocalDate} (h : LocalDate.ofOrdinal n = .ok d) : d.ordinal = n := by
  unfold LocalDate.ofOrdinal at h
  split at h
  · cases h; rfl
  · cases h

theorem localDate_near {zone : ZoneInfo} (hzone : ZoneInfoBounded zone) {t wall : ℤ} {d : LocalDate}
    (hwall : toZone zone t = .ok wall) (hd : dateOf wall = .ok d) : t / day ≤ d.ordinal + 1 ∧ d.ordinal ≤ t / day + 1 := by
  have hwall := (toZone_eq_ok hwall).2
  have hd := ofOrdinal_eq_ok hd
  have hoffset := hzone t
  simp only [day, second] at hoffset hd ⊢
  omega

end GameLink.Ff14

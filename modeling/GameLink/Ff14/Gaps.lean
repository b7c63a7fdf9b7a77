import GameLink.Foundation.Search
import GameLink.Ff14.Times

namespace GameLink.Ff14

open Foundation Contracts Digest

/-! Three ways to take a wall time that the clock skips to one that it shows. -/

/-- At `t` the clock is put forward from `old` to `new`, and for a day before and after, for instants and for times on
the wall clock, nothing else happens and the calendar goes on. In the gap a first reading uses the offset before it, a second one the offset after. -/
structure Gap (zone : ZoneInfo) (t old new : ℤ) : Prop where
  forward : old < new
  short : new - old ≤ day
  whole : second ∣ new - old
  bounded : -day < old ∧ new < day
  before : ∀ u : ℤ, t - day ≤ u → u < t → zone.utcOffset u = old
  after : ∀ u : ℤ, t ≤ u → u < t + day → zone.utcOffset u = new
  readBefore : ∀ v : ℤ, t + old - day ≤ v → v < t + new → zone.wallOffset false v = old
  readAfter : ∀ v : ℤ, t + new ≤ v → v < t + new + day → zone.wallOffset false v = new
  secondReading : ∀ v : ℤ, t + old ≤ v → v < t + new → zone.wallOffset true v = new
  instants : minWall ≤ t - day ∧ t + day ≤ maxWall
  walls : minWall ≤ t + old - day ∧ t + new + day ≤ maxWall

structure Dateutil.Documented (dateutil : Dateutil) : Prop where
  converts : ∀ zone v b, dateutil.datetimeExists zone v = .ok b →
    inYears (v - zone.wallOffset false v) = .ok (v - zone.wallOffset false v) ∧
      ∃ w, toZone zone (v - zone.wallOffset false v) = .ok w
  roundTrip : ∀ zone v, inYears (v - zone.wallOffset false v) = .ok (v - zone.wallOffset false v) →
    (∃ w, toZone zone (v - zone.wallOffset false v) = .ok w) →
      dateutil.datetimeExists zone v = .ok (occurrence zone v false).isSome
  fallsForward : ∀ zone t old new, Gap zone t old new → ∀ v : ℤ, t + old ≤ v → v < t + new →
    dateutil.resolveImaginary zone v = .ok (v + (new - old))

inductive SeriesError where
  | problem (code : String) (used : ℕ)
  | raised (e : Failure)
  deriving DecidableEq

def maxLocalTimeGap : ℕ := 259200

section

variable (dateutil : Dateutil)

def limited (probe : ℕ → Except Failure Bool) (upper : ℕ) : Except SeriesError ℕ :=
  if upper ≤ maxLocalTimeGap then .ok upper
  else
    match probe maxLocalTimeGap with
    | .ok true => .ok maxLocalTimeGap
    | .ok false => .error (.problem "INVALID_TIMEZONE" 0)
    | .error e => .error (.raised e)

def secondsToShown (zone : ZoneInfo) (wall : ℤ) : Except SeriesError ℕ := do
  let found ← (Search.widen (existsAfter dateutil zone wall) maxLocalTimeGap 0 1 Nat.one_pos).mapError .raised
  let upper ← limited (existsAfter dateutil zone wall) found.2
  (Search.narrow (existsAfter dateutil zone wall) found.1 upper).mapError .raised

/-- `_resolve_local` of `calendar_ics`. A reading has fold zero, so that it is ambiguous changes nothing. -/
def resolveLocal (zone : ZoneInfo) (wall : ℤ) : Except SeriesError ℤ := do
  let shown ← (dateutil.datetimeExists zone wall).mapError .raised
  if shown then pure wall
  else do
    let seconds ← secondsToShown dateutil zone wall
    (inYears (wall + seconds * second)).mapError .raised

def resolveDue (zone : ZoneInfo) (wall : ℤ) : Except Failure Instant :=
  match dateutil.datetimeExists zone wall with
  | .ok true => instantOf zone wall
  | .ok false =>
    match dateutil.resolveImaginary zone wall with
    | .ok shifted => firstValid dateutil zone wall shifted
    | .error e => .error e
  | .error e => .error e

end

theorem searchGap_eq (dateutil : Dateutil) (zone : ZoneInfo) (wall : ℤ) (low high : ℕ) :
    searchGap dateutil zone wall low high = Search.halve (existsAfter dateutil zone wall) low high := by
  induction low, high using Search.halve.induct (existsAfter dateutil zone wall) with
  | case1 low high hlt hprobe ih => rw [searchGap, Search.halve, if_pos hlt, if_pos hlt, hprobe, ih]
  | case2 low high hlt hprobe ih => rw [searchGap, Search.halve, if_pos hlt, if_pos hlt, hprobe, ih]
  | case3 low high hlt e hprobe => rw [searchGap, Search.halve, if_pos hlt, if_pos hlt, hprobe]
  | case4 low high hlt => rw [searchGap, Search.halve, if_neg hlt, if_neg hlt]

namespace Gap

variable {zone : ZoneInfo} {t old new : ℤ} {v : ℤ}

section

variable (h : Gap zone t old new)
include h

theorem occurrence_gap (hlow : t + old ≤ v) (hhigh : v < t + new) (fold : Bool) :
    occurrence zone v fold = none := by
  have hshort := h.short
  have hforward := h.forward
  unfold occurrence
  cases fold with
  | false =>
    have hread := h.readBefore v (by simp only [day, second]; omega) hhigh
    have hoffset := h.after (v - old) (by omega) (by omega)
    rw [hread]
    dsimp only
    rw [hoffset, if_neg (by omega)]
  | true =>
    have hread := h.secondReading v hlow hhigh
    have hoffset := h.before (v - new) (by omega) (by omega)
    rw [hread]
    dsimp only
    rw [hoffset, if_neg (by omega)]

theorem occurrence_after (hlow : t + new ≤ v) (hhigh : v < t + new + day) :
    occurrence zone v false = some (v - new) := by
  have hread := h.readAfter v hlow hhigh
  have hoffset := h.after (v - new) (by omega) (by omega)
  unfold occurrence
  rw [hread]
  dsimp only
  rw [hoffset, if_pos (by omega)]

theorem not_shown (hlow : t + old ≤ v) (hhigh : v < t + new) : ¬Shown zone v := by
  rintro ⟨fold, b, hb⟩
  rw [h.occurrence_gap hlow hhigh fold] at hb
  cases hb

end

variable {dateutil : Dateutil}

section

variable (h : Gap zone t old new)
include h

theorem inYears_instant {x : ℤ} (hlow : t - day ≤ x) (hhigh : x ≤ t + day) :
    inYears x = .ok x := by
  obtain ⟨hfirst, hlast⟩ := h.instants
  apply inYears_eq_ok.mpr
  exact ⟨rfl, by omega, by omega⟩

theorem inYears_wall {x : ℤ} (hlow : t + old - day ≤ x) (hhigh : x ≤ t + new + day) :
    inYears x = .ok x := by
  obtain ⟨hfirst, hlast⟩ := h.walls
  apply inYears_eq_ok.mpr
  exact ⟨rfl, by omega, by omega⟩

theorem reading_gap (hlow : t + old ≤ v) (hhigh : v < t + new) :
    instantOf zone v = .ok (v - old) ∧ toZone zone (v - old) = .ok (v - old + new) := by
  have hshort := h.short
  have hforward := h.forward
  have hcandidate : inYears (v - old) = .ok (v - old) := h.inYears_instant (by omega) (by omega)
  constructor
  · unfold instantOf
    rw [h.readBefore v (by simp only [day, second]; omega) hhigh]
    exact hcandidate
  unfold toZone
  rw [hcandidate]
  dsimp only
  rw [h.after (v - old) (by omega) (by omega)]
  exact h.inYears_wall (by omega) (by omega)

theorem datetimeExists (hd : dateutil.Documented) (hlow : t + old ≤ v)
    (hhigh : v < t + new + day) : dateutil.datetimeExists zone v = .ok (decide (t + new ≤ v)) := by
  have hshort := h.short
  have hforward := h.forward
  obtain ⟨hold, hnew⟩ := h.bounded
  by_cases hv : t + new ≤ v
  · have hread := h.readAfter v hv hhigh
    have hoffset := h.after (v - new) (by omega) (by omega)
    have hcandidate : inYears (v - new) = .ok (v - new) := h.inYears_instant (by omega) (by omega)
    have hback : toZone zone (v - new) = .ok v := by
      unfold toZone
      rw [hcandidate]
      dsimp only
      rw [hoffset, Int.sub_add_cancel]
      exact h.inYears_wall (by omega) (by omega)
    have htrip := hd.roundTrip zone v (by rw [hread]; exact hcandidate) ⟨v, by rw [hread]; exact hback⟩
    rw [htrip, h.occurrence_after hv hhigh]
    simp [hv]
  · obtain ⟨hcandidate, hback⟩ := h.reading_gap hlow (by omega)
    unfold instantOf at hcandidate
    have heq := (inYears_eq_ok.mp hcandidate).1
    have htrip := hd.roundTrip zone v (by rw [heq] at hcandidate ⊢; exact hcandidate) ⟨_, by rw [heq]; exact hback⟩
    rw [htrip, h.occurrence_gap hlow (by omega) false]
    simp [hv]

end

def seconds (t new wall : ℤ) : ℕ := ((t + new - wall + (second - 1)) / second).toNat

variable {wall : ℤ}

theorem seconds_spec (hwall : wall < t + new) (i : ℕ) :
    Gap.seconds t new wall ≤ i ↔ t + new ≤ wall + i * second := by
  unfold Gap.seconds
  simp only [second]
  omega

theorem seconds_pos (hwall : wall < t + new) : 0 < Gap.seconds t new wall := by
  unfold Gap.seconds
  simp only [second]
  omega

theorem threshold (h : Gap zone t old new) (hd : dateutil.Documented) (hlow : t + old ≤ wall)
    (hhigh : wall < t + new) {top : ℕ} (htop : wall + top * second < t + new + day) :
    Search.Threshold (existsAfter dateutil zone wall) (Gap.seconds t new wall) top := by
  intro i hi
  have hshort := h.short
  obtain ⟨hold, hnew⟩ := h.bounded
  have hstep : (i : ℤ) * second ≤ top * second := by
    simp only [second]
    omega
  have hstart : (0 : ℤ) ≤ i * second := by
    simp only [second]
    omega
  unfold existsAfter
  rw [h.inYears_wall (by omega) (by omega)]
  dsimp only
  rw [h.datetimeExists hd (by omega) (by omega)]
  simp only [Gap.seconds_spec hhigh]

theorem top_near (h : Gap zone t old new) (hlow : t + old ≤ wall) (hhigh : wall < t + new) {top : ℕ}
    (htop : top ≤ max 1 (2 * (Gap.seconds t new wall - 1))) : wall + top * second < t + new + day := by
  have hshort := h.short
  have hpos := Gap.seconds_pos hhigh
  have hbefore := mt (Gap.seconds_spec hhigh (Gap.seconds t new wall - 1)).mpr (by omega)
  generalize Gap.seconds t new wall = k at *
  simp only [day, second] at *
  omega

variable {wall : ℤ}

section

variable (h : Gap zone t old new)
include h

theorem shown_end (hlow : t + old ≤ wall) (hhigh : wall < t + new) :
    t + new ≤ wall + Gap.seconds t new wall * second ∧
      wall + Gap.seconds t new wall * second < t + new + day ∧
      occurrence zone (wall + Gap.seconds t new wall * second) false =
        some (wall + Gap.seconds t new wall * second - new) := by
  have hlast := (Gap.seconds_spec hhigh _).mp (le_refl (Gap.seconds t new wall))
  have hpos := Gap.seconds_pos hhigh
  have htop : Gap.seconds t new wall ≤ max 1 (2 * (Gap.seconds t new wall - 1)) := by omega
  have hnear := h.top_near hlow hhigh htop
  exact ⟨hlast, hnear, h.occurrence_after hlast hnear⟩

theorem instantOf_end (hlow : t + old ≤ wall) (hhigh : wall < t + new) :
    instantOf zone (wall + Gap.seconds t new wall * second) =
      .ok (wall + Gap.seconds t new wall * second - new) := by
  obtain ⟨hlast, hnear, -⟩ := h.shown_end hlow hhigh
  obtain ⟨hold, hnew⟩ := h.bounded
  unfold instantOf
  rw [h.readAfter _ hlast hnear]
  exact h.inYears_instant (by omega) (by omega)

theorem resolveLocal_eq (hd : dateutil.Documented) (hlow : t + old ≤ wall)
    (hhigh : wall < t + new) :
    resolveLocal dateutil zone wall = .ok (wall + Gap.seconds t new wall * second) := by
  obtain ⟨hlast, hnear, -⟩ := h.shown_end hlow hhigh
  obtain ⟨hold, hnew⟩ := h.bounded
  have hshort := h.short
  have hpos := Gap.seconds_pos hhigh
  have hbefore := mt (Gap.seconds_spec hhigh (Gap.seconds t new wall - 1)).mpr (by omega)
  have htop : wall + (max 1 (2 * (Gap.seconds t new wall - 1)) : ℕ) * second < t + new + day :=
    h.top_near hlow hhigh (le_refl _)
  have hthreshold := h.threshold hd hlow hhigh htop
  have hlimit : 2 * (Gap.seconds t new wall - 1) ≤ maxLocalTimeGap := by
    simp only [maxLocalTimeGap, day, second] at *
    omega
  obtain ⟨l, u, hwiden, hl, hu, hulimit, hutop⟩ :
      ∃ l u, Search.widen (existsAfter dateutil zone wall) maxLocalTimeGap 0 1 Nat.one_pos = .ok (l, u) ∧
        l < Gap.seconds t new wall ∧ Gap.seconds t new wall ≤ u ∧ u ≤ maxLocalTimeGap ∧
        u ≤ max 1 (2 * (Gap.seconds t new wall - 1)) :=
    Search.widen_finds hthreshold hpos (by omega) ⟨by decide, hlimit⟩ ⟨by omega, by omega⟩
  have hnarrow := Search.narrow_finds hthreshold hl hu hutop
  have hseconds : secondsToShown dateutil zone wall = .ok (Gap.seconds t new wall) := by
    unfold secondsToShown
    rw [hwiden]
    simp only [Except.mapError, bind, Except.bind, limited, if_pos hulimit, hnarrow]
  have hnot : ¬t + new ≤ wall := by omega
  have hsum : inYears (wall + Gap.seconds t new wall * second) = .ok (wall + Gap.seconds t new wall * second) :=
    h.inYears_wall (by omega) (by omega)
  unfold resolveLocal
  rw [h.datetimeExists hd hlow (by simp only [day, second]; omega)]
  simp only [hnot, decide_false, Except.mapError, bind, Except.bind, hseconds, hsum]
  rfl

theorem resolveDue_eq (hd : dateutil.Documented) (hlow : t + old ≤ wall)
    (hhigh : wall < t + new) :
    resolveDue dateutil zone wall = .ok (wall + Gap.seconds t new wall * second - new) := by
  obtain ⟨hlast, hnear, -⟩ := h.shown_end hlow hhigh
  obtain ⟨hold, hnew⟩ := h.bounded
  have hshort := h.short
  have hforward := h.forward
  have hpos := Gap.seconds_pos hhigh
  have hbefore := mt (Gap.seconds_spec hhigh (Gap.seconds t new wall - 1)).mpr (by omega)
  have hshift := hd.fallsForward zone t old new h wall hlow hhigh
  obtain ⟨m, hm⟩ := h.whole
  have hhighest : ((new - old) / second).toNat = m.toNat := by
    rw [hm]
    simp only [second]
    omega
  have hle : Gap.seconds t new wall ≤ m.toNat := by
    apply (Gap.seconds_spec hhigh _).mpr
    simp only [second] at *
    omega
  have htop : wall + (m.toNat : ℤ) * second < t + new + day := by
    simp only [second] at *
    omega
  have hthreshold := h.threshold hd hlow hhigh htop
  have hfound : searchGap dateutil zone wall 1 m.toNat = .ok (Gap.seconds t new wall) := by
    rw [searchGap_eq]
    exact Search.halve_finds hthreshold hpos hle (le_refl _)
  have hshown : existsAfter dateutil zone wall (Gap.seconds t new wall) = .ok true := by
    rw [hthreshold _ hle]
    simp
  have hnot : ¬t + new ≤ wall := by omega
  unfold resolveDue
  rw [h.datetimeExists hd hlow (by simp only [day, second]; omega)]
  simp only [hnot, decide_false, hshift]
  unfold firstValid
  have hgap : wall + (new - old) - wall = new - old := by omega
  simp only [hgap, hhighest, hfound, hshown, h.instantOf_end hlow hhigh]
  rw [if_neg]
  simp only [day, second] at *
  omega

theorem firstShown_eq (hlow : t + old ≤ wall) (hhigh : wall < t + new) {n : ℕ}
    (hn : Gap.seconds t new wall ≤ n) :
    firstShown zone wall n = some (wall + Gap.seconds t new wall * second - new) := by
  induction n generalizing wall with
  | zero =>
    have hpos := Gap.seconds_pos hhigh
    omega
  | succ n ih =>
    have hshort := h.short
    rw [firstShown]
    by_cases hlast : t + new ≤ wall + second
    · have hone : Gap.seconds t new wall = 1 := by
        have hpos := Gap.seconds_pos hhigh
        have hle := (Gap.seconds_spec hhigh 1).mpr (by omega)
        omega
      have hshown := h.occurrence_after hlast (by simp only [day, second]; omega)
      rw [hshown, hone]
      simp
    · have hnext : t + old ≤ wall + second := by
        simp only [second]
        omega
      have hhigh' : wall + second < t + new := by omega
      have hstep : Gap.seconds t new wall = Gap.seconds t new (wall + second) + 1 := by
        unfold Gap.seconds
        simp only [second] at *
        omega
      rw [h.occurrence_gap hnext hhigh' false, h.occurrence_gap hnext hhigh' true]
      dsimp only
      rw [ih hnext hhigh' (by omega), hstep]
      simp only [second]
      congr 1
      omega

theorem resolveWall_eq (hlow : t + old ≤ wall) (hhigh : wall < t + new)
    {profile : DigestScheduleProfile} (hp : profile.gapPolicy = .nextValidInstant) :
    resolveWall zone profile wall = .ok (some (wall + Gap.seconds t new wall * second - new)) := by
  have hshort := h.short
  have hbefore := mt (Gap.seconds_spec hhigh (Gap.seconds t new wall - 1)).mpr (by
    have := Gap.seconds_pos hhigh
    omega)
  have hmany : Gap.seconds t new wall ≤ 86400 := by
    simp only [day, second] at *
    omega
  unfold resolveWall
  rw [h.occurrence_gap hlow hhigh false, h.occurrence_gap hlow hhigh true, hp, h.firstShown_eq hlow hhigh hmany]

end

end Gap

def LeastShown (zone : ZoneInfo) (wall v : ℤ) : Prop :=
  ∃ k : ℕ, 0 < k ∧ v = wall + k * second ∧ Shown zone v ∧ ∀ j : ℕ, 0 < j → j < k → ¬Shown zone (wall + j * second)

def Unambiguous (zone : ZoneInfo) (wall : ℤ) (u : Instant) : Prop := ∀ fold, occurrence zone wall fold = some u

def localInstant (dateutil : Dateutil) (zone : ZoneInfo) (wall : ℤ) : Except SeriesError Instant := do
  let v ← resolveLocal dateutil zone wall
  (instantOf zone v).mapError .raised

theorem Gap.leastShown {zone : ZoneInfo} {t old new wall : ℤ} (h : Gap zone t old new) (hlow : t + old ≤ wall)
    (hhigh : wall < t + new) : LeastShown zone wall (wall + Gap.seconds t new wall * second) := by
  obtain ⟨-, -, hshown⟩ := h.shown_end hlow hhigh
  refine ⟨Gap.seconds t new wall, Gap.seconds_pos hhigh, rfl, ⟨false, _, hshown⟩, ?_⟩
  intro j hj hlt
  have hbefore := mt (Gap.seconds_spec hhigh j).mpr (by omega)
  have hstart : (0 : ℤ) ≤ j * second := by
    simp only [second]
    omega
  exact h.not_shown (by omega) (by omega)

theorem resolve_unambiguous {dateutil : Dateutil} (hd : dateutil.Documented) {zone : ZoneInfo} {wall u : ℤ}
    (h : Unambiguous zone wall u) (hwall : inYears wall = .ok wall) (hu : inYears u = .ok u)
    (profile : DigestScheduleProfile) :
    localInstant dateutil zone wall = .ok u ∧ resolveDue dateutil zone wall = .ok u ∧
      resolveWall zone profile wall = .ok (some u) := by
  have hfirst := h false
  have hcandidate : wall - zone.wallOffset false wall = u := by
    unfold occurrence at hfirst
    dsimp only at hfirst
    split at hfirst
    · exact Option.some.inj hfirst
    · cases hfirst
  have hback : toZone zone u = .ok wall := by
    unfold toZone
    rw [hu]
    dsimp only
    rw [occurrence_shows hfirst]
    exact hwall
  have hexists : dateutil.datetimeExists zone wall = .ok true := by
    rw [hd.roundTrip zone wall (by rw [hcandidate]; exact hu) ⟨wall, by rw [hcandidate]; exact hback⟩, hfirst]
    rfl
  have hinstant : instantOf zone wall = .ok u := by
    unfold instantOf
    rw [hcandidate]
    exact hu
  refine ⟨?_, ?_, ?_⟩
  · unfold localInstant resolveLocal
    simp only [hexists, Except.mapError, bind, Except.bind, if_true, pure, Except.pure, hinstant]
  · unfold resolveDue
    simp only [hexists, hinstant]
  unfold resolveWall
  rw [hfirst, h true]
  simp

/-- In a gap of up to a day the three resolvers come to one instant, that of the first whole second the clock shows. -/
theorem gap_resolvers_agree (dateutil : Dateutil) (hd : dateutil.Documented) (zone : ZoneInfo)
    (profile : DigestScheduleProfile) (hp : profile.gapPolicy = .nextValidInstant) :
    (∀ t old new wall, Gap zone t old new → t + old ≤ wall → wall < t + new →
      ∃ v u : ℤ, LeastShown zone wall v ∧ u + zone.utcOffset u = v ∧ localInstant dateutil zone wall = .ok u ∧
        resolveDue dateutil zone wall = .ok u ∧ resolveWall zone profile wall = .ok (some u)) ∧
      ∀ wall u, Unambiguous zone wall u → inYears wall = .ok wall → inYears u = .ok u →
        localInstant dateutil zone wall = .ok u ∧ resolveDue dateutil zone wall = .ok u ∧
          resolveWall zone profile wall = .ok (some u) := by
  constructor
  · intro t old new wall h hlow hhigh
    obtain ⟨-, -, hshown⟩ := h.shown_end hlow hhigh
    refine ⟨_, _, h.leastShown hlow hhigh, occurrence_shows hshown, ?_, h.resolveDue_eq hd hlow hhigh,
      h.resolveWall_eq hlow hhigh hp⟩
    unfold localInstant
    simp only [h.resolveLocal_eq hd hlow hhigh, bind, Except.bind, h.instantOf_end hlow hhigh, Except.mapError]
  · intro wall u h hwall hu
    exact resolve_unambiguous hd h hwall hu profile

/-! The two functions on a zone that tells its offsets, and the day that Samoa left out. -/

namespace GapSample

def datetimeExists (zone : ZoneInfo) (v : ℤ) : Except Failure Bool :=
  match instantOf zone v with
  | .error e => .error e
  | .ok u =>
    match toZone zone u with
    | .ok w => .ok (w = v)
    | .error e => .error e

def resolveImaginary (zone : ZoneInfo) (v : ℤ) : Except Failure ℤ :=
  match datetimeExists zone v with
  | .error e => .error e
  | .ok true => .ok v
  | .ok false =>
    match inYears (v + day), inYears (v - day) with
    | .ok next, .ok previous => inYears (v + (zone.wallOffset false next - zone.wallOffset false previous))
    | .error e, _ => .error e
    | _, .error e => .error e

def dateutil : Dateutil := ⟨datetimeExists, resolveImaginary⟩

theorem documented : dateutil.Documented where
  converts := by
    intro zone v b h
    change datetimeExists zone v = .ok b at h
    unfold datetimeExists at h
    cases hu : instantOf zone v with
    | error e => rw [hu] at h; cases h
    | ok u =>
      rw [hu] at h
      dsimp only at h
      unfold instantOf at hu
      have heq := (inYears_eq_ok.mp hu).1
      rw [heq] at hu ⊢
      cases hw : toZone zone u with
      | error e => rw [hw] at h; cases h
      | ok w => exact ⟨hu, w, rfl⟩
  roundTrip := by
    intro zone v hu ⟨w, hw⟩
    change datetimeExists zone v = _
    unfold datetimeExists instantOf occurrence
    rw [hu]
    dsimp only
    rw [hw, (toZone_eq_ok hw).2]
    dsimp only
    by_cases h : v - zone.wallOffset false v + zone.utcOffset (v - zone.wallOffset false v) = v
    · simp [h]
    · simp [h]
  fallsForward := by
    intro zone t old new h v hlow hhigh
    have hshort := h.short
    have hforward := h.forward
    obtain ⟨hinstant, hback⟩ := h.reading_gap hlow hhigh
    have hmissing : datetimeExists zone v = .ok false := by
      unfold datetimeExists
      rw [hinstant]
      dsimp only
      rw [hback]
      have hne : v - old + new ≠ v := by omega
      simp [hne]
    have hnext : inYears (v + day) = .ok (v + day) := h.inYears_wall (by omega) (by omega)
    have hprevious : inYears (v - day) = .ok (v - day) := h.inYears_wall (by omega) (by omega)
    change resolveImaginary zone v = _
    unfold resolveImaginary
    rw [hmissing, hnext, hprevious]
    dsimp only
    rw [h.readAfter (v + day) (by omega) (by omega), h.readBefore (v - day) (by omega) (by omega)]
    exact h.inYears_wall (by omega) (by omega)

def hour : ℤ := 3600 * second

def dateline : ℤ := 1325239200 * second

def apia : ZoneInfo := ZoneInfo.ofTransitions (-10 * hour) [(dateline, 14 * hour)]

theorem apia_gap : Gap apia dateline (-10 * hour) (14 * hour) where
  forward := by decide
  short := by decide
  whole := ⟨86400, by decide⟩
  bounded := by decide
  before := by
    intro u _ hu
    have hnot : ¬dateline ≤ u := by omega
    simp [apia, ZoneInfo.ofTransitions, lastStep, hnot]
  after := by
    intro u hu _
    simp [apia, ZoneInfo.ofTransitions, lastStep, hu]
  readBefore := by
    intro v _ hv
    have hnot : ¬dateline + 14 * hour ≤ v := by omega
    have hmax : max (-10 * hour) (14 * hour) = 14 * hour := by decide
    simp only [apia, ZoneInfo.ofTransitions, wallSteps, lastStep, List.foldl_cons, List.foldl_nil, Bool.false_eq_true,
      if_false, hmax, hnot]
  readAfter := by
    intro v hv _
    have hmax : max (-10 * hour) (14 * hour) = 14 * hour := by decide
    simp only [apia, ZoneInfo.ofTransitions, wallSteps, lastStep, List.foldl_cons, List.foldl_nil, Bool.false_eq_true,
      if_false, hmax, hv, if_true]
  secondReading := by
    intro v hv _
    have hmin : min (-10 * hour) (14 * hour) = -10 * hour := by decide
    simp only [apia, ZoneInfo.ofTransitions, wallSteps, lastStep, List.foldl_cons, List.foldl_nil, if_true, hmin, hv]
  instants := by decide
  walls := by decide

def profile : DigestScheduleProfile := ⟨"Pacific/Apia", "00:00", 86400, .firstOccurrence, .nextValidInstant, 1⟩

end GapSample

open GapSample in
/-- The first second of a gap of a whole day: all three come to its end, at the instant of the transition. -/
theorem gap_resolvers_agree_apia : ∃ v u : ℤ, LeastShown apia (dateline - 10 * hour) v ∧ u + apia.utcOffset u = v ∧
    localInstant dateutil apia (dateline - 10 * hour) = .ok u ∧ resolveDue dateutil apia (dateline - 10 * hour) = .ok u ∧
      resolveWall apia profile (dateline - 10 * hour) = .ok (some u) :=
  (gap_resolvers_agree dateutil documented apia profile rfl).1 dateline (-10 * hour) (14 * hour) (dateline - 10 * hour)
    apia_gap (by decide) (by decide)

end GameLink.Ff14

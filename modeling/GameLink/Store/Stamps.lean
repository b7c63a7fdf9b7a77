import GameLink.Ff14.Times
import Mathlib.Algebra.Group.Int.Defs

namespace GameLink.Store

open Foundation Contracts Digest Ff14

/-- The BINARY collation of ASCII texts. -/
def binaryLess : List Char → List Char → Bool
  | _, [] => false
  | [], _ :: _ => true
  | a :: s, b :: t => decide (a.toNat < b.toNat) || decide (a = b) && binaryLess s t

def sqlLess (s t : String) : Bool := binaryLess s.toList t.toList

def padded : ℕ → ℤ → List Char
  | 0, _ => []
  | w + 1, n => padded w (n / 10) ++ [LocalDate.digit n]

def fraction (micros : ℤ) : List Char := if micros = 0 then [] else '.' :: padded 6 micros

/-- `datetime.isoformat` in UTC, with the microseconds of the day `t`. -/
def isoformat (d : LocalDate) (t : ℤ) : String :=
  String.ofList (d.isoformat.toList ++ 'T' :: (padded 2 (t / (60 * minute)) ++ ':' :: (padded 2 (t / minute % 60) ++
    ':' :: (padded 2 (t / second % 60) ++ (fraction (t % second) ++ ['+', '0', '0', ':', '0', '0'])))))

def iso (value : Aware) : Except Failure String := do
  let t ← value.utc
  let d ← dateOf t
  pure (isoformat d (t % day))

def stamp (value : Aware) : Except Failure String :=
  if value.offset = 0 then iso value else .error (.valueError "timestamp must be a UTC instant")

/-- `<` of two datetimes, which reads the fields when the offsets agree. -/
def before (a b : Aware) : Bool :=
  if a.offset = b.offset then decide (a.wall < b.wall) else decide (a.wall - a.offset < b.wall - b.offset)

theorem before_iff (a b : Aware) : before a b = true ↔ a.instant < b.instant := by
  change _ ↔ a.wall - a.offset < b.wall - b.offset
  unfold before
  split
  · rw [decide_eq_true_iff]
    omega
  · exact decide_eq_true_iff

theorem binaryLess_cons {a b : Char} {s t : List Char} :
    binaryLess (a :: s) (b :: t) = true ↔ a.toNat < b.toNat ∨ a = b ∧ binaryLess s t = true := by
  simp [binaryLess]

@[simp]
theorem binaryLess_self_cons {a : Char} {s t : List Char} : binaryLess (a :: s) (a :: t) = binaryLess s t := by
  simp [binaryLess]

theorem binaryLess_digit {n m : ℤ} {s t : List Char} :
    binaryLess (LocalDate.digit n :: s) (LocalDate.digit m :: t) = true ↔
      n % 10 < m % 10 ∨ n % 10 = m % 10 ∧ binaryLess s t = true := by
  have hdigits : ∀ i < 10, (Char.ofNat (48 + i)).toNat = 48 + i := by decide
  have hn := hdigits (n % 10).toNat (by omega)
  have hm := hdigits (m % 10).toNat (by omega)
  rw [binaryLess_cons, LocalDate.digit, LocalDate.digit, ← Char.toNat_inj, hn, hm]
  constructor
  · rintro (h | ⟨h, hs⟩)
    · exact .inl (by omega)
    · exact .inr ⟨by omega, hs⟩
  rintro (h | ⟨h, hs⟩)
  · exact .inl (by omega)
  · exact .inr ⟨by omega, hs⟩

/-- Fixed widths compare as the numbers do, and then the rest decides. -/
theorem padded_lt_iff (w : ℕ) {n m : ℤ} (r r' : List Char) (hn : 0 ≤ n ∧ n < 10 ^ w) (hm : 0 ≤ m ∧ m < 10 ^ w) :
    binaryLess (padded w n ++ r) (padded w m ++ r') = true ↔ n < m ∨ n = m ∧ binaryLess r r' = true := by
  induction w generalizing n m r r' with
  | zero =>
    have h : n = m := by omega
    simp [padded, h]
  | succ w ih =>
    rw [padded, padded, List.append_assoc, List.append_assoc, ih _ _ (by omega) (by omega), List.singleton_append,
      List.singleton_append, binaryLess_digit]
    constructor
    · rintro (h | ⟨h, h' | ⟨h', hr⟩⟩)
      · exact .inl (by omega)
      · exact .inl (by omega)
      · exact .inr ⟨by omega, hr⟩
    rintro (h | ⟨rfl, hr⟩)
    · by_cases hq : n / 10 = m / 10
      · exact .inr ⟨hq, .inl (by omega)⟩
      · exact .inl (by omega)
    · exact .inr ⟨rfl, .inr ⟨rfl, hr⟩⟩

/-- The offset begins with a character below the point of the fraction. -/
theorem fraction_lt_iff {u v : ℤ} (hu : 0 ≤ u ∧ u < second) (hv : 0 ≤ v ∧ v < second) :
    binaryLess (fraction u ++ ['+', '0', '0', ':', '0', '0']) (fraction v ++ ['+', '0', '0', ':', '0', '0']) = true ↔ u < v := by
  unfold second at hu hv
  unfold fraction
  by_cases hu0 : u = 0 <;> by_cases hv0 : v = 0
  · simp [hu0, hv0, binaryLess]
  · rw [if_pos hu0, if_neg hv0, List.nil_append, List.cons_append, binaryLess_cons]
    simp only [show '+'.toNat < '.'.toNat by decide, true_or, true_iff]
    omega
  · rw [if_neg hu0, if_pos hv0, List.nil_append, List.cons_append, binaryLess_cons]
    simp only [show ¬ '.'.toNat < '+'.toNat by decide, show ¬ '.' = '+' by decide, false_and, or_self, false_iff]
    omega
  · rw [if_neg hu0, if_neg hv0, List.cons_append, List.cons_append, binaryLess_self_cons,
      padded_lt_iff 6 _ _ (by omega) (by omega)]
    simp [binaryLess]

def Precedes (c c' : Civil) : Prop :=
  c.year < c'.year ∨ c.year = c'.year ∧ (c.month < c'.month ∨ c.month = c'.month ∧ c.day < c'.day)

theorem civil_precedes {n n' : ℤ} (h : n < n') : Precedes (civil n) (civil n') := by
  -- the years run from March, so that a leap day is the last of its year
  have parts : ∀ n, ∃ e c q y d m : ℤ, 0 ≤ c ∧ c ≤ 3 ∧ 0 ≤ q ∧ q ≤ 24 ∧ 0 ≤ y ∧ y ≤ 3 ∧ 0 ≤ d ∧ d ≤ 365 ∧
      (d = 365 → y = 3 ∧ (q = 24 → c = 3)) ∧ m = (5 * d + 2) / 153 ∧
      n + 719468 = 146097 * e + 36524 * c + 1461 * q + 365 * y + d ∧
      civil n = ofMarch (400 * e + 100 * c + 4 * q + y) m (d - (153 * m + 2) / 5) := by
    intro n
    refine ⟨_, _, _, _, _, _, ?_, ?_, ?_, ?_, ?_, ?_, ?_, ?_, ?_, rfl, ?_, rfl⟩
    all_goals omega
  obtain ⟨e, c, q, y, d, m, hc0, hc3, hq0, hq24, hy0, hy3, hd0, hd365, hleap, hm, hn, hcivil⟩ := parts n
  obtain ⟨e', c', q', y', d', m', hc0', hc3', hq0', hq24', hy0', hy3', hd0', hd365', hleap', hm', hn', hcivil'⟩ := parts n'
  have hlex : e < e' ∨ e = e' ∧ (c < c' ∨ c = c' ∧ (q < q' ∨ q = q' ∧ (y < y' ∨ y = y' ∧ d < d'))) := by omega
  have hyear : 400 * e + 100 * c + 4 * q + y < 400 * e' + 100 * c' + 4 * q' + y' ∨
      400 * e + 100 * c + 4 * q + y = 400 * e' + 100 * c' + 4 * q' + y' ∧ d < d' := by omega
  rw [hcivil, hcivil']
  unfold ofMarch Precedes
  split <;> split <;> dsimp only <;> omega

theorem precedes_irrefl (c : Civil) : ¬ Precedes c c := by
  unfold Precedes
  omega

theorem precedes_asymm {c c' : Civil} (h : Precedes c c') : ¬ Precedes c' c := by
  unfold Precedes at *
  omega

theorem isoformat_toList (d : LocalDate) : d.isoformat.toList = padded 4 (civil d.ordinal).year ++
    '-' :: (padded 2 (civil d.ordinal).month ++ '-' :: padded 2 (civil d.ordinal).day) := by
  have h100 : (civil d.ordinal).year / 10 / 10 = (civil d.ordinal).year / 100 := by omega
  have h1000 : (civil d.ordinal).year / 100 / 10 = (civil d.ordinal).year / 1000 := by omega
  simp only [LocalDate.isoformat, padded, List.nil_append, List.cons_append, String.toList_ofList, h100, h1000]

theorem date_lt_iff (d d' : LocalDate) (r r' : List Char) :
    binaryLess (d.isoformat.toList ++ 'T' :: r) (d'.isoformat.toList ++ 'T' :: r') = true ↔
      d.ordinal < d'.ordinal ∨ d.ordinal = d'.ordinal ∧ binaryLess r r' = true := by
  obtain ⟨hy1, hy2, hm1, hm2, hd1, hd2⟩ := civil_bounds d
  obtain ⟨hy1', hy2', hm1', hm2', hd1', hd2'⟩ := civil_bounds d'
  have hfields : binaryLess (d.isoformat.toList ++ 'T' :: r) (d'.isoformat.toList ++ 'T' :: r') = true ↔
      Precedes (civil d.ordinal) (civil d'.ordinal) ∨ civil d.ordinal = civil d'.ordinal ∧ binaryLess r r' = true := by
    rw [isoformat_toList, isoformat_toList]
    simp only [List.append_assoc, List.cons_append]
    rw [padded_lt_iff 4 _ _ (by omega) (by omega), binaryLess_self_cons, padded_lt_iff 2 _ _ (by omega) (by omega),
      binaryLess_self_cons, padded_lt_iff 2 _ _ (by omega) (by omega), binaryLess_self_cons]
    cases civil d.ordinal; cases civil d'.ordinal
    simp only [Precedes, Civil.mk.injEq]
    tauto
  rw [hfields]
  rcases Int.lt_trichotomy d.ordinal d'.ordinal with h | h | h
  · simp [h, civil_precedes h]
  · simp [h, precedes_irrefl]
  have hne : civil d.ordinal ≠ civil d'.ordinal := fun heq => by have := civil_injective heq; omega
  simp only [precedes_asymm (civil_precedes h), hne, false_and, or_self, false_iff]
  omega

theorem isoformat_lt_iff (d d' : LocalDate) {t t' : ℤ} (ht : 0 ≤ t ∧ t < day) (ht' : 0 ≤ t' ∧ t' < day) :
    sqlLess (isoformat d t) (isoformat d' t') = true ↔ d.ordinal < d'.ordinal ∨ d.ordinal = d'.ordinal ∧ t < t' := by
  unfold day second at *
  rw [sqlLess, isoformat, isoformat, String.toList_ofList, String.toList_ofList, date_lt_iff]
  unfold minute second
  rw [padded_lt_iff 2 _ _ (by omega) (by omega), binaryLess_self_cons, padded_lt_iff 2 _ _ (by omega) (by omega),
    binaryLess_self_cons, padded_lt_iff 2 _ _ (by omega) (by omega),
    fraction_lt_iff (by unfold second; omega) (by unfold second; omega)]
  omega

theorem iso_instant {value : Aware} {s : String} (h : iso value = .ok s) :
    ∃ d : LocalDate, d.ordinal = value.instant / day ∧ s = isoformat d (value.instant % day) := by
  simp only [iso, Aware.utc, inYears] at h
  split at h
  · rename_i hyears
    cases hd : dateOf value.instant with
    | error e => simp [hd, bind, Except.bind] at h
    | ok d =>
      simp only [hd, bind, Except.bind, pure, Except.pure, Except.ok.injEq] at h
      exact ⟨d, ofOrdinal_eq_ok hd, h.symm⟩
  · cases h

theorem iso_lt_iff {a b : Aware} {s t : String} (ha : iso a = .ok s) (hb : iso b = .ok t) :
    sqlLess s t = true ↔ a.instant < b.instant := by
  obtain ⟨d, hd, rfl⟩ := iso_instant ha
  obtain ⟨d', hd', rfl⟩ := iso_instant hb
  have hday : (0 : ℤ) < day := by decide
  rw [isoformat_lt_iff d d' ⟨Int.emod_nonneg _ hday.ne', Int.emod_lt_of_pos _ hday⟩
    ⟨Int.emod_nonneg _ hday.ne', Int.emod_lt_of_pos _ hday⟩, hd, hd']
  change _ ↔ a.wall - a.offset < b.wall - b.offset
  unfold Aware.instant day second
  omega

theorem stamp_iso {value : Aware} {s : String} (h : stamp value = .ok s) : iso value = .ok s := by
  unfold stamp at h
  split at h
  · exact h
  · cases h

/-- The texts that the writers store compare as the instants and as the datetimes do. -/
theorem stored_order (a b : Aware) (s t : String) (ha : iso a = .ok s ∨ stamp a = .ok s) (hb : iso b = .ok t ∨ stamp b = .ok t) :
    (sqlLess s t = true ↔ a.instant < b.instant) ∧ (s = t ↔ a.instant = b.instant) ∧ sqlLess s t = before a b := by
  have ha := ha.elim id stamp_iso
  have hb := hb.elim id stamp_iso
  have hlt := iso_lt_iff ha hb
  refine ⟨hlt, ?_, Bool.eq_iff_iff.mpr (hlt.trans (before_iff a b).symm)⟩
  constructor
  · rintro rfl
    have hle := mt hlt.mpr (mt (iso_lt_iff ha ha).mp (lt_irrefl a.instant))
    have hge := mt (iso_lt_iff hb ha).mpr (mt (iso_lt_iff ha ha).mp (lt_irrefl a.instant))
    exact le_antisymm (not_lt.mp hge) (not_lt.mp hle)
  intro h
  obtain ⟨d, hd, rfl⟩ := iso_instant ha
  obtain ⟨d', hd', rfl⟩ := iso_instant hb
  rw [LocalDate.ext (show d.ordinal = d'.ordinal by rw [hd, hd', h]), h]

/-- Half a second after midnight UTC, and midnight in a zone two hours ahead. -/
theorem stored_order_midnight : sqlLess "2024-02-28T22:00:00+00:00" "2024-02-29T00:00:00.500000+00:00" = true :=
  (stored_order ⟨19782 * day, 120 * minute⟩ ⟨19782 * day + 500000, 0⟩ _ _ (.inl rfl) (.inr rfl)).1.mpr (by decide)

end GameLink.Store

import GameLink.Ff14.Gaps

namespace GameLink.Ff14

open Foundation Contracts Digest

/-! Timezones as the timezone database has them: transitions days apart, none of them by more than a day. -/

theorem lastStep_cons (before x offset : ℤ) (rest : List (ℤ × ℤ)) (v : ℤ) :
    lastStep before ((x, offset) :: rest) v = lastStep (if x ≤ v then offset else before) rest v := rfl

theorem lastStep_before {before : ℤ} {steps : List (ℤ × ℤ)} {v : ℤ} (h : ∀ e ∈ steps, v < e.1) :
    lastStep before steps v = before := by
  induction steps with
  | nil => rfl
  | cons e rest ih =>
    have he := h e (by simp)
    obtain ⟨x, offset⟩ := e
    rw [lastStep_cons, if_neg (by omega)]
    exact ih fun e he => h e (by simp [he])

/-- From `previous` on: offsets in whole seconds, changed by at most a day, at instants two days apart or more. -/
def Steady : ℤ → List (ℤ × ℤ) → Prop
  | _, [] => True
  | previous, (t, offset) :: rest =>
    offset - previous ≤ day ∧ previous - offset ≤ day ∧ second ∣ offset - previous ∧ -day < offset ∧ offset < day ∧
      (∀ e ∈ rest, t + 2 * day ≤ e.1) ∧ Steady offset rest

structure ZoneRule where
  before : ℤ
  transitions : List (ℤ × ℤ)
  bounded : -day < before ∧ before < day
  steady : Steady before transitions
  inCalendar : ∀ e ∈ transitions, minWall + 3 * day ≤ e.1 ∧ e.1 ≤ maxWall - 3 * day

def ZoneRule.zone (rule : ZoneRule) : ZoneInfo := ZoneInfo.ofTransitions rule.before rule.transitions

def reading (before : ℤ) (transitions : List (ℤ × ℤ)) (v : ℤ) : ℤ := lastStep before (wallSteps false before transitions) v

variable {transitions : List (ℤ × ℤ)} {previous T : ℤ}

theorem le_wallSteps {fold : Bool} (hsteady : Steady previous transitions)
    (hT : ∀ e ∈ transitions, T ≤ e.1) :
    ∀ s ∈ wallSteps fold previous transitions, T + previous - (if fold then day else 0) ≤ s.1 := by
  induction transitions generalizing previous T with
  | nil => simp [wallSteps]
  | cons e rest ih =>
    obtain ⟨t, offset⟩ := e
    obtain ⟨hup, hdown, -, -, -, hrest, htail⟩ := hsteady
    have ht : T ≤ t := hT (t, offset) (by simp)
    have hday : (0 : ℤ) < day := by decide
    intro s hs
    rw [wallSteps, List.mem_cons] at hs
    cases hs with
    | inl hs =>
      subst hs
      cases fold with
      | false =>
        simp only [Bool.false_eq_true, if_false]
        omega
      | true =>
        simp only [if_true]
        omega
    | inr hs =>
      have hle := ih htail hrest s hs
      cases fold with
      | false =>
        simp only [Bool.false_eq_true, if_false] at hle ⊢
        omega
      | true =>
        simp only [if_true] at hle ⊢
        omega

variable {previous t offset v : ℤ}

theorem reading_cons_of_le {rest : List (ℤ × ℤ)} (h : t + max previous offset ≤ v) :
    reading previous ((t, offset) :: rest) v = reading offset rest v := by
  unfold reading
  rw [wallSteps, lastStep_cons]
  simp only [Bool.false_eq_true, if_false]
  rw [if_pos h]

theorem reading_cons_of_lt {rest : List (ℤ × ℤ)} (hsteady : Steady previous ((t, offset) :: rest))
    (h : v < t + max previous offset) : reading previous ((t, offset) :: rest) v = previous := by
  obtain ⟨hup, hdown, -, -, -, hrest, htail⟩ := hsteady
  have hday : (0 : ℤ) < day := by decide
  unfold reading
  apply lastStep_before
  intro s hs
  rw [wallSteps, List.mem_cons] at hs
  cases hs with
  | inl hs =>
    subst hs
    exact h
  | inr hs =>
    have hle := le_wallSteps htail hrest s hs
    simp only [Bool.false_eq_true, if_false] at hle
    omega

theorem le_reading {rest : List (ℤ × ℤ)} (hsteady : Steady previous ((t, offset) :: rest))
    (h : t + max previous offset ≤ v) : t ≤ v - reading offset rest v := by
  induction rest generalizing previous t offset with
  | nil =>
    unfold reading
    simp only [wallSteps, lastStep, List.foldl_nil]
    omega
  | cons e rest ih =>
    obtain ⟨t', offset'⟩ := e
    obtain ⟨-, -, -, -, -, hrest, htail⟩ := hsteady
    have hday : (0 : ℤ) < day := by decide
    have ht : t + 2 * day ≤ t' := hrest (t', offset') (by simp)
    by_cases hv : t' + max offset offset' ≤ v
    · rw [reading_cons_of_le hv]
      have hle := ih htail hv
      omega
    · rw [reading_cons_of_lt htail (by omega)]
      omega

variable {previous : ℤ}

theorem reading_le (hsteady : Steady previous transitions) {v w : ℤ}
    (h : v + day ≤ w) :
    v - reading previous transitions v ≤ w - reading previous transitions w ∧
      (v - reading previous transitions v = w - reading previous transitions w →
        w = v + day ∧ reading previous transitions w = reading previous transitions v + day) := by
  induction transitions generalizing previous with
  | nil =>
    have hday : (0 : ℤ) < day := by decide
    unfold reading
    simp only [wallSteps, lastStep, List.foldl_nil]
    constructor
    · omega
    · intro heq
      omega
  | cons e rest ih =>
    obtain ⟨t, offset⟩ := e
    have hday : (0 : ℤ) < day := by decide
    have hboth := hsteady
    obtain ⟨hup, hdown, -, -, -, hrest, htail⟩ := hboth
    by_cases hv : t + max previous offset ≤ v
    · rw [reading_cons_of_le hv, reading_cons_of_le (by omega)]
      exact ih htail
    rw [reading_cons_of_lt hsteady (by omega)]
    by_cases hw : t + max previous offset ≤ w
    · rw [reading_cons_of_le hw]
      cases rest with
      | nil =>
        unfold reading
        simp only [wallSteps, lastStep, List.foldl_nil]
        constructor
        · omega
        · intro heq
          omega
      | cons e' rest' =>
        obtain ⟨t', offset'⟩ := e'
        have ht : t + 2 * day ≤ t' := hrest (t', offset') (by simp)
        by_cases hw' : t' + max offset offset' ≤ w
        · rw [reading_cons_of_le hw']
          have hle := le_reading htail hw'
          constructor
          · omega
          · intro heq
            omega
        · rw [reading_cons_of_lt htail (by omega)]
          constructor
          · omega
          · intro heq
            omega
    · rw [reading_cons_of_lt hsteady (by omega)]
      constructor
      · omega
      · intro heq
        omega

/-- One of the transitions puts the clock forward at `t` from `old` to `new`. -/
def Forward : ℤ → List (ℤ × ℤ) → ℤ → ℤ → ℤ → Prop
  | _, [], _, _, _ => False
  | previous, (t, offset) :: rest, t', old, new =>
    (t' = t ∧ old = previous ∧ new = offset ∧ previous < offset) ∨ Forward offset rest t' old new

variable {previous t old new : ℤ}

theorem Forward.lt (h : Forward previous transitions t old new) :
    old < new := by
  induction transitions generalizing previous with
  | nil => exact h.elim
  | cons e rest ih =>
    cases h with
    | inl h => omega
    | inr h => exact ih h

theorem Forward.le {previous t old new T : ℤ} (h : Forward previous transitions t old new)
    (hsteady : Steady previous transitions) (hT : ∀ e ∈ transitions, T ≤ e.1) : T ≤ t ∧ T + previous ≤ t + old := by
  induction transitions generalizing previous T with
  | nil => exact h.elim
  | cons e rest ih =>
    obtain ⟨t', offset⟩ := e
    obtain ⟨hup, hdown, -, -, -, hrest, htail⟩ := hsteady
    have ht : T ≤ t' := hT (t', offset) (by simp)
    have hday : (0 : ℤ) < day := by decide
    cases h with
    | inl h => omega
    | inr h =>
      have hle := ih h htail hrest
      omega

section

variable (h : Forward previous transitions t old new)
include h

theorem Forward.mem :
    (t, new) ∈ transitions := by
  induction transitions generalizing previous with
  | nil => exact h.elim
  | cons e rest ih =>
    cases h with
    | inl h =>
      obtain ⟨rfl, -, rfl, -⟩ := h
      simp
    | inr h =>
      have hm := ih h
      simp [hm]

theorem Forward.parts
    (hsteady : Steady previous transitions) (hbounded : -day < previous) :
    new - old ≤ day ∧ second ∣ new - old ∧ -day < old ∧ new < day := by
  induction transitions generalizing previous with
  | nil => exact h.elim
  | cons e rest ih =>
    obtain ⟨t', offset⟩ := e
    obtain ⟨hup, hdown, hwhole, hlow, hhigh, -, htail⟩ := hsteady
    cases h with
    | inl h =>
      obtain ⟨-, rfl, rfl, -⟩ := h
      exact ⟨hup, hwhole, hbounded, hhigh⟩
    | inr h => exact ih h htail hlow

theorem Forward.utcOffset (hsteady : Steady previous transitions) {u : ℤ} (hlow : t - day ≤ u)
    (hhigh : u < t + day) : lastStep previous transitions u = if t ≤ u then new else old := by
  induction transitions generalizing previous with
  | nil => exact h.elim
  | cons e rest ih =>
    obtain ⟨t', offset⟩ := e
    obtain ⟨-, -, -, -, -, hrest, htail⟩ := hsteady
    have hday : (0 : ℤ) < day := by decide
    rw [lastStep_cons]
    cases h with
    | inl h =>
      obtain ⟨rfl, rfl, rfl, -⟩ := h
      apply lastStep_before
      intro e he
      have hle := hrest e he
      omega
    | inr h =>
      have hle := (h.le htail hrest).1
      rw [if_pos (by omega)]
      exact ih h htail

end

theorem Forward.wallOffset {fold : Bool}
    (h : Forward previous transitions t old new) (hsteady : Steady previous transitions) {v : ℤ}
    (hlow : t + old - (if fold then 0 else day) ≤ v) (hhigh : v < t + new + (if fold then 0 else day)) :
    lastStep previous (wallSteps fold previous transitions) v =
      if t + (if fold then old else new) ≤ v then new else old := by
  induction transitions generalizing previous with
  | nil => exact h.elim
  | cons e rest ih =>
    obtain ⟨t', offset⟩ := e
    obtain ⟨hup, hdown, -, -, -, hrest, htail⟩ := hsteady
    have hday : (0 : ℤ) < day := by decide
    rw [wallSteps, lastStep_cons]
    cases h with
    | inl h =>
      obtain ⟨rfl, rfl, rfl, hlt⟩ := h
      have hmin : min old new = old := by omega
      have hmax : max old new = new := by omega
      rw [hmin, hmax]
      apply lastStep_before
      intro s hs
      have hle := le_wallSteps htail hrest s hs
      cases fold with
      | false =>
        simp only [Bool.false_eq_true, if_false] at hle hhigh
        omega
      | true =>
        simp only [if_true] at hle hhigh
        omega
    | inr h =>
      have hle := (h.le htail hrest).2
      have hpassed : t' + (if fold = true then min previous offset else max previous offset) ≤ v := by
        cases fold with
        | false =>
          simp only [Bool.false_eq_true, if_false] at hlow ⊢
          omega
        | true =>
          simp only [if_true] at hlow ⊢
          omega
      rw [if_pos hpassed]
      exact ih h htail

theorem ZoneRule.gap (rule : ZoneRule) {t old new : ℤ} (h : Forward rule.before rule.transitions t old new) :
    Gap rule.zone t old new := by
  obtain ⟨hshort, hwhole, hlow, hhigh⟩ := h.parts rule.steady rule.bounded.1
  have hforward := h.lt
  have hday : (0 : ℤ) < day := by decide
  obtain ⟨hfirst, hlast⟩ := rule.inCalendar _ h.mem
  dsimp only at hfirst hlast
  constructor
  case forward => exact hforward
  case short => exact hshort
  case whole => exact hwhole
  case bounded => exact ⟨hlow, hhigh⟩
  case before =>
    intro u hu hlt
    exact (h.utcOffset rule.steady hu (by omega)).trans (if_neg (by omega))
  case after =>
    intro u hu hlt
    exact (h.utcOffset rule.steady (by omega) hlt).trans (if_pos hu)
  case readBefore =>
    intro v hv hlt
    exact (h.wallOffset rule.steady hv (by simp; omega)).trans (if_neg (by simp; omega))
  case readAfter =>
    intro v hv hlt
    exact (h.wallOffset rule.steady (by simp; omega) hlt).trans (if_pos (by simpa using hv))
  case secondReading =>
    intro v hv hlt
    exact (h.wallOffset rule.steady (by simpa using hv) (by simpa using hlt)).trans
      (if_pos (by simpa using hv))
  case instants => omega
  case walls => omega

theorem reading_shows (hsteady : Steady previous transitions) (v : ℤ) :
    lastStep previous transitions (v - reading previous transitions v) = reading previous transitions v ∨
      ∃ t new, Forward previous transitions t (reading previous transitions v) new ∧
        t + reading previous transitions v ≤ v ∧ v < t + new := by
  induction transitions generalizing previous with
  | nil => exact .inl rfl
  | cons e rest ih =>
    obtain ⟨t, offset⟩ := e
    have hboth := hsteady
    obtain ⟨hup, hdown, -, -, -, hrest, htail⟩ := hboth
    have hday : (0 : ℤ) < day := by decide
    by_cases hv : t + max previous offset ≤ v
    · have hle := le_reading hsteady hv
      rw [reading_cons_of_le hv, lastStep_cons, if_pos hle]
      cases ih htail with
      | inl hshows => exact .inl hshows
      | inr hgap =>
        obtain ⟨t', new, hforward, hspan⟩ := hgap
        exact .inr ⟨t', new, .inr hforward, hspan⟩
    · rw [reading_cons_of_lt hsteady (by omega)]
      by_cases ht : t ≤ v - previous
      · exact .inr ⟨t, offset, .inl ⟨rfl, rfl, rfl, by omega⟩, by omega, by omega⟩
      left
      rw [lastStep_cons, if_neg ht]
      apply lastStep_before
      intro e he
      have hle := hrest e he
      omega

theorem le_local (hsteady : Steady previous transitions)
    (hT : ∀ e ∈ transitions, T ≤ e.1) {u : ℤ} (hu : T ≤ u) : T + previous - day ≤ u + lastStep previous transitions u := by
  induction transitions generalizing previous T with
  | nil =>
    have hday : (0 : ℤ) < day := by decide
    simp only [lastStep, List.foldl_nil]
    omega
  | cons e rest ih =>
    obtain ⟨t, offset⟩ := e
    obtain ⟨hup, hdown, -, -, -, hrest, htail⟩ := hsteady
    have hday : (0 : ℤ) < day := by decide
    have ht : T ≤ t := hT (t, offset) (by simp)
    rw [lastStep_cons]
    by_cases hut : t ≤ u
    · rw [if_pos hut]
      by_cases hnear : u < t + 2 * day
      · rw [lastStep_before fun e he => by
          have hle := hrest e he
          omega]
        omega
      · have hle := ih htail hrest (by omega)
        omega
    · rw [if_neg hut, lastStep_before fun e he => by
        have hle := hrest e he
        omega]
      omega

theorem lt_reading (hsteady : Steady previous transitions) {u w : ℤ}
    (h : u + lastStep previous transitions u + day < w) : u < w - reading previous transitions w := by
  induction transitions generalizing previous with
  | nil =>
    have hday : (0 : ℤ) < day := by decide
    unfold reading
    simp only [wallSteps, lastStep, List.foldl_nil] at h ⊢
    omega
  | cons e rest ih =>
    obtain ⟨t, offset⟩ := e
    have hboth := hsteady
    obtain ⟨hup, hdown, -, -, -, hrest, htail⟩ := hboth
    have hday : (0 : ℤ) < day := by decide
    rw [lastStep_cons] at h
    by_cases hw : t + max previous offset ≤ w
    · rw [reading_cons_of_le hw]
      by_cases hut : t ≤ u
      · rw [if_pos hut] at h
        exact ih htail h
      · have hle := le_reading hsteady hw
        omega
    · rw [reading_cons_of_lt hsteady (by omega)]
      by_cases hut : t ≤ u
      · rw [if_pos hut] at h
        by_cases hnear : u < t + 2 * day
        · rw [lastStep_before fun e he => by
            have hle := hrest e he
            omega] at h
          omega
        · have hle := le_local htail hrest (u := u) (by omega)
          omega
      · rw [if_neg hut, lastStep_before fun e he => by
          have hle := hrest e he
          omega] at h
        omega

theorem lt_reading_next (hsteady : Steady previous transitions) {u v : ℤ}
    (hback : v + (day - 1) - reading previous transitions (v + (day - 1)) < v - reading previous transitions v)
    (h : u + lastStep previous transitions u ≤ v + (day - 1)) :
    u < v + day - reading previous transitions (v + day) := by
  induction transitions generalizing previous with
  | nil =>
    have hday : (0 : ℤ) < day := by decide
    unfold reading at hback
    simp only [wallSteps, lastStep, List.foldl_nil] at hback
    omega
  | cons e rest ih =>
    obtain ⟨t, offset⟩ := e
    have hboth := hsteady
    obtain ⟨hup, hdown, -, -, -, hrest, htail⟩ := hboth
    have hday : (1 : ℤ) < day := by decide
    rw [lastStep_cons] at h
    by_cases hv : t + max previous offset ≤ v
    · have hle := le_reading hsteady (v := v + day) (by omega)
      rw [reading_cons_of_le (by omega)] at hback ⊢
      rw [reading_cons_of_le hv] at hback
      by_cases hut : t ≤ u
      · rw [if_pos hut] at h
        exact ih htail hback h
      · omega
    · rw [reading_cons_of_lt hsteady (v := v) (by omega)] at hback
      by_cases hlast : t + max previous offset ≤ v + (day - 1)
      · -- the next transition is two days away, so both later readings use this offset
        have hnext : ∀ x, x ≤ v + day → reading offset rest x = offset := by
          intro x hx
          cases rest with
          | nil => rfl
          | cons e' rest' =>
            obtain ⟨t', offset'⟩ := e'
            have ht' : t + 2 * day ≤ t' := hrest (t', offset') (by simp)
            exact reading_cons_of_lt htail (by omega)
        rw [reading_cons_of_le hlast, hnext _ (by omega)] at hback
        rw [reading_cons_of_le (by omega), hnext _ (le_refl _)]
        by_cases hut : t ≤ u
        · rw [if_pos hut] at h
          by_cases hnear : u < t + 2 * day
          · rw [lastStep_before fun e he => by
              have hle := hrest e he
              omega] at h
            omega
          · have hle := le_local htail hrest (u := u) (by omega)
            omega
        · omega
      · rw [reading_cons_of_lt hsteady (by omega)] at hback
        omega

namespace ZoneRule

variable (rule : ZoneRule)

def read (v : ℤ) : ℤ := v - rule.zone.wallOffset false v

theorem read_le {v w : ℤ} (h : v + day ≤ w) : rule.read v ≤ rule.read w := (reading_le rule.steady h).1

theorem lt_read {u w : ℤ} (h : u + rule.zone.utcOffset u + day < w) : u < rule.read w := lt_reading rule.steady h

theorem lt_read_next {u v : ℤ} (hback : rule.read (v + (day - 1)) < rule.read v)
    (h : u + rule.zone.utcOffset u ≤ v + (day - 1)) : u < rule.read (v + day) :=
  lt_reading_next rule.steady hback h

/-- `_resolve_local` returns a time that is shown as it is, and moves one in a gap to its end: no earlier than anything read
a day before, and no later than the instant that it was read as. -/
structure Moved (v v' : ℤ) : Prop where
  skipped : occurrence rule.zone v false = none
  later : v < v'
  near : v' ≤ v + day
  back : rule.read v' ≤ rule.read v
  after : ∀ w, w + day ≤ v → rule.read w < rule.read v'

theorem resolveLocal_cases {dateutil : Dateutil} (hd : dateutil.Documented) {v v' : ℤ}
    (h : resolveLocal dateutil rule.zone v = .ok v') :
    (v' = v ∧ occurrence rule.zone v false = some (rule.read v)) ∨ rule.Moved v v' := by
  cases hexists : dateutil.datetimeExists rule.zone v with
  | error err =>
    unfold resolveLocal at h
    rw [hexists] at h
    cases h
  | ok b =>
    obtain ⟨hin, hback⟩ := hd.converts rule.zone v b hexists
    have htrip := hd.roundTrip rule.zone v hin hback
    rw [hexists] at htrip
    cases htrip
    cases hocc : occurrence rule.zone v false with
    | some u =>
      left
      have hv' : v' = v := by
        unfold resolveLocal at h
        rw [hexists, hocc] at h
        cases h
        rfl
      refine ⟨hv', ?_⟩
      unfold occurrence at hocc
      dsimp only at hocc
      split at hocc
      · cases hocc
        rfl
      · cases hocc
    | none =>
      right
      have hgap : ∃ t old new, Forward rule.before rule.transitions t old new ∧ t + old ≤ v ∧ v < t + new := by
        cases reading_shows rule.steady v with
        | inl hshows =>
          have hsome : occurrence rule.zone v false = some (v - rule.zone.wallOffset false v) := by
            unfold occurrence
            dsimp only
            rw [if_pos]
            change v - reading rule.before rule.transitions v +
              lastStep rule.before rule.transitions (v - reading rule.before rule.transitions v) = v
            rw [hshows]
            omega
          rw [hsome] at hocc
          cases hocc
        | inr hgap =>
          obtain ⟨t, new, hforward, hlow, hhigh⟩ := hgap
          exact ⟨t, _, new, hforward, hlow, hhigh⟩
      obtain ⟨t, old, new, hforward, hlow, hhigh⟩ := hgap
      have hg := rule.gap hforward
      rw [hg.resolveLocal_eq hd hlow hhigh] at h
      cases h
      obtain ⟨hend, hnear, -⟩ := hg.shown_end hlow hhigh
      have hshort := hg.short
      have hbefore := hg.readBefore
      have hafter := hg.readAfter _ hend hnear
      have hpos := Gap.seconds_pos hhigh
      have hday : (0 : ℤ) < day := by decide
      obtain ⟨m, hm⟩ := hg.whole
      have hseconds : (Gap.seconds t new v : ℤ) * second ≤ new - old := by
        have hle : Gap.seconds t new v ≤ m.toNat := by
          apply (Gap.seconds_spec hhigh _).mpr
          simp only [second] at *
          omega
        simp only [second] at *
        omega
      have hread : rule.read v = v - old := by
        unfold read
        rw [hbefore v (by omega) hhigh]
      have hread' : rule.read (v + Gap.seconds t new v * second) = v + Gap.seconds t new v * second - new := by
        unfold read
        rw [hafter]
      constructor
      case skipped => exact hocc
      case later =>
        simp only [second]
        omega
      case near => omega
      case back =>
        rw [hread, hread']
        omega
      case after =>
        intro w hw
        rw [hread']
        by_cases hclose : t + old - day ≤ w
        · have hreadw : rule.read w = w - old := by
            unfold read
            rw [hbefore w hclose (by omega)]
          omega
        have hmid := rule.read_le (v := w) (w := t + old - 1) (by omega)
        have hreadm : rule.read (t + old - 1) = t - 1 := by
          unfold read
          rw [hbefore (t + old - 1) (by omega) (by
            have := hg.forward
            omega)]
          omega
        omega

end ZoneRule

end GameLink.Ff14

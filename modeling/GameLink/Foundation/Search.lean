import Mathlib.Data.Nat.Notation

namespace GameLink.Foundation.Search

/-! Searches for the least number that passes a test which may fail to answer. -/

variable {ε : Type}

def Threshold (probe : ℕ → Except ε Bool) (k top : ℕ) : Prop := ∀ i, i ≤ top → probe i = .ok (decide (k ≤ i))

/-- Doubles `upper` until it passes or exceeds the limit; `lower` is the last one that failed. -/
def widen (probe : ℕ → Except ε Bool) (limit lower upper : ℕ) (positive : 0 < upper) : Except ε (ℕ × ℕ) :=
  if upper ≤ limit then
    match probe upper with
    | .ok true => .ok (lower, upper)
    | .ok false => widen probe limit upper (upper * 2) (by omega)
    | .error e => .error e
  else .ok (lower, upper)
termination_by limit + 1 - upper

def narrow (probe : ℕ → Except ε Bool) (lower upper : ℕ) : Except ε ℕ :=
  if 1 < upper - lower then
    match probe ((lower + upper) / 2) with
    | .ok true => narrow probe lower ((lower + upper) / 2)
    | .ok false => narrow probe ((lower + upper) / 2) upper
    | .error e => .error e
  else .ok upper
termination_by upper - lower

def halve (probe : ℕ → Except ε Bool) (low high : ℕ) : Except ε ℕ :=
  if low < high then
    match probe ((low + high) / 2) with
    | .ok true => halve probe low ((low + high) / 2)
    | .ok false => halve probe ((low + high) / 2 + 1) high
    | .error e => .error e
  else .ok low
termination_by high - low

variable {probe : ℕ → Except ε Bool} {k top : ℕ}

section

variable (h : Threshold probe k top)
include h

theorem widen_finds {limit lower upper : ℕ} {positive : 0 < upper} (hlower : lower < k)
    (hupper : upper ≤ 1 ∨ upper ≤ 2 * lower) (hlimit : 1 ≤ limit ∧ 2 * (k - 1) ≤ limit)
    (htop : 1 ≤ top ∧ 2 * (k - 1) ≤ top) :
    ∃ l u, widen probe limit lower upper positive = .ok (l, u) ∧ l < k ∧ k ≤ u ∧ u ≤ limit ∧ u ≤ top := by
  induction lower, upper, positive using widen.induct probe limit with
  | case1 lower upper positive hle hprobe =>
    have hbound : upper ≤ top := by omega
    rw [widen, if_pos hle, hprobe]
    rw [h upper hbound] at hprobe
    simp only [Except.ok.injEq, decide_eq_true_eq] at hprobe
    exact ⟨lower, upper, rfl, hlower, hprobe, hle, hbound⟩
  | case2 lower upper positive hle hprobe ih =>
    have hbound : upper ≤ top := by omega
    rw [widen, if_pos hle, hprobe]
    rw [h upper hbound] at hprobe
    simp only [Except.ok.injEq, decide_eq_false_iff_not] at hprobe
    exact ih (by omega) (by omega)
  | case3 lower upper positive hle e hprobe =>
    have hbound : upper ≤ top := by omega
    rw [h upper hbound] at hprobe
    cases hprobe
  | case4 lower upper positive hle => omega

theorem narrow_finds {lower upper : ℕ} (hlower : lower < k) (hupper : k ≤ upper)
    (htop : upper ≤ top) : narrow probe lower upper = .ok k := by
  induction lower, upper using narrow.induct probe with
  | case1 lower upper hlt hprobe ih =>
    rw [narrow, if_pos hlt, hprobe]
    rw [h _ (by omega)] at hprobe
    simp only [Except.ok.injEq, decide_eq_true_eq] at hprobe
    exact ih hlower hprobe (by omega)
  | case2 lower upper hlt hprobe ih =>
    rw [narrow, if_pos hlt, hprobe]
    rw [h _ (by omega)] at hprobe
    simp only [Except.ok.injEq, decide_eq_false_iff_not] at hprobe
    exact ih (by omega) hupper htop
  | case3 lower upper hlt e hprobe =>
    rw [h _ (by omega)] at hprobe
    cases hprobe
  | case4 lower upper hlt =>
    rw [narrow, if_neg hlt]
    have heq : upper = k := by omega
    rw [heq]

theorem halve_finds {low high : ℕ} (hlow : low ≤ k) (hhigh : k ≤ high) (htop : high ≤ top) :
    halve probe low high = .ok k := by
  induction low, high using halve.induct probe with
  | case1 low high hlt hprobe ih =>
    rw [halve, if_pos hlt, hprobe]
    rw [h _ (by omega)] at hprobe
    simp only [Except.ok.injEq, decide_eq_true_eq] at hprobe
    exact ih hlow hprobe (by omega)
  | case2 low high hlt hprobe ih =>
    rw [halve, if_pos hlt, hprobe]
    rw [h _ (by omega)] at hprobe
    simp only [Except.ok.injEq, decide_eq_false_iff_not] at hprobe
    exact ih (by omega) hhigh htop
  | case3 low high hlt e hprobe =>
    rw [h _ (by omega)] at hprobe
    cases hprobe
  | case4 low high hlt =>
    rw [halve, if_neg hlt]
    have heq : low = k := by omega
    rw [heq]

end

end GameLink.Foundation.Search

import Mathlib.Data.List.DropRight
import Mathlib.Data.Int.Interval
import Mathlib.Order.Interval.Finset.Nat

namespace GameLink.Foundation

/-! A memory of the last `n` of a sequence of values that never go back by much. -/

variable {α : Type}

theorem rtake_append_singleton (l : List α) (a : α) (n : ℕ) : (l.rtake n ++ [a]).rtake n = (l ++ [a]).rtake n := by
  simp only [List.rtake, List.length_append, List.length_drop, List.length_singleton, List.drop_append, List.drop_drop]
  congr 2
  all_goals omega

theorem rtake_sublist (l : List α) (n : ℕ) : (l.rtake n).Sublist l := by
  simp only [List.rtake]
  exact List.drop_sublist _ _

theorem length_rtake_le (l : List α) (n : ℕ) : (l.rtake n).length ≤ n := by
  simp only [List.rtake, List.length_drop]
  omega

theorem rtake_of_length_le {l : List α} {n : ℕ} (h : l.length ≤ n) : l.rtake n = l := by
  simp only [List.rtake]
  rw [Nat.sub_eq_zero_of_le h, List.drop_zero]

/-- Values, measured by `f`, that come one after the other without going back by more than `k`. -/
def Advancing (f : α → ℤ) (k : ℕ) (l : List α) : Prop := l.Pairwise fun a b => f a ≤ f b + k

theorem length_near {f : α → ℤ} (hf : f.Injective) {k : ℕ} {c : α} {l : List α} (hnodup : l.Nodup) (hc : c ∉ l)
    (hnear : ∀ a ∈ l, f c - k ≤ f a ∧ f a ≤ f c + k) : l.length ≤ 2 * k := by
  have hcount : (c :: l).length ≤ (Finset.Icc (f c - k) (f c + k)).card := by
    rw [← List.length_map f, ← List.toFinset_card_of_nodup ((List.nodup_cons.mpr ⟨hc, hnodup⟩).map hf)]
    apply Finset.card_le_card
    intro x hx
    obtain ⟨a, ha, rfl⟩ := List.mem_map.mp (List.mem_toFinset.mp hx)
    rw [Finset.mem_Icc]
    cases List.mem_cons.mp ha with
    | inl h => subst h; omega
    | inr h => exact hnear a h
  rw [Int.card_Icc, List.length_cons] at hcount
  omega

theorem mem_rtake_iff {f : α → ℤ} (hf : f.Injective) {k n : ℕ} (hn : 2 * k < n) {c : α} {l : List α}
    (hnodup : l.Nodup) (hadvancing : Advancing f k l) (hc : ∀ a ∈ l, f a ≤ f c + k) :
    c ∈ l.rtake n ↔ c ∈ l := by
  constructor
  · intro h
    exact (rtake_sublist l n).subset h
  intro h
  obtain ⟨earlier, later, rfl⟩ := List.append_of_mem h
  have hnodup' := List.nodup_append'.mp hnodup
  obtain ⟨hnot, hlater⟩ := List.nodup_cons.mp hnodup'.2.1
  have hshort : later.length ≤ 2 * k := by
    apply length_near hf hlater hnot
    intro a ha
    have hback := List.rel_of_pairwise_cons (List.pairwise_append.mp hadvancing).2.1 ha
    have hbound := hc a (List.mem_append_right _ (List.mem_cons_of_mem _ ha))
    omega
  simp only [List.rtake, List.length_append, List.length_cons]
  rw [List.drop_append_of_le_length (by omega)]
  exact List.mem_append_right _ List.mem_cons_self

theorem append_singleton_cases {l pre post : List α} {a b : α} (h : l ++ [a] = pre ++ b :: post) :
    (pre = l ∧ b = a ∧ post = []) ∨ ∃ post', post = post' ++ [a] ∧ l = pre ++ b :: post' := by
  cases post.eq_nil_or_concat with
  | inl hnil =>
    subst hnil
    obtain ⟨rfl, hlast⟩ := List.append_inj' h rfl
    cases hlast
    exact .inl ⟨rfl, rfl, rfl⟩
  | inr hmore =>
    obtain ⟨post', c, rfl⟩ := hmore
    rw [List.concat_eq_append, ← List.cons_append, ← List.append_assoc] at h
    obtain ⟨rfl, hlast⟩ := List.append_inj' h rfl
    cases hlast
    exact .inr ⟨post', List.concat_eq_append .., rfl⟩

end GameLink.Foundation

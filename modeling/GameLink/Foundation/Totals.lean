import GameLink.Foundation.Table
import Mathlib.Algebra.GroupWithZero.Nat

namespace GameLink.Foundation.Table

/-! The sum of a measure over the rows that meet a condition. -/

variable {ρ κ : Type} {key : ρ → κ}

def total (t : Table key) (p : ρ → Bool) (f : ρ → ℕ) : ℕ := ((t.rows.filter p).map f).sum

theorem total_update (t : Table key) (p q : ρ → Bool) (f : ρ → ℕ) (g : ρ → ρ) (hg : ∀ r, key (g r) = key r)
    (hp : ∀ r, p (g r) = p r) (hf : ∀ r, f (g r) = f r) : (t.update q g hg).total p f = t.total p f := by
  have hrow : ∀ r, p (if q r then g r else r) = p r ∧ f (if q r then g r else r) = f r := by
    intro r
    split
    · exact ⟨hp r, hf r⟩
    · exact ⟨rfl, rfl⟩
  have hlist : ∀ l : List ρ, (((l.map fun r => if q r then g r else r).filter p).map f).sum = ((l.filter p).map f).sum := by
    intro l
    induction l with
    | nil => rfl
    | cons r l ih =>
      rw [List.map_cons, List.filter_cons, List.filter_cons, (hrow r).1]
      split
      · rw [List.map_cons, List.map_cons, List.sum_cons, List.sum_cons, ih, (hrow r).2]
      · exact ih
  exact hlist t.rows

theorem delete_comm (t : Table key) (p q : ρ → Bool) : (t.delete p).delete q = (t.delete q).delete p := by
  apply ext
  simp only [delete, List.filter_filter, Bool.and_comm]

variable [DecidableEq κ]

theorem total_split (t : Table key) (p : ρ → Bool) (f : ρ → ℕ) (k : κ) :
    t.total p f = (t.delete fun r => decide (key r = k)).total p f +
      (t.get k).elim 0 fun r => if p r then f r else 0 := by
  have hlist : ∀ l : List ρ, (l.map key).Nodup → ((l.filter p).map f).sum =
      (((l.filter fun r => !decide (key r = k)).filter p).map f).sum +
        (l.find? fun r => key r = k).elim 0 fun r => if p r then f r else 0 := by
    intro l hl
    induction l with
    | nil => rfl
    | cons r l ih =>
      rw [List.map_cons, List.nodup_cons] at hl
      by_cases hk : key r = k
      · have hrest : ((r :: l).filter fun r => !decide (key r = k)) = l := by
          rw [List.filter_cons_of_neg (by simp [hk]), List.filter_eq_self]
          intro r' hr'
          have hne : key r' ≠ k := by
            rintro rfl
            exact hl.1 (hk ▸ List.mem_map_of_mem hr')
          simp [hne]
        rw [hrest, List.find?_cons_of_pos (by simp [hk]), List.filter_cons]
        split
        · rename_i hp
          simp [hp, Nat.add_comm]
        · rename_i hp
          simp [hp]
      · have hrest : ((r :: l).filter fun r => !decide (key r = k)) = r :: l.filter fun r => !decide (key r = k) :=
          List.filter_cons_of_pos (by simp [hk])
        rw [hrest, List.find?_cons_of_neg (by simp [hk]), List.filter_cons, List.filter_cons]
        split
        · rw [List.map_cons, List.map_cons, List.sum_cons, List.sum_cons, ih hl.2, Nat.add_assoc]
        · exact ih hl.2
  exact hlist t.rows t.unique

theorem total_replace (t : Table key) (p : ρ → Bool) (f : ρ → ℕ) (r : ρ) :
    (t.replace r).total p f = (t.delete fun r' => decide (key r' = key r)).total p f + if p r then f r else 0 := by
  have hrest : (t.rows.filter fun r' => decide (key r' ≠ key r)) =
      t.rows.filter fun r' => !decide (key r' = key r) := by simp
  rw [total, total, replace, delete, List.filter_append, List.map_append, List.sum_append, hrest, List.filter_singleton]
  split
  · rename_i hp
    simp [hp]
  · rename_i hp
    simp [hp]

theorem total_delete_other (t : Table key) (p : ρ → Bool) (f : ρ → ℕ) {k k' : κ} {r : ρ} (hne : k' ≠ k)
    (hr : t.get k' = some r) (hp : p r = true) :
    ((t.delete fun r => decide (key r = k')).delete fun r => decide (key r = k)).total p f + f r =
      (t.delete fun r => decide (key r = k)).total p f := by
  have hget : (t.delete fun r => decide (key r = k)).get k' = some r := by
    rw [get_delete_other hne fun r hr => of_decide_eq_true hr]
    exact hr
  rw [delete_comm, total_split (t.delete fun r => decide (key r = k)) p f k', hget, Option.elim_some, if_pos hp]

end GameLink.Foundation.Table

import Mathlib.Data.List.Basic

namespace GameLink.Foundation

variable {α γ : Type} [DecidableEq γ]

structure Quota (total share : ℕ) (group : α → γ) (pool : List α) : Prop where
  all : pool.length ≤ total
  each : ∀ g, (pool.filter fun a => decide (group a = g)).length ≤ share

namespace Quota

variable {total share : ℕ} {group group' : α → γ} {pool pool' : List α} {a : α}

theorem nil : Quota total share group [] where
  all := Nat.zero_le _
  each _ := Nat.zero_le _

section

variable (h : Quota total share group pool)
include h

theorem admitted (hroom : pool.length < total)
    (hshare : (pool.filter fun b => decide (group b = group a)).length < share) :
    Quota total share group (pool ++ [a]) where
  all := by
    rw [List.length_append]
    exact hroom
  each g := by
    rw [List.filter_append, List.length_append]
    by_cases hg : group a = g
    · subst hg
      rw [List.filter_singleton, decide_eq_true rfl]
      exact hshare
    · rw [List.filter_cons_of_neg (by simpa using hg)]
      exact h.each g

theorem sublist (hsub : pool'.Sublist pool) : Quota total share group pool' where
  all := Nat.le_trans hsub.length_le h.all
  each g := Nat.le_trans (hsub.filter _).length_le (h.each g)

theorem congr (hsame : ∀ a ∈ pool, group' a = group a) :
    Quota total share group' pool where
  all := h.all
  each g := by
    have heq : (pool.filter fun a => decide (group' a = g)) = pool.filter fun a => decide (group a = g) := by
      apply List.filter_congr
      intro a ha
      rw [hsame a ha]
    rw [heq]
    exact h.each g

end

end Quota

end GameLink.Foundation

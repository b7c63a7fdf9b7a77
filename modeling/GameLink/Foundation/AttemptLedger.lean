import Mathlib.Logic.Relation
import Mathlib.Data.List.Basic

namespace GameLink.Foundation

structure LedgerReading (α : Type) where
  number : α → ℕ
  inFlight : α → Prop
  failed : α → Prop

namespace LedgerReading

variable {α : Type} (R : LedgerReading α)

inductive Move (l : List α) : List α → Prop
  | keep : Move l l
  | settle (prior : List α) (a b : α) (hl : l = prior ++ [a]) (ha : R.inFlight a)
      (hn : R.number b = R.number a) : Move l (prior ++ [b])
  | begin (a : α) (hn : R.number a = l.length + 1) (hl : ∀ b ∈ l.getLast?, R.failed b) : Move l (l ++ [a])

def Numbered (l : List α) : Prop := ∀ i (h : i < l.length), R.number l[i] = i + 1

def Settled (l : List α) : Prop := ∀ i (h : i + 1 < l.length), R.failed l[i]

variable {R} {l m : List α}

section

variable (h : R.Move l m)
include h

theorem Move.numbered (hl : R.Numbered l) : R.Numbered m := by
  cases h with
  | keep => exact hl
  | settle prior a b he ha hn =>
    subst he
    intro i hi
    have hlen : i < (prior ++ [a]).length := by simpa using hi
    have hold := hl i hlen
    by_cases hp : i < prior.length
    · rwa [List.getElem_append_left hp] at hold ⊢
    have heq : i = prior.length := by simp at hi; omega
    subst heq
    simp only [List.getElem_concat_length] at hold ⊢
    exact hn.trans hold
  | begin a hn hlast =>
    intro i hi
    by_cases hp : i < l.length
    · rw [List.getElem_append_left hp]
      exact hl i hp
    have heq : i = l.length := by simp at hi; omega
    subst heq
    simpa using hn

theorem Move.settled (hl : R.Settled l) : R.Settled m := by
  cases h with
  | keep => exact hl
  | settle prior a b he ha hn =>
    subst he
    intro i hi
    have hp : i < prior.length := by simpa using hi
    have hold := hl i (by simpa using hi)
    rwa [List.getElem_append_left hp] at hold ⊢
  | begin a hn hlast =>
    intro i hi
    have hp : i < l.length := by simpa using hi
    rw [List.getElem_append_left hp]
    by_cases hnext : i + 1 < l.length
    · exact hl i hnext
    have heq : i = l.length - 1 := by omega
    have hne : l ≠ [] := by
      rintro rfl
      exact absurd hp (Nat.not_lt_zero _)
    have hmem : l[i] ∈ l.getLast? := by
      rw [List.getLast?_eq_getElem?, ← heq, List.getElem?_eq_getElem hp]
      rfl
    exact hlast _ hmem

theorem Move.earlier {i : ℕ} (hi : i + 1 < l.length) : m[i]? = l[i]? := by
  cases h with
  | keep => rfl
  | settle prior a b he ha hn =>
    subst he
    have hp : i < prior.length := by simpa using hi
    rw [List.getElem?_append_left hp, List.getElem?_append_left hp]
  | begin a hn hlast => rw [List.getElem?_append_left (by omega)]

theorem Move.length_le : l.length ≤ m.length := by
  cases h with
  | keep => exact Nat.le_refl _
  | settle prior a b he ha hn => subst he; simp
  | begin a hn hlast => simp

end

def Moves (R : LedgerReading α) : List α → List α → Prop := Relation.ReflTransGen R.Move

section

variable (h : R.Moves l m)
include h

theorem Moves.length_le : l.length ≤ m.length := by
  induction h with
  | refl => exact Nat.le_refl _
  | tail _ hm ih => exact Nat.le_trans ih hm.length_le

theorem Moves.earlier {i : ℕ} (hi : i + 1 < l.length) : m[i]? = l[i]? := by
  induction h with
  | refl => rfl
  | tail hs hm ih => rw [hm.earlier (by have := Moves.length_le hs; omega), ih]

end

end LedgerReading

end GameLink.Foundation

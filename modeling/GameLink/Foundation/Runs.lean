import Mathlib.Logic.Relation

namespace GameLink.Foundation

-- Under a name, so that every module decides membership among pairs of names by the same term.
theorem lawfulBEq_names : LawfulBEq (String × String) := inferInstance

variable {σ α : Type}

structure System (σ α : Type) where
  start : σ → Prop
  allowed : σ → α → Prop
  next : σ → α → σ

namespace System

variable (S : System σ α)

/-- `S.Trace s as t`: taking the actions `as` in order, each allowed where it is taken, leads from `s` to `t`. -/
inductive Trace : σ → List α → σ → Prop
  | nil (s : σ) : Trace s [] s
  | cons {s t : σ} {a : α} {as : List α} (ha : S.allowed s a) (h : Trace (S.next s a) as t) :
      Trace s (a :: as) t

def Reachable (s : σ) : Prop := ∃ s₀ as, S.start s₀ ∧ S.Trace s₀ as s

variable {S}

theorem Trace.append {s t u : σ} {as bs : List α} (h : S.Trace s as t) (h' : S.Trace t bs u) :
    S.Trace s (as ++ bs) u := by
  induction h with
  | nil s => exact h'
  | cons ha h ih => exact .cons ha (ih h')

variable {as : List α}

theorem Trace.eq_foldl {s t : σ} (h : S.Trace s as t) : t = as.foldl S.next s := by
  induction h with
  | nil s => rfl
  | cons ha h ih => exact ih

theorem Trace.single {s : σ} {a : α} (ha : S.allowed s a) : S.Trace s [a] (S.next s a) :=
  .cons ha (.nil _)

theorem Trace.of_always (h : ∀ a ∈ as, ∀ s, S.allowed s a) (s : σ) : S.Trace s as (as.foldl S.next s) := by
  induction as generalizing s with
  | nil => exact .nil s
  | cons a as ih =>
    exact .cons (h a List.mem_cons_self s) (ih (fun b hb => h b (List.mem_cons_of_mem _ hb)) (S.next s a))

def checked (next : σ → α → σ) (check : σ → α → Bool) : σ → List α → Bool
  | _, [] => true
  | s, a :: as => check s a && checked next check (next s a) as

/-- The runs from a state whose steps all pass a check. -/
abbrev CheckedRun (next : σ → α → σ) (check : σ → α → Bool) (s : σ) : Type _ :=
  {as : List α // checked next check s as = true}

theorem Trace.of_checked {check : σ → α → Bool} (hc : ∀ s a, check s a = true → S.allowed s a) {s : σ}
    (h : checked S.next check s as = true) : S.Trace s as (as.foldl S.next s) := by
  induction as generalizing s with
  | nil => exact .nil s
  | cons a as ih =>
    rw [checked, Bool.and_eq_true] at h
    exact .cons (hc s a h.1) (ih h.2)

theorem Trace.split {s u : σ} {as bs : List α} (h : S.Trace s (as ++ bs) u) :
    ∃ t, S.Trace s as t ∧ S.Trace t bs u := by
  induction as generalizing s with
  | nil => exact ⟨s, .nil s, h⟩
  | cons a as ih =>
    cases h with
    | cons ha h =>
      obtain ⟨t, hs, ht⟩ := ih h
      exact ⟨t, .cons ha hs, ht⟩

theorem Reachable.of_start {s : σ} (h : S.start s) : S.Reachable s := ⟨s, [], h, .nil s⟩

theorem Reachable.trace {s t : σ} (hs : S.Reachable s) (h : S.Trace s as t) : S.Reachable t := by
  obtain ⟨s₀, bs, h₀, hb⟩ := hs
  exact ⟨s₀, bs ++ as, h₀, hb.append h⟩

theorem Reachable.next {s : σ} (hs : S.Reachable s) (a : α) (ha : S.allowed s a) :
    S.Reachable (S.next s a) := hs.trace (.single ha)

theorem Trace.invariant {P : σ → Prop} (hstep : ∀ s a, P s → S.allowed s a → P (S.next s a)) {s t : σ}
    (hp : P s) (h : S.Trace s as t) : P t := by
  induction h with
  | nil s => exact hp
  | cons ha h ih => exact ih (hstep _ _ hp ha)

theorem Reachable.invariant {P : σ → Prop} (hstart : ∀ s, S.start s → P s)
    (hstep : ∀ s a, P s → S.allowed s a → P (S.next s a)) {s : σ} (hs : S.Reachable s) : P s := by
  obtain ⟨s₀, as, h₀, h⟩ := hs
  exact h.invariant hstep (hstart s₀ h₀)

theorem Trace.relates {P : σ → Prop} {R : σ → σ → Prop} (hrefl : ∀ s, R s s) (htrans : ∀ s t u, R s t → R t u → R s u)
    (hstep : ∀ s a, P s → S.allowed s a → P (S.next s a) ∧ R s (S.next s a))
    {s t : σ} (hp : P s) (h : S.Trace s as t) : R s t := by
  induction h with
  | nil s => exact hrefl s
  | cons ha h ih =>
    obtain ⟨hp', hr⟩ := hstep _ _ hp ha
    exact htrans _ _ _ hr (ih hp')

def inside (S : System σ α) (P : σ → Prop) : System σ α where
  start := S.start
  allowed s a := S.allowed s a ∧ P (S.next s a)
  next := S.next

end System

end GameLink.Foundation

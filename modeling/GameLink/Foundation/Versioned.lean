import GameLink.Foundation.Runs
import Mathlib.Data.Nat.Notation
import Mathlib.Logic.Function.Basic

namespace GameLink.Foundation

/-! Records under a revision that every write raises, written by compare and swap. -/

variable {κ V : Type}

structure Versioned (V : Type) where
  revision : ℕ
  value : V
  deriving DecidableEq

abbrev Records (κ V : Type) := κ → Option (Versioned V)

namespace Records

section

variable [DecidableEq κ]

def create (s : Records κ V) (k : κ) (v : V) : Option (Records κ V) :=
  match s k with
  | none => some (Function.update s k (some ⟨1, v⟩))
  | some _ => none

def replace (s : Records κ V) (k : κ) (v : V) (expected : ℕ) : Option (Records κ V) :=
  match s k with
  | none => none
  | some r => if r.revision = expected then some (Function.update s k (some ⟨expected + 1, v⟩)) else none

end

/-- The record was `r`, and is `r` as long as its revision is that of `r`. -/
def Held (s : Records κ V) (k : κ) (r : Versioned V) : Prop :=
  ∃ r', s k = some r' ∧ (r' = r ∨ r.revision < r'.revision)

def Advances (s s' : Records κ V) : Prop := ∀ k r, s k = some r → s'.Held k r

theorem Held.current {s : Records κ V} {k : κ} {r r' : Versioned V} (h : s.Held k r) (hr' : s k = some r')
    (hrevision : r'.revision ≤ r.revision) : r' = r := by
  obtain ⟨r'', hr'', hlater⟩ := h
  rw [hr'] at hr''
  cases hr''
  cases hlater with
  | inl heq => exact heq
  | inr hlt => omega

theorem Held.exists {s : Records κ V} {k : κ} {r : Versioned V} (h : s.Held k r) :
    ∃ r', s k = some r' ∧ r.revision ≤ r'.revision := by
  obtain ⟨r', hr', hlater⟩ := h
  refine ⟨r', hr', ?_⟩
  cases hlater with
  | inl heq => subst heq; exact Nat.le_refl _
  | inr hlt => omega

theorem held_of_eq {s : Records κ V} {k : κ} {r : Versioned V} (h : s k = some r) : s.Held k r := ⟨r, h, .inl rfl⟩

variable {s s' : Records κ V}

theorem Held.advances {k : κ} {r : Versioned V} (h : s.Held k r) (hs : s.Advances s') : s'.Held k r := by
  obtain ⟨r', hr', hlater⟩ := h
  obtain ⟨r'', hr'', hlater'⟩ := hs k r' hr'
  refine ⟨r'', hr'', ?_⟩
  cases hlater with
  | inl heq => subst heq; exact hlater'
  | inr hlt =>
    right
    cases hlater' with
    | inl heq => rwa [heq]
    | inr hlt' => omega

theorem Advances.refl (s : Records κ V) : s.Advances s := fun _ _ => held_of_eq

variable [DecidableEq κ]

theorem create_eq_some {k : κ} {v : V} (h : s.create k v = some s') :
    s k = none ∧ s' = Function.update s k (some ⟨1, v⟩) := by
  unfold create at h
  split at h
  · rename_i hk
    exact ⟨hk, (Option.some.inj h).symm⟩
  · cases h

theorem replace_eq_some {k : κ} {v : V} {expected : ℕ} (h : s.replace k v expected = some s') :
    (∃ r, s k = some r ∧ r.revision = expected) ∧ s' = Function.update s k (some ⟨expected + 1, v⟩) := by
  unfold replace at h
  split at h
  · cases h
  rename_i r hr
  split at h
  · rename_i hrevision
    exact ⟨⟨r, hr, hrevision⟩, (Option.some.inj h).symm⟩
  · cases h

theorem create_advances {k : κ} {v : V} (h : s.create k v = some s') : s.Advances s' := by
  obtain ⟨hk, rfl⟩ := create_eq_some h
  intro j r hr
  have hj : j ≠ k := by
    rintro rfl
    rw [hk] at hr
    cases hr
  exact held_of_eq (by rw [Function.update_of_ne hj]; exact hr)

theorem replace_advances {k : κ} {v : V} {expected : ℕ} (h : s.replace k v expected = some s') : s.Advances s' := by
  obtain ⟨⟨r', hr', hrevision⟩, rfl⟩ := replace_eq_some h
  intro j r hr
  by_cases hj : j = k
  · subst hj
    rw [hr'] at hr
    cases hr
    refine ⟨⟨expected + 1, v⟩, Function.update_self .., .inr ?_⟩
    change r'.revision < expected + 1
    omega
  · exact held_of_eq (by rw [Function.update_of_ne hj]; exact hr)

end Records

inductive Turn : Option (Versioned V) → Option (Versioned V) → Prop
  | kept (x : Option (Versioned V)) : Turn x x
  | created (v : V) : Turn none (some ⟨1, v⟩)
  | replaced (r : Versioned V) (v : V) : Turn (some r) (some ⟨r.revision + 1, v⟩)
  | removed (r : Versioned V) : Turn (some r) none

theorem Turn.later {x : Option (Versioned V)} {r r' : Versioned V} (h : Turn x (some r')) (hx : x = some r) :
    r' = r ∨ r.revision < r'.revision := by
  cases h with
  | kept => exact .inl (Option.some.inj hx)
  | created v => cases hx
  | replaced r v =>
    obtain rfl := Option.some.inj hx
    exact .inr (Nat.lt_succ_self _)

theorem Turn.positive {x y : Option (Versioned V)} (h : Turn x y) (hx : ∀ r, x = some r → 1 ≤ r.revision) :
    ∀ r, y = some r → 1 ≤ r.revision := by
  intro r hr
  cases h with
  | kept => exact hx r hr
  | created v =>
    obtain rfl := Option.some.inj hr
    exact Nat.le_refl 1
  | replaced r' v =>
    obtain rfl := Option.some.inj hr
    exact Nat.succ_pos _
  | removed r' => cases hr

theorem Turn.run {σ α : Type} {S : System σ α} {I : σ → Prop} {view : σ → Option (Versioned V)}
    (hinvariant : ∀ s a, I s → S.allowed s a → I (S.next s a))
    (hturn : ∀ s a, I s → S.allowed s a → Turn (view s) (view (S.next s a))) {s t : σ} {as : List α} (hs : I s)
    (h : (S.inside fun u => view u ≠ none).Trace s as t) {r : Versioned V} (hr : view s = some r) :
    ∃ r', view t = some r' ∧ (r' = r ∨ r.revision < r'.revision) := by
  induction h generalizing r with
  | nil s => exact ⟨r, hr, .inl rfl⟩
  | @cons s t a as ha h ih =>
    obtain ⟨r', hr'⟩ := Option.ne_none_iff_exists'.mp ha.2
    have hstep := hturn s a hs ha.1
    rw [hr'] at hstep
    obtain ⟨r'', hr'', hlater⟩ := ih (hinvariant s a hs ha.1) hr'
    refine ⟨r'', hr'', ?_⟩
    rcases hstep.later hr with rfl | hlt
    · exact hlater
    rcases hlater with rfl | hlt'
    · exact .inr hlt
    · exact .inr (Nat.lt_trans hlt hlt')

theorem Turn.one_version {σ α : Type} {S : System σ α} {I : σ → Prop} {view : σ → Option (Versioned V)}
    (hinvariant : ∀ s a, I s → S.allowed s a → I (S.next s a))
    (hturn : ∀ s a, I s → S.allowed s a → Turn (view s) (view (S.next s a))) {s t : σ} {as : List α} (hs : I s)
    (h : (S.inside fun u => view u ≠ none).Trace s as t) {r r' : Versioned V} (hr : view s = some r)
    (hr' : view t = some r') (hrevision : r'.revision = r.revision) : r' = r := by
  obtain ⟨r'', hr'', hlater⟩ := Turn.run hinvariant hturn hs h hr
  obtain rfl := Option.some.inj (hr''.symm.trans hr')
  rcases hlater with heq | hlt
  · exact heq
  · omega

end GameLink.Foundation

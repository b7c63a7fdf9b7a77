import GameLink.Foundation.Table
import Mathlib.Algebra.GroupWithZero.Nat

namespace GameLink.Foundation

/-! A dictionary from parents to the sets of their children, and the sweep that takes out a node and all below it. -/

variable {κ : Type}

structure Brood (κ : Type) where
  parent : κ
  members : List κ

abbrev Broods (κ : Type) := Table (Brood.parent : Brood κ → κ)

namespace Broods

variable [DecidableEq κ]

def members (t : Broods κ) (k : κ) : List κ := (t.get k).elim [] Brood.members

def pop (t : Broods κ) (parent : κ) : Broods κ := t.delete fun b => decide (b.parent = parent)

def adopt (t : Broods κ) (parent child : κ) : Broods κ := t.replace ⟨parent, (members t parent).insert child⟩

def disown (t : Broods κ) (parent child : κ) : Broods κ :=
  match t.get parent with
  | none => t
  | some b =>
    if b.members.filter (fun c => decide (c ≠ child)) = [] then pop t parent
    else t.replace ⟨parent, b.members.filter fun c => decide (c ≠ child)⟩

def sweep : ℕ → List κ → List κ → Broods κ → Option (List κ × Broods κ)
  | _, [], removed, t => some (removed, t)
  | 0, _ :: _, _, _ => none
  | n + 1, k :: pending, removed, t =>
    if k ∈ removed then sweep n pending removed t
    else sweep n (members t k ++ pending) (removed ++ [k]) (pop t k)

def size (t : Broods κ) : ℕ := (t.rows.map fun b => b.members.length).sum

def Below (t : Broods κ) : κ → κ → Prop := Relation.ReflTransGen fun a b => b ∈ members t a

section

variable {t t' : Broods κ} {k parent child c : κ}

theorem members_of_none (h : t.get k = none) : members t k = [] := by rw [members, h]; rfl

theorem get_pop : (pop t parent).get k = if k = parent then none else t.get k := by
  have hpop : pop t parent = t.delete fun b => decide (b.parent ∈ [parent]) := by simp [pop]
  rw [hpop, Table.get_delete_keys]
  simp only [List.mem_singleton]

theorem members_pop : members (pop t parent) k = if k = parent then [] else members t k := by
  rw [members, get_pop]
  by_cases hk : k = parent
  · rw [if_pos hk, if_pos hk]
    rfl
  · rw [if_neg hk, if_neg hk]
    rfl

theorem get_adopt : (adopt t parent child).get k =
    if k = parent then some ⟨parent, (members t parent).insert child⟩ else t.get k := by
  rw [adopt, Table.get_replace]
  by_cases hk : k = parent
  · rw [if_pos hk, if_pos hk.symm]
  · rw [if_neg hk, if_neg (Ne.symm hk)]

theorem mem_adopt : c ∈ members (adopt t parent child) k ↔ c ∈ members t k ∨ (k = parent ∧ c = child) := by
  rw [members, get_adopt]
  by_cases hk : k = parent
  · subst hk
    simp only [↓reduceIte, Option.elim_some, List.mem_insert_iff, true_and]
    exact or_comm
  · simp only [hk, ↓reduceIte, false_and, or_false]
    rfl

theorem get_disown_of_ne (hk : k ≠ parent) : (disown t parent child).get k = t.get k := by
  unfold disown
  split
  · rfl
  split
  · rw [get_pop, if_neg hk]
  · rw [Table.get_replace, if_neg (Ne.symm hk)]

theorem mem_disown : c ∈ members (disown t parent child) k ↔ c ∈ members t k ∧ ¬ (k = parent ∧ c = child) := by
  by_cases hk : k = parent
  · subst hk
    cases hget : t.get k with
    | none => simp [disown, hget, members_of_none hget]
    | some b =>
      have hb : members t k = b.members := by rw [members, hget]; rfl
      rw [disown, hget, hb]
      dsimp only
      split
      · rename_i hnone
        rw [members_pop, if_pos rfl]
        have hall := List.filter_eq_nil_iff.mp hnone
        constructor
        · intro h
          cases h
        rintro ⟨hc, hne⟩
        simp only [true_and] at hne
        exact absurd (decide_eq_true hne) (hall c hc)
      · rw [members, Table.get_replace, if_pos rfl, Option.elim_some, List.mem_filter, decide_eq_true_eq]
        simp
  · rw [members, get_disown_of_ne hk]
    simp [hk, members]

theorem get_disown_some {b : Brood κ} (h : (disown t parent child).get k = some b)
    (ht : ∀ k b, t.get k = some b → b.members ≠ []) : b.members ≠ [] := by
  by_cases hk : k = parent
  · subst hk
    unfold disown at h
    split at h
    · exact ht k b h
    split at h
    · rw [get_pop, if_pos rfl] at h
      cases h
    rename_i hne
    rw [Table.get_replace, if_pos rfl] at h
    obtain rfl := Option.some.inj h
    exact hne
  · rw [get_disown_of_ne hk] at h
    exact ht k b h

theorem size_pop : size (pop t k) + (members t k).length = size t := by
  obtain ⟨rows, unique⟩ := t
  simp only [size, pop, members, Table.get, Table.delete]
  induction rows with
  | nil => rfl
  | cons b rows ih =>
    rw [List.map_cons] at unique
    obtain ⟨hnot, hrest⟩ := List.nodup_cons.mp unique
    by_cases hk : b.parent = k
    · have hkept : rows.filter (fun r => !decide (r.parent = k)) = rows := by
        apply List.filter_eq_self.mpr
        intro r hr
        have hne : r.parent ≠ k := fun h => hnot (List.mem_map.mpr ⟨r, hr, h.trans hk.symm⟩)
        simp [hne]
      simp only [List.filter_cons, List.find?_cons, hk, decide_true, Bool.not_true, Bool.false_eq_true, ↓reduceIte,
        hkept, Option.elim_some, List.map_cons, List.sum_cons]
      omega
    · have hih := ih hrest
      simp only [List.filter_cons, List.find?_cons, hk, decide_false, Bool.not_false, ↓reduceIte, List.map_cons,
        List.sum_cons]
      omega

end

structure Sweeping (t₀ : Broods κ) (root : κ) (pending removed : List κ) (t : Broods κ) : Prop where
  below : ∀ k, k ∈ removed ∨ k ∈ pending → Below t₀ root k
  root : root ∈ removed ∨ root ∈ pending
  closed : ∀ k ∈ removed, ∀ c ∈ members t₀ k, c ∈ removed ∨ c ∈ pending
  rest : ∀ k, t.get k = if k ∈ removed then none else t₀.get k

variable {t₀ t t' : Broods κ} {root k : κ} {pending removed removed' : List κ}

theorem Sweeping.start (t₀ : Broods κ) (root : κ) : Sweeping t₀ root [root] [] t₀ where
  below k h := by
    rcases h with h | h
    · cases h
    · rw [List.mem_singleton.mp h]
      exact .refl
  root := .inr List.mem_cons_self
  closed k h := by cases h
  rest k := by simp

theorem Sweeping.skip (h : Sweeping t₀ root (k :: pending) removed t) (hk : k ∈ removed) :
    Sweeping t₀ root pending removed t where
  below c hc := h.below c (hc.imp id (List.mem_cons_of_mem k))
  root := by
    rcases h.root with hroot | hroot
    · exact .inl hroot
    rcases List.mem_cons.mp hroot with rfl | hroot
    · exact .inl hk
    · exact .inr hroot
  closed a ha c hc := by
    rcases h.closed a ha c hc with hc | hc
    · exact .inl hc
    rcases List.mem_cons.mp hc with rfl | hc
    · exact .inl hk
    · exact .inr hc
  rest := h.rest

theorem Sweeping.members (h : Sweeping t₀ root pending removed t) (hk : k ∉ removed) :
    members t k = members t₀ k := by
  rw [Broods.members, h.rest, if_neg hk]
  rfl

theorem Sweeping.take (h : Sweeping t₀ root (k :: pending) removed t) (hk : k ∉ removed) :
    Sweeping t₀ root (Broods.members t k ++ pending) (removed ++ [k]) (pop t k) where
  below c hc := by
    simp only [List.mem_append, List.mem_singleton] at hc
    rcases hc with (hc | rfl) | hc | hc
    · exact h.below c (.inl hc)
    · exact h.below c (.inr List.mem_cons_self)
    · rw [h.members hk] at hc
      exact (h.below k (.inr List.mem_cons_self)).tail hc
    · exact h.below c (.inr (List.mem_cons_of_mem k hc))
  root := by
    simp only [List.mem_append, List.mem_singleton]
    rcases h.root with hroot | hroot
    · exact .inl (.inl hroot)
    rcases List.mem_cons.mp hroot with hroot | hroot
    · exact .inl (.inr hroot)
    · exact .inr (.inr hroot)
  closed a ha c hc := by
    simp only [List.mem_append, List.mem_singleton] at ha ⊢
    rcases ha with ha | rfl
    · rcases h.closed a ha c hc with hc | hc
      · exact .inl (.inl hc)
      rcases List.mem_cons.mp hc with hc | hc
      · exact .inl (.inr hc)
      · exact .inr (.inr hc)
    · rw [← h.members hk] at hc
      exact .inr (.inl hc)
  rest c := by
    rw [get_pop, h.rest]
    simp only [List.mem_append, List.mem_singleton]
    by_cases hc : c = k
    · simp [hc]
    · simp [hc]

theorem sweep_spec {n : ℕ} (h : Sweeping t₀ root pending removed t)
    (hr : sweep n pending removed t = some (removed', t')) :
    (∀ k, k ∈ removed' ↔ Below t₀ root k) ∧ ∀ k, t'.get k = if k ∈ removed' then none else t₀.get k := by
  induction n, pending, removed, t using sweep.induct with
  | case1 n removed t =>
    rw [sweep] at hr
    cases hr
    refine ⟨fun k => ⟨fun hk => h.below k (.inl hk), ?_⟩, h.rest⟩
    intro hk
    induction hk with
    | refl => exact h.root.resolve_right List.not_mem_nil
    | tail _ hc ih => exact (h.closed _ ih _ hc).resolve_right List.not_mem_nil
  | case2 => cases hr
  | case3 n k pending removed t hk ih =>
    rw [sweep, if_pos hk] at hr
    exact ih (h.skip hk) hr
  | case4 n k pending removed t hk ih =>
    rw [sweep, if_neg hk] at hr
    exact ih (h.take hk) hr

theorem sweep_returns {n : ℕ} (h : pending.length + size t ≤ n) : ∃ x, sweep n pending removed t = some x := by
  induction n, pending, removed, t using sweep.induct with
  | case1 n removed t => exact ⟨_, by rw [sweep]⟩
  | case2 k pending removed t =>
    rw [List.length_cons] at h
    omega
  | case3 n k pending removed t hk ih =>
    rw [sweep, if_pos hk]
    apply ih
    rw [List.length_cons] at h
    omega
  | case4 n k pending removed t hk ih =>
    rw [sweep, if_neg hk]
    apply ih
    have hsize : size (pop t k) + (members t k).length = size t := size_pop
    rw [List.length_cons] at h
    rw [List.length_append]
    omega

end Broods

end GameLink.Foundation

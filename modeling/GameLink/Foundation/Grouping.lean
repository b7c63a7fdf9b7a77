import Mathlib.Data.List.Induction
import Mathlib.Data.List.Nodup

namespace GameLink.Foundation

/-! Dictionaries as lists of entries in the order in which their keys first came. -/

section

variable {α κ ν : Type} [DecidableEq κ]

def setEntry : List (κ × ν) → κ → ν → List (κ × ν)
  | [], k, v => [(k, v)]
  | (k', v') :: rest, k, v => if k' = k then (k', v) :: rest else (k', v') :: setEntry rest k v

def appendTo : List (κ × List α) → κ → α → List (κ × List α)
  | [], k, x => [(k, [x])]
  | (k', xs) :: rest, k, x => if k' = k then (k', xs ++ [x]) :: rest else (k', xs) :: appendTo rest k x

def groupBy (f : α → κ) (items : List α) : List (κ × List α) := items.foldl (fun d x => appendTo d (f x) x) []

theorem keys_appendTo (d : List (κ × List α)) (k : κ) (x : α) :
    (appendTo d k x).map Prod.fst = if k ∈ d.map Prod.fst then d.map Prod.fst else d.map Prod.fst ++ [k] := by
  induction d with
  | nil => rfl
  | cons e rest ih =>
    obtain ⟨k', xs⟩ := e
    rw [appendTo]
    by_cases hk : k' = k
    · simp [hk]
    have hk' : ¬k = k' := fun h => hk h.symm
    rw [if_neg hk, List.map_cons, ih]
    by_cases hmem : k ∈ rest.map Prod.fst
    · simp [hmem]
    · simp [hmem, hk']

theorem nodup_appendTo {d : List (κ × List α)} (hd : (d.map Prod.fst).Nodup) (k : κ) (x : α) :
    ((appendTo d k x).map Prod.fst).Nodup := by
  rw [keys_appendTo]
  split
  · exact hd
  rename_i hk
  apply List.nodup_append.mpr
  refine ⟨hd, List.nodup_singleton k, ?_⟩
  intro a ha b hb
  rw [List.mem_singleton] at hb
  rintro rfl
  exact hk (hb ▸ ha)

theorem filter_appendTo (d : List (κ × List α)) (k : κ) (x : α) (p : κ → Bool) :
    (appendTo d k x).filter (fun e => p e.1) =
      if p k then appendTo (d.filter fun e => p e.1) k x else d.filter fun e => p e.1 := by
  induction d with
  | nil => cases hp : p k <;> simp [appendTo, hp]
  | cons e rest ih =>
    obtain ⟨k', xs⟩ := e
    rw [appendTo]
    by_cases hk : k' = k
    · subst hk
      cases hp : p k' <;> simp [appendTo, hp]
    · rw [if_neg hk, List.filter_cons, List.filter_cons, ih]
      cases hp : p k <;> cases hp' : p k' <;> simp [appendTo, hk]

theorem filter_foldl_appendTo (f : α → κ) (p : κ → Bool) (items : List α) (d : List (κ × List α)) :
    (items.foldl (fun d x => appendTo d (f x) x) d).filter (fun e => p e.1) =
      (items.filter fun x => p (f x)).foldl (fun d x => appendTo d (f x) x) (d.filter fun e => p e.1) := by
  induction items generalizing d with
  | nil => rfl
  | cons x items ih =>
    rw [List.foldl_cons, ih, filter_appendTo, List.filter_cons]
    cases hp : p (f x) <;> simp

theorem filter_groupBy (f : α → κ) (p : κ → Bool) (items : List α) :
    (groupBy f items).filter (fun e => p e.1) = groupBy f (items.filter fun x => p (f x)) :=
  filter_foldl_appendTo f p items []

structure Grouped (f : α → κ) (items : List α) (d : List (κ × List α)) : Prop where
  nodup : (d.map Prod.fst).Nodup
  covered : ∀ x ∈ items, f x ∈ d.map Prod.fst
  whole : ∀ e ∈ d, e.2 = items.filter fun x => f x = e.1
  filled : ∀ e ∈ d, e.2 ≠ []

theorem mem_appendTo {d : List (κ × List α)} (hd : (d.map Prod.fst).Nodup) {k : κ} {x : α} {e : κ × List α}
    (he : e ∈ appendTo d k x) :
    (e ∈ d ∧ e.1 ≠ k) ∨ (e = (k, [x]) ∧ k ∉ d.map Prod.fst) ∨ ∃ xs, (k, xs) ∈ d ∧ e = (k, xs ++ [x]) := by
  induction d with
  | nil =>
    rw [appendTo, List.mem_singleton] at he
    exact .inr (.inl ⟨he, by simp⟩)
  | cons e' rest ih =>
    obtain ⟨k', xs⟩ := e'
    obtain ⟨hnew, hrest⟩ := List.nodup_cons.mp hd
    rw [appendTo] at he
    by_cases hk : k' = k
    · subst hk
      rw [if_pos rfl, List.mem_cons] at he
      cases he with
      | inl he => exact .inr (.inr ⟨xs, List.mem_cons_self, he⟩)
      | inr he =>
        refine .inl ⟨List.mem_cons_of_mem _ he, ?_⟩
        intro heq
        exact hnew (List.mem_map.mpr ⟨e, he, heq⟩)
    · rw [if_neg hk, List.mem_cons] at he
      cases he with
      | inl he =>
        subst he
        exact .inl ⟨List.mem_cons_self, hk⟩
      | inr he =>
        rcases ih hrest he with ⟨hmem, hne⟩ | ⟨heq, hnot⟩ | ⟨ys, hmem, heq⟩
        · exact .inl ⟨List.mem_cons_of_mem _ hmem, hne⟩
        · refine .inr (.inl ⟨heq, ?_⟩)
          simp only [List.map_cons, List.mem_cons, hnot, or_false]
          exact fun h => hk h.symm
        · exact .inr (.inr ⟨ys, List.mem_cons_of_mem _ hmem, heq⟩)

theorem Grouped.appendTo {f : α → κ} {items : List α} {d : List (κ × List α)} (h : Grouped f items d) (x : α) :
    Grouped f (items ++ [x]) (appendTo d (f x) x) := by
  constructor
  · exact nodup_appendTo h.nodup (f x) x
  · intro y hy
    rw [keys_appendTo]
    rcases List.mem_append.mp hy with hy | hy
    · have hmem := h.covered y hy
      split
      · exact hmem
      · exact List.mem_append_left _ hmem
    rw [List.mem_singleton] at hy
    subst hy
    split
    · rename_i hmem
      exact hmem
    · exact List.mem_append_right _ (List.mem_singleton_self _)
  · intro e he
    rw [List.filter_append]
    rcases mem_appendTo h.nodup he with ⟨hmem, hne⟩ | ⟨heq, hnot⟩ | ⟨xs, hmem, heq⟩
    · have hx : ¬f x = e.1 := fun hx => hne hx.symm
      simp [hx, h.whole e hmem]
    · subst heq
      have hempty : items.filter (fun y => f y = f x) = [] := by
        apply List.filter_eq_nil_iff.mpr
        intro y hy hxy
        apply hnot
        rw [← of_decide_eq_true hxy]
        exact h.covered y hy
      simp [hempty]
    · subst heq
      have hwhole := h.whole _ hmem
      dsimp only at hwhole
      simp [hwhole]
  · intro e he
    rcases mem_appendTo h.nodup he with ⟨hmem, -⟩ | ⟨heq, -⟩ | ⟨xs, -, heq⟩
    · exact h.filled e hmem
    · simp [heq]
    · simp [heq]

theorem grouped_groupBy (f : α → κ) (items : List α) : Grouped f items (groupBy f items) := by
  have hfold : ∀ (rest seen : List α) (d : List (κ × List α)), Grouped f seen d →
      Grouped f (seen ++ rest) (rest.foldl (fun d x => appendTo d (f x) x) d) := by
    intro rest
    induction rest with
    | nil =>
      intro seen d h
      rw [List.append_nil]
      exact h
    | cons x rest ih =>
      intro seen d h
      have hnext := ih (seen ++ [x]) _ (h.appendTo x)
      rw [List.append_assoc] at hnext
      exact hnext
  have hempty : Grouped f [] ([] : List (κ × List α)) := ⟨List.nodup_nil, by simp, by simp, by simp⟩
  exact hfold items [] [] hempty

theorem mem_setEntry {d : List (κ × ν)} (hd : (d.map Prod.fst).Nodup) {k : κ} {v : ν} {entry : κ × ν} :
    entry ∈ setEntry d k v ↔ (entry ∈ d ∧ entry.1 ≠ k) ∨ entry = (k, v) := by
  induction d with
  | nil => simp [setEntry]
  | cons entry' rest ih =>
    obtain ⟨k', v'⟩ := entry'
    obtain ⟨hnew, hrest⟩ := List.nodup_cons.mp hd
    rw [setEntry]
    by_cases hk : k' = k
    · subst hk
      rw [if_pos rfl]
      have hother : entry ∈ rest → entry.1 ≠ k' := by
        intro hmem heq
        exact hnew (List.mem_map.mpr ⟨entry, hmem, heq⟩)
      constructor
      · intro h
        rcases List.mem_cons.mp h with h | h
        · exact .inr h
        · exact .inl ⟨List.mem_cons_of_mem _ h, hother h⟩
      rintro (⟨h, hne⟩ | h)
      · rcases List.mem_cons.mp h with rfl | h
        · exact (hne rfl).elim
        · exact List.mem_cons_of_mem _ h
      · rw [h]
        exact List.mem_cons_self
    · rw [if_neg hk, List.mem_cons, ih hrest, List.mem_cons]
      constructor
      · rintro (h | ⟨h, hne⟩ | h)
        · subst h
          exact .inl ⟨.inl rfl, hk⟩
        · exact .inl ⟨.inr h, hne⟩
        · exact .inr h
      rintro (⟨h | h, hne⟩ | h)
      · exact .inl h
      · exact .inr (.inl ⟨h, hne⟩)
      · exact .inr (.inr h)

theorem keys_setEntry (d : List (κ × ν)) (k : κ) (v : ν) :
    (setEntry d k v).map Prod.fst = if k ∈ d.map Prod.fst then d.map Prod.fst else d.map Prod.fst ++ [k] := by
  induction d with
  | nil => rfl
  | cons entry rest ih =>
    obtain ⟨k', v'⟩ := entry
    rw [setEntry]
    by_cases hk : k' = k
    · simp [hk]
    have hk' : ¬k = k' := fun h => hk h.symm
    rw [if_neg hk, List.map_cons, ih]
    by_cases hmem : k ∈ rest.map Prod.fst
    · simp [hmem]
    · simp [hmem, hk']

theorem nodup_setEntry {d : List (κ × ν)} (hd : (d.map Prod.fst).Nodup) (k : κ) (v : ν) :
    ((setEntry d k v).map Prod.fst).Nodup := by
  rw [keys_setEntry]
  split
  · exact hd
  rename_i hk
  apply List.nodup_append.mpr
  refine ⟨hd, List.nodup_singleton k, ?_⟩
  intro a ha b hb
  rw [List.mem_singleton] at hb
  rintro rfl
  exact hk (hb ▸ ha)

theorem foldl_setEntry (f : α → κ) (l : List α) : ((l.foldl (fun d x => setEntry d (f x) x) []).map Prod.fst).Nodup ∧
      ∀ k x, (k, x) ∈ l.foldl (fun d x => setEntry d (f x) x) [] ↔
        f x = k ∧ ∃ before after, l = before ++ x :: after ∧ ∀ y ∈ after, f y ≠ k := by
  induction l using List.reverseRecOn with
  | nil => simp
  | append_singleton l y ih =>
    obtain ⟨hnodup, hmem⟩ := ih
    rw [List.foldl_append]
    refine ⟨nodup_setEntry hnodup _ _, ?_⟩
    intro k x
    change (k, x) ∈ setEntry _ (f y) y ↔ _
    rw [mem_setEntry hnodup, hmem]
    constructor
    · rintro (⟨⟨hx, before, after, hl, hafter⟩, hne⟩ | h)
      · refine ⟨hx, before, after ++ [y], by simp [hl], ?_⟩
        intro z hz
        rcases List.mem_append.mp hz with hz | hz
        · exact hafter z hz
        rw [List.mem_singleton] at hz
        subst hz
        exact fun h => hne h.symm
      · cases h
        exact ⟨rfl, l, [], rfl, by simp⟩
    · rintro ⟨hx, before, after, hl, hafter⟩
      rcases List.eq_nil_or_concat after with rfl | ⟨after', z, rfl⟩
      · right
        have hlast := List.append_inj_right' hl rfl
        cases hlast
        rw [hx]
      left
      have hsplit : l ++ [y] = (before ++ x :: after') ++ [z] := by simp [hl]
      have hl' := List.append_inj_left' hsplit rfl
      have hyz := List.append_inj_right' hsplit rfl
      cases hyz
      refine ⟨⟨hx, before, after', hl', ?_⟩, ?_⟩
      · intro w hw
        exact hafter w (by simp [hw])
      · intro h
        exact hafter y (by simp) h.symm

end

end GameLink.Foundation

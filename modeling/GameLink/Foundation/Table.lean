import Mathlib.Data.List.Sort

namespace GameLink.Foundation

section

variable {α : Type} {r : α → α → Prop} [DecidableRel r]

theorem orderedInsert_of_least {a : α} {l : List α} (h : ∀ b ∈ l, r a b) : l.orderedInsert r a = a :: l := by
  cases l with
  | nil => rfl
  | cons b l => exact List.orderedInsert_cons_of_le r l (h b List.mem_cons_self)

theorem filter_orderedInsert (htrans : ∀ a b c, r a b → r b c → r a c) {p : α → Bool} {a : α} {l : List α}
    (hl : l.Pairwise r) :
    (l.orderedInsert r a).filter p = if p a then (l.filter p).orderedInsert r a else l.filter p := by
  induction l with
  | nil => cases hp : p a <;> simp [hp]
  | cons b l ih =>
    obtain ⟨hb, hl⟩ := List.pairwise_cons.mp hl
    by_cases hab : r a b
    · have hleast : ∀ c ∈ (b :: l).filter p, r a c := by
        intro c hc
        rcases List.mem_cons.mp (List.mem_of_mem_filter hc) with rfl | hc
        · exact hab
        · exact htrans a b c hab (hb c hc)
      rw [List.orderedInsert_cons_of_le r l hab, orderedInsert_of_least hleast]
      cases hp : p a <;> simp [List.filter_cons, hp]
    · rw [List.orderedInsert_of_not_le r l hab, List.filter_cons, List.filter_cons, ih hl]
      cases hpa : p a <;> cases hpb : p b <;> simp [hab]

theorem filter_insertionSort (htotal : ∀ a b, r a b ∨ r b a) (htrans : ∀ a b c, r a b → r b c → r a c) (p : α → Bool)
    (l : List α) : (l.insertionSort r).filter p = (l.filter p).insertionSort r := by
  have : Std.Total r := ⟨htotal⟩
  have : IsTrans α r := ⟨htrans⟩
  induction l with
  | nil => rfl
  | cons a l ih =>
    rw [List.insertionSort_cons, filter_orderedInsert htrans (List.pairwise_insertionSort r l), ih]
    cases hp : p a <;> simp [hp]

end

theorem filter_sortedBy {α : Type} (f : α → String) (p : α → Bool) (l : List α) :
    (l.insertionSort fun a b => f a ≤ f b).filter p = (l.filter p).insertionSort fun a b => f a ≤ f b :=
  filter_insertionSort (fun a b => String.le_total (f a) (f b)) (fun _ _ _ => String.le_trans) p l

structure Table {ρ κ : Type} (key : ρ → κ) where
  rows : List ρ
  unique : (rows.map key).Nodup

namespace Table

variable {ρ κ : Type} {key : ρ → κ}

@[ext]
theorem ext {t u : Table key} (h : t.rows = u.rows) : t = u := by
  cases t; cases u; cases h; rfl

def empty : Table key := ⟨[], List.nodup_nil⟩

instance : Inhabited (Table key) := ⟨empty⟩

theorem eq_of_key_eq (t : Table key) {r r' : ρ} (h : r ∈ t.rows) (h' : r' ∈ t.rows)
    (hk : key r = key r') : r = r' := List.inj_on_of_nodup_map t.unique h h' hk

def update (t : Table key) (p : ρ → Bool) (f : ρ → ρ) (hf : ∀ r, key (f r) = key r) : Table key where
  rows := t.rows.map fun r => if p r then f r else r
  unique := by
    have he : (key ∘ fun r => if p r then f r else r) = key := by
      funext r
      by_cases hp : p r <;> simp [hp, hf]
    simpa only [List.map_map, he] using t.unique

/-- The number of rows an `UPDATE` or `DELETE` with this condition touches. -/
def matching (t : Table key) (p : ρ → Bool) : ℕ := t.rows.countP p

def delete (t : Table key) (p : ρ → Bool) : Table key where
  rows := t.rows.filter fun r => !p r
  unique := t.unique.sublist (List.filter_sublist.map key)

variable {t : Table key}

theorem update_of_none {p : ρ → Bool} {f : ρ → ρ} {hf : ∀ r, key (f r) = key r}
    (h : ∀ r ∈ t.rows, p r = false) : t.update p f hf = t := by
  apply ext
  calc t.rows.map (fun r => if p r then f r else r)
      = t.rows.map id := List.map_congr_left fun r hr => by simp [h r hr]
    _ = t.rows := List.map_id _

theorem matching_update_le (t : Table key) (p q : ρ → Bool) (f : ρ → ρ) (hf : ∀ r, key (f r) = key r)
    (h : ∀ r ∈ t.rows, p r → q (f r) → q r) : (t.update p f hf).matching q ≤ t.matching q := by
  rw [matching, update, List.countP_map]
  refine List.countP_mono_left fun r hr hq => ?_
  by_cases hp : p r
  · exact h r hr hp (by simpa [hp] using hq)
  · simpa [hp] using hq

theorem matching_delete_le (t : Table key) (p q : ρ → Bool) : (t.delete p).matching q ≤ t.matching q :=
  List.Sublist.countP_le List.filter_sublist

theorem countP_or_le (l : List ρ) (p q : ρ → Bool) : l.countP (fun r => p r || q r) ≤ l.countP p + l.countP q := by
  induction l with
  | nil => simp
  | cons r l ih =>
    simp only [List.countP_cons]
    cases p r <;> cases q r <;> simp <;> omega

variable [DecidableEq κ]

def get (t : Table key) (k : κ) : Option ρ := t.rows.find? fun r => key r = k

def insert (t : Table key) (r : ρ) : Option (Table key) :=
  if h : key r ∈ t.rows.map key then none
  else some ⟨t.rows ++ [r], by
    rw [List.map_append, List.map_singleton, List.nodup_append]
    refine ⟨t.unique, List.nodup_singleton _, ?_⟩
    rintro a ha b hb rfl
    rw [List.mem_singleton] at hb
    exact h (hb ▸ ha)⟩

/-- `INSERT OR REPLACE`: the row that held the key goes, the new one is appended. -/
def replace (t : Table key) (r : ρ) : Table key where
  rows := (t.rows.filter fun r' => decide (key r' ≠ key r)) ++ [r]
  unique := by
    rw [List.map_append, List.map_singleton, List.nodup_append]
    refine ⟨t.unique.sublist (List.filter_sublist.map key), List.nodup_singleton _, ?_⟩
    rintro a ha b hb rfl
    obtain ⟨r', hr', rfl⟩ := List.mem_map.mp ha
    have hne := (List.mem_filter.mp hr').2
    rw [List.mem_singleton] at hb
    exact (of_decide_eq_true hne) hb

variable {r : ρ}

theorem get_eq_some {k : κ} :
    t.get k = some r ↔ r ∈ t.rows ∧ key r = k := by
  constructor
  · intro h
    exact ⟨List.mem_of_find?_eq_some h, by simpa using List.find?_some h⟩
  rintro ⟨hr, rfl⟩
  cases h : t.get (key r) with
  | none => exact absurd (decide_eq_true rfl) (List.find?_eq_none.mp h r hr)
  | some r' =>
    have hr' : r' ∈ t.rows := List.mem_of_find?_eq_some h
    have hk : key r' = key r := by simpa using List.find?_some h
    rw [t.eq_of_key_eq hr' hr hk]

theorem get_eq_none {k : κ} : t.get k = none ↔ ∀ r ∈ t.rows, key r ≠ k := by
  simp [get, List.find?_eq_none]

theorem key_of_get {k : κ} (h : t.get k = some r) : key r = k := (get_eq_some.mp h).2

theorem mem_of_get {k : κ} (h : t.get k = some r) : r ∈ t.rows := (get_eq_some.mp h).1

@[simp]
theorem get_empty (k : κ) : (empty : Table key).get k = none := rfl

theorem get_update (t : Table key) (p : ρ → Bool) (f : ρ → ρ) (hf : ∀ r, key (f r) = key r) (k : κ) :
    (t.update p f hf).get k = (t.get k).map fun r => if p r then f r else r := by
  have hg : ∀ r, key (if p r then f r else r) = key r := by
    intro r
    split
    · exact hf r
    · rfl
  simp only [get, update, List.find?_map, Function.comp_def, hg]

theorem get_update_other {p : ρ → Bool} {f : ρ → ρ} {hf : ∀ r, key (f r) = key r} {k k' : κ}
    (hne : k' ≠ k) (hp : ∀ r, p r = true → key r = k) : (t.update p f hf).get k' = t.get k' := by
  rw [get_update]
  cases h : t.get k' with
  | none => rfl
  | some r =>
    have hr : ¬ p r = true := fun hr => hne ((key_of_get h).symm.trans (hp r hr))
    simp [hr]

variable {t t' : Table key}

theorem get_insert (h : t.insert r = some t') (k : κ) :
    t'.get k = if key r = k then some r else t.get k := by
  unfold insert at h
  split at h
  · cases h
  rename_i hr
  obtain rfl := Option.some.inj h
  simp only [get, List.find?_append]
  by_cases hk : key r = k
  · subst hk
    have hn : t.rows.find? (fun r' => decide (key r' = key r)) = none := by
      rw [List.find?_eq_none]
      intro r' hr'
      simpa using fun he => hr (List.mem_map.mpr ⟨r', hr', he⟩)
    simp [hn]
  · simp [hk]

theorem get_of_insert (h : t.insert r = some t') : t.get (key r) = none := by
  unfold insert at h
  split at h
  · cases h
  rename_i hr
  rw [get_eq_none]
  exact fun r' hr' he => hr (List.mem_map.mpr ⟨r', hr', he⟩)

theorem kept_of_insert {r row : ρ} (h : t.insert r = some t') {k : κ} (hr : t.get k = some row) :
    t'.get k = some row := by
  rw [get_insert h]
  split
  · rename_i hk
    rw [← hk, get_of_insert h] at hr
    cases hr
  · exact hr

theorem kept_of_insertOrIgnore {r row : ρ} {k : κ} (hr : t.get k = some row) :
    ((t.insert r).getD t).get k = some row := by
  cases h : t.insert r with
  | none => exact hr
  | some t' => exact kept_of_insert h hr

theorem insert_eq_none : t.insert r = none ↔ ∃ r', t.get (key r) = some r' := by
  unfold insert
  split
  · rename_i h
    obtain ⟨r', hr', hk⟩ := List.mem_map.mp h
    exact ⟨fun _ => ⟨r', get_eq_some.mpr ⟨hr', hk⟩⟩, fun _ => rfl⟩
  rename_i h
  constructor
  · intro hn; cases hn
  · rintro ⟨r', hr'⟩
    exact absurd (List.mem_map.mpr ⟨r', mem_of_get hr', key_of_get hr'⟩) h

theorem rows_of_insert (h : t.insert r = some t') :
    t'.rows = t.rows ++ [r] := by
  unfold insert at h
  split at h
  · cases h
  · rw [← Option.some.inj h]

theorem get_delete (t : Table key) (p : ρ → Bool) (k : κ) :
    (t.delete p).get k = (t.get k).filter fun r => !p r := by
  cases h : t.get k with
  | none =>
    rw [get_eq_none] at h
    exact get_eq_none.mpr fun r hr => h r (List.mem_of_mem_filter hr)
  | some r =>
    have hr := get_eq_some.mp h
    by_cases hp : p r
    · simp only [Option.filter, hp, Bool.not_true, Bool.false_eq_true, ↓reduceIte]
      rw [get_eq_none]
      rintro r' hr' rfl
      obtain ⟨hm, hn⟩ := List.mem_filter.mp hr'
      rw [t.eq_of_key_eq hr.1 hm hr.2] at hp
      simp [hp] at hn
    · simp only [Option.filter, hp, Bool.not_false, ↓reduceIte]
      exact get_eq_some.mpr ⟨List.mem_filter.mpr ⟨hr.1, by simpa using hp⟩, hr.2⟩

theorem get_delete_other {p : ρ → Bool} {k k' : κ} (hne : k' ≠ k) (hp : ∀ r, p r = true → key r = k) :
    (t.delete p).get k' = t.get k' := by
  rw [get_delete]
  cases h : t.get k' with
  | none => rfl
  | some r =>
    have hr : ¬ p r = true := fun hr => hne ((key_of_get h).symm.trans (hp r hr))
    simp [hr]

theorem get_replace (t : Table key) (r : ρ) (k : κ) :
    (t.replace r).get k = if key r = k then some r else t.get k := by
  simp only [get, replace, List.find?_append]
  by_cases hk : key r = k
  · subst hk
    have hn : (t.rows.filter fun r' => decide (key r' ≠ key r)).find?
        (fun r' => decide (key r' = key r)) = none := by
      rw [List.find?_eq_none]
      intro r' hr'
      simpa using (List.mem_filter.mp hr').2
    rw [hn]
    simp
  · have hn : (fun r' => decide (decide (key r' ≠ key r) = true ∧ decide (key r' = k) = true)) =
        fun r' => decide (key r' = k) := by
      funext r'
      by_cases hr' : key r' = k
      · simp [hr', Ne.symm hk]
      · simp [hr']
    rw [List.find?_filter, hn]
    simp [hk]

theorem matching_key_le_one (t : Table key) (k : κ) : t.matching (fun r => decide (key r = k)) ≤ 1 := by
  have hcount : t.matching (fun r => decide (key r = k)) = (t.rows.map key).count k := by
    rw [matching, List.count, List.countP_map]
    rfl
  rw [hcount]
  exact List.nodup_iff_count_le_one.mp t.unique k

theorem filter_key_of_get {k : κ} (h : t.get k = some r) :
    (t.rows.filter fun r' => decide (key r' = k)) = [r] := by
  have hmem : r ∈ t.rows.filter fun r' => decide (key r' = k) :=
    List.mem_filter.mpr ⟨mem_of_get h, decide_eq_true (key_of_get h)⟩
  have hle := t.matching_key_le_one k
  rw [matching, List.countP_eq_length_filter] at hle
  cases hl : t.rows.filter fun r' => decide (key r' = k) with
  | nil =>
    rw [hl] at hmem
    cases hmem
  | cons a l =>
    rw [hl] at hmem hle
    have hnil : l = [] := List.length_eq_zero_iff.mp (by simpa using hle)
    subst hnil
    rw [List.mem_singleton.mp hmem]

theorem matching_eq_one (t : Table key) (k : κ) (q : ρ → Bool) :
    t.matching (fun r => decide (key r = k) && q r) = 1 ↔ ∃ r, t.get k = some r ∧ q r = true := by
  have hle := t.matching_key_le_one k
  have hle' : t.matching (fun r => decide (key r = k) && q r) ≤ 1 := by
    refine Nat.le_trans (List.countP_mono_left ?_) hle
    intro r _ h
    exact (Bool.and_eq_true_iff.mp h).1
  have hpos : 0 < t.matching (fun r => decide (key r = k) && q r) ↔ ∃ r, t.get k = some r ∧ q r = true := by
    rw [matching, List.countP_pos_iff]
    constructor
    · rintro ⟨r, hr, h⟩
      obtain ⟨hk, hq⟩ := Bool.and_eq_true_iff.mp h
      exact ⟨r, get_eq_some.mpr ⟨hr, of_decide_eq_true hk⟩, hq⟩
    · rintro ⟨r, hr, hq⟩
      exact ⟨r, mem_of_get hr, by simp [key_of_get hr, hq]⟩
  rw [← hpos]
  omega

theorem matching_update_le_succ (t : Table key) (k : κ) (q : ρ → Bool) (f : ρ → ρ)
    (hf : ∀ r, key (f r) = key r) :
    (t.update (fun r => decide (key r = k)) f hf).matching q ≤ t.matching q + 1 := by
  have hone := t.matching_key_le_one k
  have hor := countP_or_le t.rows q fun r => decide (key r = k)
  have hle : (t.update (fun r => decide (key r = k)) f hf).matching q ≤
      t.rows.countP fun r => q r || decide (key r = k) := by
    rw [matching, update, List.countP_map]
    refine List.countP_mono_left fun r _ hq => ?_
    by_cases hk : key r = k
    · simp [hk]
    · simpa [hk] using hq
  unfold matching at *
  omega

theorem matching_insert (h : t.insert r = some t') (q : ρ → Bool) :
    t'.matching q = t.matching q + if q r then 1 else 0 := by
  rw [matching, rows_of_insert h, List.countP_append, List.countP_singleton]
  rfl

theorem get_delete_keys (t : Table key) (ks : List κ) (k : κ) :
    (t.delete fun r => decide (key r ∈ ks)).get k = if k ∈ ks then none else t.get k := by
  rw [get_delete]
  cases h : t.get k with
  | none => simp
  | some r => simp [Option.filter, key_of_get h]

end Table

end GameLink.Foundation

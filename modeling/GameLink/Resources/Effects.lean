import GameLink.Resources.Inventory

namespace GameLink.Resources

open Foundation Contracts

namespace Inventory

variable {s : Inventory} {ref k : Ref} {now : Instant} {scope : OwnerScope} {e : EntryRow} {m : Registration}

def sizeAt (s : Inventory) (ref : Ref) : Option ℕ := (s.entries.get ref).map EntryRow.sizeBytes

def evictingAt (s : Inventory) (ref : Ref) : Option Bool := (s.entries.get ref).map EntryRow.evicting

def digestAt (s : Inventory) (ref : Ref) : Option String := (s.entries.get ref).map EntryRow.contentSha256

def others (s : Inventory) (ref : Ref) : ℕ × ℕ :=
  ({ s with entries := s.entries.delete fun r => decide (r.ref = ref) } : Inventory).managedUsage ref.scope

theorem usage_split (s : Inventory) (ref : Ref) :
    (s.managedUsage ref.scope).1 = (s.others ref).1 + (s.sizeAt ref).getD 0 ∧
      (s.managedUsage ref.scope).2 = (s.others ref).2 + (s.sizeAt ref).elim 0 fun _ => 1 := by
  simp only [others, managedUsage, sizeAt, Table.total_split s.entries _ _ ref]
  cases h : s.entries.get ref with
  | none => exact ⟨rfl, rfl⟩
  | some e =>
    have hscope : inScope ref.scope e = true := by
      rw [inScope, Table.key_of_get h]
      exact decide_eq_true rfl
    simp [hscope]

structure SameEntries (s s' : Inventory) : Prop where
  sizeAt : ∀ ref, s'.sizeAt ref = s.sizeAt ref
  evictingAt : ∀ ref, s'.evictingAt ref = s.evictingAt ref
  digestAt : ∀ ref, s'.digestAt ref = s.digestAt ref
  usage : ∀ scope, s'.managedUsage scope = s.managedUsage scope
  others : ∀ ref, s'.others ref = s.others ref

theorem sameEntries_of_eq {s' : Inventory} (h : s'.entries = s.entries) : SameEntries s s' where
  sizeAt ref := by rw [Inventory.sizeAt, h]; rfl
  evictingAt ref := by rw [Inventory.evictingAt, h]; rfl
  digestAt ref := by rw [Inventory.digestAt, h]; rfl
  usage scope := by rw [managedUsage, h]; rfl
  others ref := by rw [Inventory.others, h]; rfl

section

variable (q : EntryRow → Bool) {g : EntryRow → EntryRow} (hg : ∀ r, (g r).ref = r.ref)

theorem map_get_update {α : Type} (f : EntryRow → α) (hf : ∀ r, f (g r) = f r) :
    ((s.entries.update q g hg).get k).map f = (s.entries.get k).map f := by
  rw [Table.get_update]
  cases s.entries.get k with
  | none => rfl
  | some r =>
    simp only [Option.map_some]
    split
    · rw [hf]
    · rfl

theorem usage_update (hsize : ∀ r, (g r).sizeBytes = r.sizeBytes) (t : Table EntryRow.ref) :
    (t.update q g hg).total (inScope scope) EntryRow.sizeBytes = t.total (inScope scope) EntryRow.sizeBytes ∧
      ((t.update q g hg).total (inScope scope) fun _ => 1) = t.total (inScope scope) fun _ => 1 := by
  have hscope : ∀ r, inScope scope (g r) = inScope scope r := by
    intro r
    rw [inScope, inScope, hg]
  exact ⟨Table.total_update _ _ _ _ _ _ hscope hsize, Table.total_update _ _ _ _ _ _ hscope fun _ => rfl⟩

theorem delete_update (t : Table EntryRow.ref) :
    ((t.update q g hg).delete fun r => decide (r.ref = ref)) = (t.delete fun r => decide (r.ref = ref)).update q g hg := by
  apply Table.ext
  change (t.rows.map _).filter _ = (t.rows.filter _).map _
  rw [List.filter_map]
  congr 1
  apply List.filter_congr
  intro r _
  simp only [Function.comp]
  split
  · rw [hg]
  · rfl

theorem usages_update (hsize : ∀ r, (g r).sizeBytes = r.sizeBytes) :
    (∀ scope, ({ s with entries := s.entries.update q g hg } : Inventory).managedUsage scope = s.managedUsage scope) ∧
      ∀ ref, ({ s with entries := s.entries.update q g hg } : Inventory).others ref = s.others ref := by
  constructor
  · intro scope
    exact Prod.ext (usage_update q hg hsize s.entries).1 (usage_update q hg hsize s.entries).2
  intro ref
  have hrest := @usage_update ref.scope q g hg hsize (s.entries.delete fun r => decide (r.ref = ref))
  rw [← delete_update] at hrest
  exact Prod.ext hrest.1 hrest.2

end

theorem sameEntries_touch : SameEntries s (s.managedTouch ref now) where
  sizeAt _ := map_get_update _ (ref_touched now) _ fun _ => rfl
  evictingAt _ := map_get_update _ (ref_touched now) _ fun _ => rfl
  digestAt _ := map_get_update _ (ref_touched now) _ fun _ => rfl
  usage := (usages_update _ (ref_touched now) fun _ => rfl).1
  others := (usages_update _ (ref_touched now) fun _ => rfl).2

structure Marked (s : Inventory) (ref : Ref) (now : Instant) (s' : Inventory) : Prop where
  assets : s'.assets = s.assets
  pins : s'.pins = s.pins
  unpinned : ∀ p ∈ s.pins.rows, p.ref = ref → p.expiresAt ≤ now
  row : s.sizeAt ref ≠ none
  sizeAt : ∀ k, s'.sizeAt k = s.sizeAt k
  digestAt : ∀ k, s'.digestAt k = s.digestAt k
  evictingAt : ∀ k, s'.evictingAt k = if k = ref then some true else s.evictingAt k
  usage : ∀ scope, s'.managedUsage scope = s.managedUsage scope
  others : ∀ k, s'.others k = s.others k

theorem marked_of_mark {s' : Inventory} (h : s.managedMarkEvicting ref now = (true, s')) : Marked s ref now s' := by
  unfold managedMarkEvicting at h
  split at h
  · cases h
  rename_i hfree
  simp only [Bool.or_eq_true, not_or, Bool.not_eq_true, Option.isNone_eq_false_iff] at hfree
  obtain ⟨hpinned, hrow⟩ := hfree
  cases h
  obtain ⟨e, he⟩ := Option.isSome_iff_exists.mp hrow
  constructor
  · rfl
  · rfl
  · intro p hp href
    rw [pinned, List.any_eq_false] at hpinned
    have hlive := hpinned p hp
    simp only [href, decide_true, Bool.true_and, decide_eq_true_eq, not_lt] at hlive
    exact hlive
  · rw [Inventory.sizeAt, he]
    exact Option.some_ne_none _
  · intro k
    exact map_get_update _ ref_evict _ fun _ => rfl
  · intro k
    exact map_get_update _ ref_evict _ fun _ => rfl
  · intro k
    change ((s.entries.update _ evict ref_evict).get k).map EntryRow.evicting = _
    rw [Table.get_update]
    by_cases hk : k = ref
    · subst hk
      rw [he, if_pos rfl, Option.map_some, Option.map_some, if_pos (decide_eq_true (Table.key_of_get he))]
      rfl
    rw [if_neg hk, Inventory.evictingAt]
    cases hget : s.entries.get k with
    | none => rfl
    | some r =>
      have hne : r.ref ≠ ref := by
        rw [Table.key_of_get hget]
        exact hk
      simp [hne]
  · exact (usages_update _ ref_evict fun _ => rfl).1
  · exact (usages_update _ ref_evict fun _ => rfl).2

structure Finished (s : Inventory) (ref : Ref) (n : ℕ) (s' : Inventory) : Prop where
  assets : ∀ k, s'.assets.get k = if k = ref then none else s.assets.get k
  pins : s'.pins = s.pins
  sizeAt : ∀ k, s'.sizeAt k = if k = ref then none else s.sizeAt k
  digestAt : ∀ k, s'.digestAt k = if k = ref then none else s.digestAt k
  evictingAt : ∀ k, s'.evictingAt k = if k = ref then none else s.evictingAt k
  usage : ∀ scope, (s'.managedUsage scope).1 ≤ (s.managedUsage scope).1 ∧ (s'.managedUsage scope).2 ≤ (s.managedUsage scope).2
  others : ∀ k, k ≠ ref → k.scope = ref.scope →
    (s'.others k).1 + n = (s.others k).1 ∧ (s'.others k).2 + 1 = (s.others k).2

variable (t : Table EntryRow.ref)

theorem total_delete_le (p : EntryRow → Bool) (f : EntryRow → ℕ) :
    (t.delete fun r => decide (r.ref = ref)).total p f ≤ t.total p f := by
  rw [Table.total_split t p f ref]
  exact Nat.le_add_right _ _

theorem get_delete_ref {ρ : Type} {key : ρ → Ref} (t : Table key) :
    (t.delete fun r => decide (key r = ref)).get k = if k = ref then none else t.get k := by
  have hone : (t.delete fun r => decide (key r = ref)) = t.delete fun r => decide (key r ∈ [ref]) := by simp
  rw [hone, Table.get_delete_keys]
  simp only [List.mem_singleton]

theorem map_ite_none {α β : Type} {c : Prop} [Decidable c] {x : Option α} (f : α → β) :
    (if c then none else x).map f = if c then none else x.map f := by
  split
  · rfl
  · rfl

theorem finished_of_finish (h : s.entries.get ref = some e) (he : e.evicting = true) :
    Finished s ref e.sizeBytes (s.managedFinishEviction ref) := by
  rw [managedFinishEviction, h, Option.any_some, if_pos he]
  constructor
  · intro k
    exact get_delete_ref s.assets
  · rfl
  · intro k
    rw [Inventory.sizeAt, Inventory.sizeAt, get_delete_ref, map_ite_none]
  · intro k
    rw [Inventory.digestAt, Inventory.digestAt, get_delete_ref, map_ite_none]
  · intro k
    rw [Inventory.evictingAt, Inventory.evictingAt, get_delete_ref, map_ite_none]
  · intro scope
    exact ⟨total_delete_le _ _ _, total_delete_le _ _ _⟩
  · intro k hne hscope
    have hin : inScope k.scope e = true := by
      rw [inScope, Table.key_of_get h, hscope]
      exact decide_eq_true rfl
    exact ⟨Table.total_delete_other s.entries _ _ (Ne.symm hne) h hin,
      Table.total_delete_other s.entries _ (fun _ => 1) (Ne.symm hne) h hin⟩

structure Registered (s : Inventory) (m : Registration) (adopted : Bool) (s' : Inventory) : Prop where
  assets : ∀ k, s'.assets.get k = if k = m.ref then some (m.asset (s.assets.get m.ref)) else s.assets.get k
  pins : s'.pins = s.pins
  sizeAt : ∀ k, s'.sizeAt k = if k = m.ref ∧ adopted = true then some m.sizeBytes else s.sizeAt k
  digestAt : ∀ k, s'.digestAt k = if k = m.ref ∧ adopted = true then some m.contentSha256 else s.digestAt k
  evictingAt : ∀ k, s'.evictingAt k = if k = m.ref ∧ adopted = true then some false else s.evictingAt k
  usage : ∀ scope, s'.managedUsage scope = if scope = m.ref.scope ∧ adopted = true then
    ((s.others m.ref).1 + m.sizeBytes, (s.others m.ref).2 + 1) else s.managedUsage scope
  adopts : adopted = true ∨ s.evictingAt m.ref = none

theorem total_replace_other {p : EntryRow → Bool} {f : EntryRow → ℕ} (r : EntryRow)
    (hp : ∀ r', r'.ref = r.ref → p r' = false) : (t.replace r).total p f = t.total p f := by
  rw [Table.total_replace, Table.total_split t p f r.ref, if_neg (by simp [hp r rfl])]
  cases h : t.get r.ref with
  | none => rfl
  | some r' =>
    have hp' := hp r' (Table.key_of_get h)
    simp [hp']

theorem registered_of_register (s : Inventory) (m : Registration) : Registered s m
    ((s.assets.get m.ref).isNone || (s.entries.get m.ref).isSome) (s.registerManaged m) := by
  have hasset : (m.asset (s.assets.get m.ref)).ref = m.ref := by
    unfold Registration.asset
    split
    · rfl
    · rfl
  have hassets : ∀ k, (s.registerManaged m).assets.get k =
      if k = m.ref then some (m.asset (s.assets.get m.ref)) else s.assets.get k := by
    intro k
    change (s.assets.replace _).get k = _
    rw [Table.get_replace, hasset]
    simp only [eq_comm]
  unfold registerManaged at hassets ⊢
  cases hadopted : (s.assets.get m.ref).isNone || (s.entries.get m.ref).isSome with
  | false =>
    rw [hadopted] at hassets
    refine ⟨hassets, rfl, ?_, ?_, ?_, ?_, ?_⟩
    · intro k
      simp [Inventory.sizeAt]
    · intro k
      simp [Inventory.digestAt]
    · intro k
      simp [Inventory.evictingAt]
    · intro scope
      simp [managedUsage]
    simp only [Bool.or_eq_false_iff, Option.isSome_eq_false_iff, Option.isNone_iff_eq_none] at hadopted
    rw [Inventory.evictingAt, hadopted.2]
    exact .inr rfl
  | true =>
    rw [hadopted] at hassets
    have hentry : (m.entry (s.entries.get m.ref)).ref = m.ref := rfl
    refine ⟨hassets, rfl, ?_, ?_, ?_, ?_, .inl rfl⟩
    · intro k
      simp only [Inventory.sizeAt, ↓reduceIte, Table.get_replace, hentry, and_true]
      by_cases hk : k = m.ref
      · rw [if_pos hk, if_pos hk.symm]
        rfl
      · rw [if_neg hk, if_neg (Ne.symm hk)]
    · intro k
      simp only [Inventory.digestAt, ↓reduceIte, Table.get_replace, hentry, and_true]
      by_cases hk : k = m.ref
      · rw [if_pos hk, if_pos hk.symm]
        rfl
      · rw [if_neg hk, if_neg (Ne.symm hk)]
    · intro k
      simp only [Inventory.evictingAt, ↓reduceIte, Table.get_replace, hentry, and_true]
      by_cases hk : k = m.ref
      · rw [if_pos hk, if_pos hk.symm]
        rfl
      · rw [if_neg hk, if_neg (Ne.symm hk)]
    · intro scope
      simp only [↓reduceIte, and_true]
      by_cases hscope : scope = m.ref.scope
      · subst hscope
        have hin : inScope m.ref.scope (m.entry (s.entries.get m.ref)) = true := decide_eq_true rfl
        rw [if_pos rfl]
        apply Prod.ext
        · change (s.entries.replace _).total _ _ = _
          rw [Table.total_replace, if_pos hin]
          rfl
        change (s.entries.replace _).total _ _ = _
        rw [Table.total_replace, if_pos hin]
        rfl
      · rw [if_neg hscope]
        have hout : ∀ r' : EntryRow, r'.ref = (m.entry (s.entries.get m.ref)).ref → inScope scope r' = false := by
          intro r' hr'
          rw [inScope, hr']
          exact decide_eq_false fun hsame => hscope hsame.symm
        exact Prod.ext (total_replace_other _ _ hout) (total_replace_other _ _ hout)

structure PinnedBy (s : Inventory) (r : PinRequest) (refs : List Ref) (t : Inventory) : Prop where
  assets : t.assets = s.assets
  entries : t.entries = s.entries
  made : ∀ p ∈ t.pins.rows, p ∈ s.pins.rows ∨ (p.pinId = r.pinId ∧ s.evictingAt p.ref ≠ some true)
  kept : ∀ p ∈ s.pins.rows, (∀ ref ∈ refs, p.key ≠ (r.pinId, ref)) → p ∈ t.pins.rows
  pinned : ∀ ref ∈ refs, ∃ row, s.assets.get ref = some row ∧ expired row.expiresAt r.now = false ∧
    s.evictingAt ref ≠ some true ∧ r.row ref row.expiresAt ∈ t.pins.rows

variable {r : PinRequest} {t : Inventory}

theorem pinOne_eq_some (h : pinOne r s ref = some t) : ∃ row,
    s.assets.get ref = some row ∧ expired row.expiresAt r.now = false ∧ s.evictingAt ref ≠ some true ∧
      t = { s with pins := s.pins.replace (r.row ref row.expiresAt) } := by
  unfold pinOne at h
  cases hrow : s.assets.get ref with
  | none =>
    rw [hrow] at h
    cases h
  | some row =>
    rw [hrow] at h
    dsimp only at h
    split at h
    · cases h
    rename_i hfree
    rw [Bool.or_eq_true, not_or, Bool.not_eq_true, Bool.not_eq_true] at hfree
    refine ⟨row, rfl, hfree.1, ?_, (Option.some.inj h).symm⟩
    intro hmarked
    obtain ⟨e, he, hevicting⟩ := Option.map_eq_some_iff.mp hmarked
    rw [he, Option.any_some, hevicting] at hfree
    exact Bool.noConfusion hfree.2

theorem mem_replace {ρ κ : Type} [DecidableEq κ] {key : ρ → κ} {t : Table key} {x y : ρ} :
    y ∈ (t.replace x).rows ↔ (y ∈ t.rows ∧ key y ≠ key x) ∨ y = x := by
  simp [Table.replace]

theorem pinnedBy_of_fold {refs : List Ref} (h : refs.foldlM (pinOne r) s = some t) :
    PinnedBy s r refs t := by
  induction refs generalizing s with
  | nil =>
    cases h
    exact ⟨rfl, rfl, fun _ => .inl, fun _ hp _ => hp, by rintro ref ⟨⟩⟩
  | cons ref refs ih =>
    rw [List.foldlM_cons] at h
    obtain ⟨u, hu, hrest⟩ := Option.bind_eq_some_iff.mp h
    obtain ⟨row, hrow, hlive, hunmarked, rfl⟩ := pinOne_eq_some hu
    have hrec := ih hrest
    have hkey : (r.row ref row.expiresAt).key = (r.pinId, ref) := rfl
    refine ⟨hrec.assets, hrec.entries, ?_, ?_, ?_⟩
    · intro p hp
      cases hrec.made p hp with
      | inr hnew => exact .inr hnew
      | inl hold =>
        cases mem_replace.mp hold with
        | inl hkept => exact .inl hkept.1
        | inr hsame =>
          rw [hsame]
          exact .inr ⟨rfl, hunmarked⟩
    · intro p hp hother
      apply hrec.kept p
      · apply mem_replace.mpr
        refine .inl ⟨hp, ?_⟩
        rw [hkey]
        exact hother ref List.mem_cons_self
      · exact fun k hk => hother k (List.mem_cons_of_mem _ hk)
    · intro k hk
      by_cases hrefs : k ∈ refs
      · exact hrec.pinned k hrefs
      have hhead : k = ref := (List.mem_cons.mp hk).resolve_right hrefs
      rw [hhead]
      refine ⟨row, hrow, hlive, hunmarked, ?_⟩
      apply hrec.kept
      · exact mem_replace.mpr (.inr rfl)
      intro k' hk' hsame
      rw [hkey, Prod.mk.injEq] at hsame
      rw [hhead, hsame.2] at hrefs
      exact hrefs hk'

theorem pinnedBy_of_pin (h : s.pinResources r = some t) :
    PinnedBy (s.prunePins r.now) r r.references t := by
  unfold pinResources at h
  split at h
  · cases h
  · exact pinnedBy_of_fold (Option.filter_eq_some_iff.mp h).1

end Inventory

end GameLink.Resources

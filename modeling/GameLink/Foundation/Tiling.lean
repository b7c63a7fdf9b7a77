import Mathlib.Algebra.Order.Group.Basic
import Mathlib.Data.Finset.Max

namespace GameLink.Foundation

section

variable {α : Type} {p : α → Bool} {l : List α}

theorem one_lt_countP_of_ne {b c : α} (hb : b ∈ l) (hc : c ∈ l) (hne : b ≠ c) (hpb : p b = true) (hpc : p c = true) :
    1 < l.countP p := by
  induction l with
  | nil => cases hb
  | cons a l ih =>
    rcases List.mem_cons.mp hb with hba | hbl
    · have hcl : c ∈ l := (List.mem_cons.mp hc).resolve_left fun hca => hne (hba.trans hca.symm)
      have hpos : 0 < l.countP p := List.countP_pos_iff.mpr ⟨c, hcl, hpc⟩
      rw [List.countP_cons_of_pos (by rw [← hba, hpb])]
      omega
    rcases List.mem_cons.mp hc with hca | hcl
    · have hpos : 0 < l.countP p := List.countP_pos_iff.mpr ⟨b, hbl, hpb⟩
      rw [List.countP_cons_of_pos (by rw [← hca, hpc])]
      omega
    · exact lt_of_lt_of_le (ih hbl hcl) ((List.sublist_cons_self a l).countP_le)

theorem countP_le_one_of_unique (hnodup : l.Nodup) (h : ∀ b ∈ l, ∀ c ∈ l, p b = true → p c = true → b = c) :
    l.countP p ≤ 1 := by
  induction l with
  | nil => exact Nat.zero_le 1
  | cons a l ih =>
    obtain ⟨ha, hnodup⟩ := List.nodup_cons.mp hnodup
    by_cases hp : p a = true
    · rw [List.countP_cons_of_pos hp, List.countP_eq_zero.mpr]
      intro b hb hpb
      rw [h a List.mem_cons_self b (List.mem_cons_of_mem _ hb) hp hpb] at ha
      exact ha hb
    · rw [List.countP_cons_of_neg hp]
      exact ih hnodup fun b hb c hc => h b (List.mem_cons_of_mem _ hb) c (List.mem_cons_of_mem _ hc)

end

variable {α : Type} [AddCommGroup α] [LinearOrder α] {L t : α} {ends : List α}

/-- The interval of length `L` that ends at `b` covers `t`: it contains its start and not its end. -/
def endsCover (L t b : α) : Bool := t < b && b ≤ t + L

theorem endsCover_iff {b : α} : endsCover L t b = true ↔ t < b ∧ b ≤ t + L := by simp [endsCover]

def Spans (L : α) (ends : List α) (t : α) : Prop := (∃ b ∈ ends, b ≤ t + L) ∧ ∃ b ∈ ends, t < b

def Tiles (L : α) (ends : List α) : Prop := ∀ t, Spans L ends t → ends.countP (endsCover L t) = 1

def Spaced (L : α) (ends : List α) : Prop :=
  ends.Nodup ∧ ∀ b ∈ ends, (∃ b' ∈ ends, b < b') → b + L ∈ ends ∧ ∀ b' ∈ ends, b < b' → b + L ≤ b'

variable [IsOrderedAddMonoid α]

theorem endsCover_start (hL : 0 < L) (b : α) : endsCover L (b - L) b = true :=
  endsCover_iff.mpr ⟨sub_lt_self b hL, le_of_eq (sub_add_cancel b L).symm⟩

theorem Tiles.nodup (hL : 0 < L) (h : Tiles L ends) : ends.Nodup := by
  rw [List.nodup_iff_count_le_one]
  intro b
  by_cases hb : b ∈ ends
  · have hcover := endsCover_start hL b
    rw [← h (b - L) ⟨⟨b, hb, (endsCover_iff.mp hcover).2⟩, b, hb, (endsCover_iff.mp hcover).1⟩]
    apply List.countP_mono_left
    intro c _ hc
    rw [eq_of_beq hc]
    exact hcover
  · rw [List.count_eq_zero.mpr hb]
    exact Nat.zero_le 1

theorem Tiles.apart (hL : 0 < L) (h : Tiles L ends) {b c : α} (hb : b ∈ ends) (hc : c ∈ ends) (hlt : b < c) :
    b + L ≤ c := by
  by_contra hclose
  have hcover : endsCover L (c - L) b = true :=
    endsCover_iff.mpr ⟨sub_lt_iff_lt_add.mpr (lt_of_not_ge hclose), by rw [sub_add_cancel]; exact hlt.le⟩
  have hcover' := endsCover_start hL c
  have hone := h (c - L) ⟨⟨c, hc, (endsCover_iff.mp hcover').2⟩, b, hb, (endsCover_iff.mp hcover).1⟩
  have htwo := one_lt_countP_of_ne hb hc hlt.ne hcover hcover'
  omega

theorem Tiles.spaced (hL : 0 < L) (h : Tiles L ends) : Spaced L ends := by
  refine ⟨h.nodup hL, fun b hb ⟨last, hlast, hlt⟩ => ⟨?_, fun c hc hbc => h.apart hL hb hc hbc⟩⟩
  have hone := h b ⟨⟨b, hb, le_add_of_nonneg_right hL.le⟩, last, hlast, hlt⟩
  obtain ⟨c, hc, hcover⟩ := List.countP_pos_iff.mp (by omega : 0 < ends.countP (endsCover L b))
  obtain ⟨hbc, hle⟩ := endsCover_iff.mp hcover
  rw [le_antisymm (h.apart hL hb hc hbc) hle]
  exact hc

theorem Spaced.first_covers (hL : 0 < L) (h : Spaced L ends) {first b : α} (hfirst : first ∈ ends)
    (hleast : ∀ c ∈ ends, t < c → first ≤ c) (hb : b ∈ ends) (hle : b ≤ t + L) : first ≤ t + L := by
  by_contra hfar
  -- The greatest end below the first one would be followed by an end after `t` before it.
  have hbelow : b ∈ ends.toFinset.filter (· < first) :=
    Finset.mem_filter.mpr ⟨List.mem_toFinset.mpr hb, lt_of_le_of_lt hle (lt_of_not_ge hfar)⟩
  obtain ⟨c, hc, hgreatest⟩ := Finset.exists_max_image _ id ⟨b, hbelow⟩
  obtain ⟨hc, hlt⟩ := Finset.mem_filter.mp hc
  obtain ⟨hnext, hapart⟩ := h.2 c (List.mem_toFinset.mp hc) ⟨first, hfirst, hlt⟩
  have hend : c + L = first := by
    refine le_antisymm (hapart first hfirst hlt) ?_
    by_contra hshort
    have hle := hgreatest (c + L) (Finset.mem_filter.mpr ⟨List.mem_toFinset.mpr hnext, lt_of_not_ge hshort⟩)
    exact absurd hle (not_le.mpr (lt_add_of_pos_right c hL))
  have hafter : t < c := by
    rw [← hend] at hfar
    exact lt_of_add_lt_add_right (lt_of_not_ge hfar)
  exact absurd (hleast c (List.mem_toFinset.mp hc) hafter) (not_le.mpr hlt)

theorem Spaced.tiles (hL : 0 < L) (h : Spaced L ends) : Tiles L ends := by
  rintro t ⟨⟨b, hb, hle⟩, last, hlast, hlt⟩
  have hafter : last ∈ ends.toFinset.filter (t < ·) := Finset.mem_filter.mpr ⟨List.mem_toFinset.mpr hlast, hlt⟩
  obtain ⟨first, hfirst, hleast⟩ := Finset.exists_min_image _ id ⟨last, hafter⟩
  obtain ⟨hfirst, hltfirst⟩ := Finset.mem_filter.mp hfirst
  have hmem := List.mem_toFinset.mp hfirst
  have hcover : endsCover L t first = true := by
    refine endsCover_iff.mpr ⟨hltfirst, h.first_covers hL hmem (fun c hc hct => ?_) hb hle⟩
    exact hleast c (Finset.mem_filter.mpr ⟨List.mem_toFinset.mpr hc, hct⟩)
  have hpos : 0 < ends.countP (endsCover L t) := List.countP_pos_iff.mpr ⟨first, hmem, hcover⟩
  have hone : ends.countP (endsCover L t) ≤ 1 := by
    refine countP_le_one_of_unique h.1 fun c hc d hd hpc hpd => ?_
    -- Two ends after `t` and at most one length away are less than one length apart.
    have hclose : ∀ c ∈ ends, ∀ d ∈ ends, endsCover L t c = true → endsCover L t d = true → ¬ c < d := by
      intro c hc d hd hpc hpd hcd
      have hfar := (h.2 c hc ⟨d, hd, hcd⟩).2 d hd hcd
      have hnear := (endsCover_iff.mp hpd).2
      exact absurd (hfar.trans hnear) (not_le.mpr (add_lt_add_left (endsCover_iff.mp hpc).1 L))
    exact le_antisymm (not_lt.mp (hclose d hd c hc hpd hpc)) (not_lt.mp (hclose c hc d hd hpc hpd))
  omega

theorem tiles_iff_spaced (hL : 0 < L) : Tiles L ends ↔ Spaced L ends := ⟨Tiles.spaced hL, Spaced.tiles hL⟩

end GameLink.Foundation

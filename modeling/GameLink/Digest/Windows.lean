import GameLink.Store.Schema

namespace GameLink.Digest

open Foundation Contracts Store

def inEndOrder (a b : WindowRow) : Bool :=
  a.window.utcEnd < b.window.utcEnd || (a.window.utcEnd = b.window.utcEnd && a.windowId ≤ b.windowId)

def covers (t : Instant) (w : DigestWindow) : Bool := w.utcStart ≤ t && t < w.utcEnd

def ofSchedule (profile : DigestScheduleProfile) (recipient : ConversationRef) (w : DigestWindow) : Bool :=
  w.scheduleProfile = some profile && w.scheduleRecipient = some recipient

theorem inEndOrder_total (a b : WindowRow) : inEndOrder a b = true ∨ inEndOrder b a = true := by
  simp only [inEndOrder, Bool.or_eq_true, Bool.and_eq_true, decide_eq_true_eq]
  rcases lt_trichotomy a.window.utcEnd b.window.utcEnd with h | h | h
  · exact .inl (.inl h)
  · rcases String.le_total a.windowId b.windowId with hid | hid
    · exact .inl (.inr ⟨h, hid⟩)
    · exact .inr (.inr ⟨h.symm, hid⟩)
  · exact .inr (.inl h)

theorem inEndOrder_trans (a b c : WindowRow) (hab : inEndOrder a b = true) (hbc : inEndOrder b c = true) :
    inEndOrder a c = true := by
  simp only [inEndOrder, Bool.or_eq_true, Bool.and_eq_true, decide_eq_true_eq] at hab hbc ⊢
  rcases hab with hab | ⟨hab, hid⟩
  · rcases hbc with hbc | ⟨hbc, -⟩
    · exact .inl (hab.trans hbc)
    · exact .inl (hab.trans_eq hbc)
  rcases hbc with hbc | ⟨hbc, hid'⟩
  · exact .inl (hab.trans_lt hbc)
  · exact .inr ⟨hab.trans hbc, String.le_trans hid hid'⟩

theorem inEndOrder_utcEnd {a b : WindowRow} (h : inEndOrder a b = true) : a.window.utcEnd ≤ b.window.utcEnd := by
  simp only [inEndOrder, Bool.or_eq_true, Bool.and_eq_true, decide_eq_true_eq] at h
  rcases h with h | h
  · exact h.le
  · exact h.1.le

theorem find_first {α : Type} {r : α → α → Prop} {p : α → Bool} {l : List α} (hl : l.Pairwise r) {x y : α}
    (hx : l.find? p = some x) (hy : y ∈ l) (hp : p y = true) : x = y ∨ r x y := by
  induction l with
  | nil => cases hy
  | cons a l ih =>
    obtain ⟨ha, hl⟩ := List.pairwise_cons.mp hl
    by_cases hpa : p a = true
    · rw [List.find?_cons_of_pos hpa] at hx
      rw [← Option.some.inj hx]
      exact (List.mem_cons.mp hy).imp Eq.symm (ha y)
    rw [List.find?_cons_of_neg hpa] at hx
    rcases List.mem_cons.mp hy with rfl | hy
    · exact absurd hp hpa
    · exact ih hl hx hy

variable [Hashing]

def forSchedule (s : Database) (profile : DigestScheduleProfile) (recipient : ConversationRef) (eventAt : Instant) :
    Option DigestWindow :=
  let rows := (s.windows.rows.filter fun r => covers eventAt r.window).insertionSort fun a b => inEndOrder a b = true
  (rows.map WindowRow.window).find? (ofSchedule profile recipient)

variable {s : Database} {profile : DigestScheduleProfile} {recipient : ConversationRef} {t : Instant}

theorem forSchedule_eq_some {w : DigestWindow} (h : forSchedule s profile recipient t = some w) :
    (∃ row ∈ s.windows.rows, row.window = w) ∧ covers t w = true ∧ ofSchedule profile recipient w = true ∧
      ∀ row ∈ s.windows.rows, covers t row.window = true → ofSchedule profile recipient row.window = true →
        w.utcEnd ≤ row.window.utcEnd := by
  unfold forSchedule at h
  rw [List.find?_map] at h
  obtain ⟨row, hfound, rfl⟩ := Option.map_eq_some_iff.mp h
  have hmem : ∀ row, row ∈ (s.windows.rows.filter fun r => covers t r.window).insertionSort (fun a b => inEndOrder a b = true)
      ↔ row ∈ s.windows.rows ∧ covers t row.window = true := by
    intro row
    rw [(List.perm_insertionSort _ _).mem_iff, List.mem_filter]
  obtain ⟨hrow, hcovers⟩ := (hmem row).mp (List.mem_of_find?_eq_some hfound)
  refine ⟨⟨row, hrow, rfl⟩, hcovers, List.find?_some (p := ofSchedule profile recipient ∘ WindowRow.window) hfound,
    fun other hother hcovers' hschedule => ?_⟩
  have : Std.Total fun a b : WindowRow => inEndOrder a b = true := ⟨inEndOrder_total⟩
  have : IsTrans WindowRow fun a b => inEndOrder a b = true := ⟨inEndOrder_trans⟩
  rcases find_first (List.pairwise_insertionSort _ _) hfound ((hmem other).mpr ⟨hother, hcovers'⟩) hschedule with
    rfl | hbefore
  · exact le_rfl
  · exact inEndOrder_utcEnd hbefore

theorem forSchedule_isSome {row : WindowRow} (hrow : row ∈ s.windows.rows) (hcovers : covers t row.window = true)
    (hschedule : ofSchedule profile recipient row.window = true) : ∃ w, forSchedule s profile recipient t = some w := by
  unfold forSchedule
  rw [← Option.isSome_iff_exists, List.find?_isSome]
  refine ⟨row.window, List.mem_map.mpr ⟨row, ?_, rfl⟩, hschedule⟩
  rw [(List.perm_insertionSort _ _).mem_iff, List.mem_filter]
  exact ⟨hrow, hcovers⟩

end GameLink.Digest

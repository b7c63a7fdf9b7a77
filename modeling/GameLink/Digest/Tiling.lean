import GameLink.Digest.Pages
import GameLink.Foundation.Tiling
import GameLink.Store.Fences
import Mathlib.Tactic.Linarith
import Mathlib.Tactic.Ring

namespace GameLink.Digest

open Foundation Work Contracts Store

section

variable {zones : String → ZoneInfo} {profile : DigestScheduleProfile} {dates : List LocalDate}

def Unbroken (dates : List LocalDate) : Prop :=
  ∀ d ∈ dates, (∃ d' ∈ dates, d.ordinal < d'.ordinal) → ∃ next ∈ dates, next.ordinal = d.ordinal + 1

def Regular (zones : String → ZoneInfo) (profile : DigestScheduleProfile) (dates : List LocalDate) : Prop :=
  ∃ minutes offset, minuteOfDay profile.localTime = .ok minutes ∧
    (∀ d ∈ dates, Shown (zones profile.timezoneName) (wallTime d minutes)) ∧
    ∀ d ∈ dates, ∀ b, boundary zones profile d = some b → (zones profile.timezoneName).utcOffset b = offset

theorem resolveWall_of_shown {zone : ZoneInfo} {wall : ℤ} (h : Shown zone wall) (profile : DigestScheduleProfile) :
    ∃ b, resolveWall zone profile wall = .ok (some b) := by
  obtain ⟨fold, shown, hfold⟩ := h
  unfold resolveWall
  split
  · exact ⟨_, rfl⟩
  · exact ⟨_, rfl⟩
  · exact ⟨_, rfl⟩
  rename_i hfirst hsecond
  cases fold with
  | false => rw [hfirst] at hfold; cases hfold
  | true => rw [hsecond] at hfold; cases hfold

theorem Regular.boundary_eq (h : Regular zones profile dates) :
    ∃ origin : ℤ, ∀ d ∈ dates, boundary zones profile d = some (d.ordinal * day + origin) := by
  obtain ⟨minutes, offset, hminutes, hshown, hoffset⟩ := h
  refine ⟨minutes * minute - offset, fun d hd => ?_⟩
  obtain ⟨b, hb⟩ := resolveWall_of_shown (hshown d hd) profile
  have hresolve : resolveLocalBoundary zones d profile = .ok (some b) := by
    simp only [resolveLocalBoundary, hminutes, bind, Except.bind]
    exact hb
  have hboundary := boundary_eq_some.mpr hresolve
  have hwall := resolveWall_shows (hshown d hd) hb
  rw [hoffset d hd b hboundary] at hwall
  rw [hboundary, Option.some.injEq]
  unfold wallTime at hwall
  linarith

theorem Regular.spaced (h : Regular zones profile dates) (hdates : dates.Nodup) (hunbroken : Unbroken dates) :
    Spaced day (dates.filterMap (boundary zones profile)) := by
  obtain ⟨origin, horigin⟩ := h.boundary_eq
  have hends : dates.filterMap (boundary zones profile) = dates.map fun d => d.ordinal * day + origin := by
    rw [← List.filterMap_eq_map]
    exact List.filterMap_congr horigin
  have hday : (0 : ℤ) < day := by decide
  have hlt : ∀ d d' : LocalDate, d.ordinal * day + origin < d'.ordinal * day + origin ↔ d.ordinal < d'.ordinal := by
    intro d d'
    rw [add_lt_add_iff_right, mul_lt_mul_iff_left₀ hday]
  rw [hends]
  refine ⟨hdates.map fun d d' hsame => LocalDate.ext ?_, fun b hb hlater => ?_⟩
  · exact mul_right_cancel₀ hday.ne' (add_right_cancel hsame)
  obtain ⟨d, hd, rfl⟩ := List.mem_map.mp hb
  obtain ⟨_, hmem, hbefore⟩ := hlater
  obtain ⟨later, hlater, rfl⟩ := List.mem_map.mp hmem
  obtain ⟨next, hnext, hordinal⟩ := hunbroken d hd ⟨later, hlater, (hlt d later).mp hbefore⟩
  have hstep : next.ordinal * day + origin = d.ordinal * day + origin + day := by
    rw [hordinal]
    ring
  refine ⟨List.mem_map.mpr ⟨next, hnext, hstep⟩, fun c hc hbc => ?_⟩
  obtain ⟨after, hafter, rfl⟩ := List.mem_map.mp hc
  have hordinals : next.ordinal ≤ after.ordinal := by
    rw [hordinal]
    exact (hlt d after).mp hbc
  rw [← hstep]
  exact add_le_add_left (mul_le_mul_of_nonneg_right hordinals hday.le) origin

end

section

variable [Hashing]

def Materialised (zones : String → ZoneInfo) (profile : DigestScheduleProfile) (recipient : ConversationRef)
    (dates : List LocalDate) (s : Database) : Prop :=
  ∀ w ∈ spanWindows zones profile recipient dates, ∃ row ∈ s.windows.rows, row.window = w

def WithinSpan (ws : List DigestWindow) (t : Instant) : Prop :=
  (∃ w ∈ ws, w.utcStart ≤ t) ∧ ∃ w ∈ ws, t < w.utcEnd

variable {zones : String → ZoneInfo} {profile : DigestScheduleProfile} {recipient : ConversationRef}
  {dates : List LocalDate} {s : Database} {t : Instant}

theorem mem_spanWindows {w : DigestWindow} : w ∈ spanWindows zones profile recipient dates ↔
    ∃ d ∈ dates, ∃ b, boundary zones profile d = some b ∧ w = windowAt profile recipient d b := by
  simp only [spanWindows, List.mem_filterMap, Option.map_eq_some_iff]
  exact ⟨fun ⟨d, hd, b, hb, hw⟩ => ⟨d, hd, b, hb, hw.symm⟩, fun ⟨d, hd, b, hb, hw⟩ => ⟨d, hd, b, hb, hw.symm⟩⟩

section

variable (hday : profile.windowDurationSeconds = 86400)
include hday

theorem covers_windowAt (d : LocalDate) (b : Instant) :
    covers t (windowAt profile recipient d b) = endsCover day t b := by
  have hstart : (windowAt profile recipient d b).utcStart = b - day := by
    simp only [windowAt, hday, day]
    rfl
  unfold covers endsCover
  rw [hstart, Bool.and_comm]
  congr 1
  rw [decide_eq_decide]
  exact sub_le_iff_le_add

theorem countP_covers (t : Instant) :
    (spanWindows zones profile recipient dates).countP (covers t) =
      (dates.filterMap (boundary zones profile)).countP (endsCover day t) := by
  unfold spanWindows
  rw [List.countP_filterMap, List.countP_filterMap]
  apply List.countP_congr
  intro d _
  cases boundary zones profile d with
  | none => rfl
  | some b => simp [covers_windowAt hday]

theorem withinSpan_iff (t : Instant) :
    WithinSpan (spanWindows zones profile recipient dates) t ↔
      Spans day (dates.filterMap (boundary zones profile)) t := by
  have hstart : ∀ d b, (windowAt profile recipient d b).utcStart ≤ t ↔ b ≤ t + day := by
    intro d b
    simp only [windowAt, hday, day]
    exact sub_le_iff_le_add
  simp only [WithinSpan, Spans, mem_spanWindows, List.mem_filterMap]
  constructor
  · rintro ⟨⟨_, ⟨d, hd, b, hb, rfl⟩, hle⟩, _, ⟨d', hd', b', hb', rfl⟩, hlt⟩
    exact ⟨⟨b, ⟨d, hd, hb⟩, (hstart d b).mp hle⟩, b', ⟨d', hd', hb'⟩, hlt⟩
  · rintro ⟨⟨b, ⟨d, hd, hb⟩, hle⟩, b', ⟨d', hd', hb'⟩, hlt⟩
    exact ⟨⟨_, ⟨d, hd, b, hb, rfl⟩, (hstart d b).mpr hle⟩, _, ⟨d', hd', b', hb', rfl⟩, hlt⟩

end

theorem nodup_spanWindows (hdates : dates.Nodup) : (spanWindows zones profile recipient dates).Nodup := by
  refine List.Nodup.filterMap (fun d d' w hw hw' => ?_) hdates
  obtain ⟨b, -, rfl⟩ := Option.map_eq_some_iff.mp hw
  obtain ⟨b', -, hsame⟩ := Option.map_eq_some_iff.mp hw'
  exact LocalDate.isoformat_injective (congrArg DigestWindow.localScheduleKey hsame.symm)

theorem page_stores {current : SubscriptionRecord → Option LocalDate → Option SubscriptionRecord}
    {candidate record : SubscriptionRecord} (hschedule : activeSchedule record = .ok profile)
    (hcurrent : ∀ d, current candidate d = some record)
    (hdue : ∀ d ∈ dates, ∃ due, resolveLocalBoundary zones d profile = .ok due)
    (hids : (dates.map (digestWindowId profile record.recipient)).Nodup)
    (hfree : ∀ d ∈ dates, s.windows.get (digestWindowId profile record.recipient d) = none)
    (now : SubscriptionRecord → Instant) (lookback : ℕ) :
    (createDigestWindowsPage zones current now lookback (some dates) [candidate] ⟨s, []⟩).2.store.windows.rows =
      s.windows.rows ++ (spanWindows zones profile record.recipient dates).map windowRow := by
  obtain ⟨u', hg, hrows⟩ := createForDates_stores (u := ⟨s, []⟩) hschedule (fun d => hcurrent (some d)) hdue hids hfree
  have hcandidate : (createForCandidate zones current (now candidate) lookback (some dates) candidate).Gives ⟨s, []⟩ () u' := by
    unfold createForCandidate
    rw [hcurrent]
    exact gives_bind.mpr ⟨dates, _, gives_ofExcept.mpr ⟨rfl, rfl⟩, hg⟩
  have hpage : (createDigestWindowsPage zones current now lookback (some dates) [candidate]).Gives ⟨s, []⟩ () u' :=
    gives_bind.mpr ⟨(), u', gives_rescue.mpr (.inl hcandidate), gives_pure.mpr ⟨rfl, rfl⟩⟩
  rw [hpage]
  exact hrows

/-- The windows of a span tile it exactly when its boundaries are a day apart, and `for_schedule` finds the first
to end of those that cover an instant. -/
theorem digest_windows_tile (hrun : (windowPages zones).Reachable s) (hday : profile.windowDurationSeconds = 86400)
    (hdates : dates.Nodup) (hspan : Materialised zones profile recipient dates s) :
    (spanWindows zones profile recipient dates).Nodup ∧
    (∀ t, (spanWindows zones profile recipient dates).countP (covers t) =
      (dates.filterMap (boundary zones profile)).countP (endsCover day t)) ∧
    ((∀ t, WithinSpan (spanWindows zones profile recipient dates) t →
        (spanWindows zones profile recipient dates).countP (covers t) = 1) ↔
      Spaced day (dates.filterMap (boundary zones profile))) ∧
    (Regular zones profile dates → Unbroken dates → Spaced day (dates.filterMap (boundary zones profile))) ∧
    (∀ t, 0 < (spanWindows zones profile recipient dates).countP (covers t) →
      ∃ w, forSchedule s profile recipient t = some w ∧
        ∀ w' ∈ spanWindows zones profile recipient dates, covers t w' = true → w.utcEnd ≤ w'.utcEnd) ∧
    ∀ t w, forSchedule s profile recipient t = some w → covers t w = true ∧
      ∃ d b, boundary zones profile d = some b ∧ w = windowAt profile recipient d b := by
  have hschedule : ∀ w ∈ spanWindows zones profile recipient dates, ofSchedule profile recipient w = true := by
    intro w hw
    obtain ⟨d, -, b, -, rfl⟩ := mem_spanWindows.mp hw
    simp [ofSchedule, windowAt]
  refine ⟨nodup_spanWindows hdates, countP_covers hday, ?_, fun h hunbroken => h.spaced hdates hunbroken, fun t ht => ?_,
    fun t w hw => ?_⟩
  · simp only [withinSpan_iff hday, countP_covers hday]
    exact tiles_iff_spaced (by decide : (0 : ℤ) < day)
  · obtain ⟨w, hw, hcovers⟩ := List.countP_pos_iff.mp ht
    obtain ⟨row, hrow, rfl⟩ := hspan w hw
    obtain ⟨found, hfound⟩ := forSchedule_isSome hrow hcovers (hschedule _ hw)
    refine ⟨found, hfound, fun w' hw' hcovers' => ?_⟩
    obtain ⟨row', hrow', rfl⟩ := hspan w' hw'
    exact (forSchedule_eq_some hfound).2.2.2 row' hrow' hcovers' (hschedule _ hw')
  · obtain ⟨⟨row, hrow, rfl⟩, hcovers, hofSchedule, -⟩ := forSchedule_eq_some hw
    simp only [ofSchedule, Bool.and_eq_true, decide_eq_true_eq] at hofSchedule
    obtain ⟨p, r, d, b, hb, hwindow⟩ := windowPages_scheduled hrun row hrow (by rw [hofSchedule.1]; exact nofun)
    rw [hwindow] at hofSchedule
    obtain rfl : p = profile := Option.some.inj hofSchedule.1
    obtain rfl : r = recipient := Option.some.inj hofSchedule.2
    exact ⟨hcovers, d, b, boundary_eq_some.mpr hb, hwindow⟩

end

/-! The windows at 08:00 in New York around the end of summer time in 2024. -/

namespace Sample

def digests : List (String × String) :=
  [("\x7b\"local_date\":\"2024-11-02\",\"profile\":\x7b\"duration\":86400,\"fold\":\"first_occurrence\",\"gap\":\"skip\",\"revision\":1,\"time\":\"08:00\",\"timezone\":\"America/New_York\"\x7d,\"recipient\":[\"a\",\"direct\",\"c\",\"r\"]\x7d",
    "570ad44beb197c5d926e884f1e2940aaa1eb8e174e2160d9d100144a99f83049"),
   ("\x7b\"local_date\":\"2024-11-03\",\"profile\":\x7b\"duration\":86400,\"fold\":\"first_occurrence\",\"gap\":\"skip\",\"revision\":1,\"time\":\"08:00\",\"timezone\":\"America/New_York\"\x7d,\"recipient\":[\"a\",\"direct\",\"c\",\"r\"]\x7d",
    "31dc370a02af4176cfd5983343fbb949928068b358306e9c72addb8506cf4a74")]

@[reducible]
def hashing : Hashing := ⟨fun text => (digests.lookup text).getD ""⟩

attribute [local instance] hashing

def newYork : ZoneInfo :=
  .ofTransitions (-5 * 3600 * second) [(1710054000 * second, -4 * 3600 * second), (1730613600 * second, -5 * 3600 * second)]

def zones : String → ZoneInfo := fun _ => newYork

def profile : DigestScheduleProfile := ⟨"America/New_York", "08:00", 86400, .firstOccurrence, .skip, 1⟩

def record : SubscriptionRecord := { Store.Sample.record with digestSchedule := some profile }

def november : List LocalDate := [⟨20029, by decide +kernel⟩, ⟨20030, by decide +kernel⟩]

def start : Database :=
  ⟨Store.Sample.gates, .empty, .empty, .empty, .empty, .empty, .empty, .empty, .empty, .empty, .empty, .empty, .empty,
    .empty, .empty⟩

def standing : SubscriptionRecord → Option LocalDate → Option SubscriptionRecord := fun candidate _ => some candidate

def paged (dates : List LocalDate) : Database :=
  (windowPages zones).next start (.page standing (fun _ => 0) 0 (some dates) [record])

variable (dates : List LocalDate)

theorem paged_reachable : (windowPages zones).Reachable (paged dates) := by
  refine System.Reachable.next (.of_start ?_) _ trivial
  exact fun row hrow => by cases hrow

theorem november_boundaries : november.filterMap (boundary zones profile) =
    [20029 * day + 720 * minute, 20030 * day + 780 * minute] := by decide +kernel

theorem november_resolves : ∀ d ∈ november, ∃ due, resolveLocalBoundary zones d profile = .ok due := by
  intro d hd
  have hlength : (november.filterMap (boundary zones profile)).length = november.length := by
    rw [november_boundaries]
    rfl
  have hsome := List.filterMap_length_eq_length.mp hlength d hd
  obtain ⟨b, hb⟩ := Option.isSome_iff_exists.mp hsome
  exact ⟨some b, boundary_eq_some.mp hb⟩

set_option maxRecDepth 10000 in
theorem identities : (windowIdentity profile record.recipient ⟨20029, by decide⟩).dumpsAscii = digests[0]!.1 ∧
    (windowIdentity profile record.recipient ⟨20030, by decide⟩).dumpsAscii = digests[1]!.1 := by
  rw [Json.dumpsAscii_eq, Json.dumpsAscii_eq]
  constructor
  · refine congrArg String.ofList ?_
    decide +kernel
  · refine congrArg String.ofList ?_
    decide +kernel

theorem november_ids : (november.map (digestWindowId profile record.recipient)).Nodup := by
  have hne : digestWindowId profile record.recipient ⟨20029, by decide⟩ ≠
      digestWindowId profile record.recipient ⟨20030, by decide⟩ := by
    unfold digestWindowId
    rw [identities.1, identities.2]
    simp [Hashing.sha256, digests, List.lookup_cons]
  exact List.nodup_cons.mpr ⟨fun h => hne (List.mem_singleton.mp h), List.nodup_singleton _⟩

theorem paged_eq : paged dates =
    (createDigestWindowsPage zones standing (fun _ => 0) 0 (some dates) [record] ⟨start, []⟩).2.store := rfl

theorem november_rows : (paged november).windows.rows =
    (spanWindows zones profile record.recipient november).map windowRow := by
  have hschedule : activeSchedule record = .ok profile := rfl
  have hcurrent : ∀ d, standing record d = some record := fun _ => rfl
  have hstored := page_stores (s := start) hschedule hcurrent november_resolves november_ids
    (fun _ _ => Table.get_empty _) (fun _ => 0) 0
  rw [paged_eq, hstored]
  exact List.nil_append _

theorem november_materialised : Materialised zones profile record.recipient november (paged november) := by
  intro w hw
  rw [november_rows]
  exact ⟨windowRow w, List.mem_map.mpr ⟨w, hw, rfl⟩, rfl⟩

theorem unbroken_pair {d d' : LocalDate} (h : d'.ordinal = d.ordinal + 1) : Unbroken [d, d'] := by
  intro e he hlater
  rcases List.mem_pair.mp he with rfl | rfl
  · exact ⟨d', by simp, h⟩
  obtain ⟨f, hf, hlt⟩ := hlater
  rcases List.mem_pair.mp hf with rfl | rfl
  · omega
  · omega

end Sample

attribute [local instance] Sample.hashing

/-- The end of summer time leaves an hour without a window, and `for_schedule` finds none in it. -/
theorem windows_do_not_tile : ∃ zones s profile recipient dates t, (windowPages zones).Reachable s ∧
    profile.windowDurationSeconds = 86400 ∧ dates.Nodup ∧ Unbroken dates ∧
    Materialised zones profile recipient dates s ∧ WithinSpan (spanWindows zones profile recipient dates) t ∧
    (spanWindows zones profile recipient dates).countP (covers t) = 0 ∧ forSchedule s profile recipient t = none := by
  have hday : Sample.profile.windowDurationSeconds = 86400 := rfl
  have hnone : (spanWindows Sample.zones Sample.profile Sample.record.recipient Sample.november).countP
      (covers (20029 * day + 720 * minute)) = 0 := by
    rw [countP_covers hday, Sample.november_boundaries]
    decide
  refine ⟨Sample.zones, Sample.paged Sample.november, Sample.profile, Sample.record.recipient, Sample.november,
    20029 * day + 720 * minute, Sample.paged_reachable _, hday, by decide, Sample.unbroken_pair rfl,
    Sample.november_materialised, ?_, ?_, ?_⟩
  · rw [withinSpan_iff hday, Sample.november_boundaries]
    unfold Spans
    decide
  · exact hnone
  cases hfound : forSchedule (Sample.paged Sample.november) Sample.profile Sample.record.recipient
      (20029 * day + 720 * minute) with
  | none => rfl
  | some w =>
    obtain ⟨⟨row, hrow, rfl⟩, hcovers, -⟩ := forSchedule_eq_some hfound
    rw [Sample.november_rows] at hrow
    obtain ⟨w, hw, rfl⟩ := List.mem_map.mp hrow
    exact absurd hcovers (List.countP_eq_zero.mp hnone w hw)

/-- An instant of November 2 that one window covers. -/
theorem digest_windows_tile_one_span :
    ∃ w, forSchedule (Sample.paged Sample.november) Sample.profile Sample.record.recipient (20029 * day) = some w ∧
      ∀ w' ∈ spanWindows Sample.zones Sample.profile Sample.record.recipient Sample.november,
        covers (20029 * day) w' = true → w.utcEnd ≤ w'.utcEnd := by
  refine (digest_windows_tile (Sample.paged_reachable Sample.november) rfl (by decide)
    Sample.november_materialised).2.2.2.2.1 _ ?_
  rw [countP_covers rfl, Sample.november_boundaries]
  decide

end GameLink.Digest

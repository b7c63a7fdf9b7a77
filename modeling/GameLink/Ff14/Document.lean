import GameLink.Foundation.Transaction
import GameLink.Ff14.Evaluator

namespace GameLink.Ff14

open Foundation Contracts Digest

/-! The document of a summary. -/

variable {dateutil : Dateutil}

variable {zone : ZoneInfo} {snapshot : CalendarSnapshot} {localDate : LocalDate}

theorem document_localDate {timezoneName : String} {days : ℤ} {now : Instant} {document : CalendarDocument}
    (h : buildCalendarDocument dateutil zone timezoneName snapshot localDate days now = .ok document) :
    document.localDate = localDate := by
  unfold buildCalendarDocument at h
  simp only [bind_eq_ok] at h
  obtain ⟨_, _, _, _, _, _, _, _, h⟩ := h
  cases h
  rfl

def Displayable (dateutil : Dateutil) (zone : ZoneInfo) : Span → Prop
  | .allDay first last => (∃ t, midnightInstant dateutil first zone = .ok t) ∧ ∃ d, addDays last (-1) = .ok d
  | .timed first last => (∃ w, toZone zone first.instant = .ok w) ∧ ∃ w, toZone zone last.instant = .ok w

theorem utc_returns {t : Aware} {wall : ℤ} (h : toZone zone t.instant = .ok wall) :
    t.utc = .ok t.instant := (toZone_eq_ok h).1

theorem selectOccurrences_returns (localDate localEndDate : LocalDate)
    (startAt endAt now : Instant) {occurrences : List RawOccurrence}
    (h : ∀ raw ∈ occurrences, ∀ item, asDisplayOccurrence raw = .ok item → Displayable dateutil zone item.span) :
    ∃ selected, selectOccurrences localDate localEndDate startAt endAt now occurrences = .ok selected ∧
      ∀ item ∈ selected, Displayable dateutil zone item.span := by
  induction occurrences with
  | nil => exact ⟨[], rfl, fun item hitem => by cases hitem⟩
  | cons raw rest ih =>
    obtain ⟨selected, hselected, hshown⟩ := ih fun raw hraw => h raw (List.mem_cons_of_mem _ hraw)
    unfold selectOccurrences
    split
    · exact ⟨selected, hselected, hshown⟩
    rename_i item hitem
    have hdisplayable := h raw List.mem_cons_self item hitem
    split
    · exact ⟨selected, hselected, hshown⟩
    have hselects : ∃ b, selects localDate localEndDate startAt endAt now item.span = .ok b := by
      unfold selects
      cases hspan : item.span with
      | allDay first last => exact ⟨_, rfl⟩
      | timed first last =>
        rw [hspan] at hdisplayable
        obtain ⟨⟨_, hfirst⟩, _, hlast⟩ := hdisplayable
        dsimp only
        rw [utc_returns hfirst, utc_returns hlast]
        dsimp only
        split
        · exact ⟨_, rfl⟩
        · exact ⟨_, rfl⟩
    obtain ⟨b, hb⟩ := hselects
    rw [hb, hselected]
    cases b with
    | false => exact ⟨selected, rfl, hshown⟩
    | true =>
      refine ⟨item :: selected, rfl, ?_⟩
      intro other hother
      cases List.mem_cons.mp hother with
      | inl heq => rw [heq]; exact hdisplayable
      | inr hmem => exact hshown other hmem

variable {item : DisplayOccurrence}

theorem keyed_returns (h : Displayable dateutil zone item.span) : ∃ k, keyed dateutil zone item = .ok k := by
  unfold keyed sortKey
  cases hspan : item.span with
  | allDay first last =>
    rw [hspan] at h
    obtain ⟨⟨t, ht⟩, -⟩ := h
    dsimp only
    rw [ht]
    exact ⟨_, rfl⟩
  | timed first last =>
    rw [hspan] at h
    obtain ⟨⟨w, hw⟩, -⟩ := h
    dsimp only
    rw [utc_returns hw]
    exact ⟨_, rfl⟩

theorem keyed_item
    {k : (Instant × String) × DisplayOccurrence} (h : keyed dateutil zone item = .ok k) : k.2 = item := by
  unfold keyed at h
  split at h
  · cases h; rfl
  · cases h

theorem mapM_keyed {items : List DisplayOccurrence}
    {keys : List ((Instant × String) × DisplayOccurrence)} (h : items.mapM (keyed dateutil zone) = .ok keys) :
    keys.map Prod.snd = items := by
  induction items generalizing keys with
  | nil => cases h; rfl
  | cons item items ih =>
    rw [List.mapM_cons] at h
    simp only [bind_eq_ok] at h
    obtain ⟨k, hk, ks, hks, h⟩ := h
    cases h
    rw [List.map_cons, keyed_item hk, ih hks]

theorem documentRow_returns (localNow : ℤ) (now : Instant) (h : Displayable dateutil zone item.span) :
    ∃ row, documentRow zone localNow now item = .ok row := by
  have hstart : ∃ shown, formatStart zone item.span = .ok shown := by
    unfold formatStart
    cases hspan : item.span with
    | allDay first last => exact ⟨_, rfl⟩
    | timed first last =>
      rw [hspan] at h
      obtain ⟨⟨w, hw⟩, -⟩ := h
      dsimp only
      rw [hw]
      exact ⟨_, rfl⟩
  have hstop : ∃ shown, formatEnd zone item.span = .ok shown := by
    unfold formatEnd
    cases hspan : item.span with
    | allDay first last =>
      rw [hspan] at h
      obtain ⟨-, d, hd⟩ := h
      dsimp only
      rw [hd]
      exact ⟨_, rfl⟩
    | timed first last =>
      rw [hspan] at h
      obtain ⟨-, w, hw⟩ := h
      dsimp only
      rw [hw]
      split
      · exact ⟨_, rfl⟩
      · exact ⟨_, rfl⟩
  obtain ⟨start, hstart⟩ := hstart
  obtain ⟨stop, hstop⟩ := hstop
  unfold documentRow
  rw [hstart, hstop]
  exact ⟨_, rfl⟩

theorem buildCalendarDocument_returns (timezoneName : String) {now : Instant} {localNow : ℤ} {b : Bool}
    (hcovers : coversWindow dateutil zone snapshot localDate = .ok b) (hnow : toZone zone now = .ok localNow)
    (hfetched : ∀ t ∈ snapshot.sourceFetchedAt, ∃ w, toZone zone t.instant = .ok w)
    (h : ∀ raw ∈ snapshot.occurrences, ∀ item, asDisplayOccurrence raw = .ok item →
      Displayable dateutil zone item.span) :
    ∃ document, buildCalendarDocument dateutil zone timezoneName snapshot localDate dailyWindowDays now =
      .ok document := by
  unfold coversWindow at hcovers
  simp only [bind_eq_ok] at hcovers
  obtain ⟨startAt, hstartAt, lastDay, hlastDay, endAt, hendAt, -⟩ := hcovers
  obtain ⟨selected, hselected, hshown⟩ := selectOccurrences_returns localDate lastDay startAt endAt now h
  obtain ⟨keys, hkeys⟩ := mapM_returns fun item hitem => keyed_returns (hshown item hitem)
  have hfilter : filterOccurrences dateutil snapshot.occurrences localDate dailyWindowDays zone now =
      .ok ((keys.mergeSort keyAtMost).map Prod.snd) := by
    unfold filterOccurrences
    simp only [bind_eq_ok]
    exact ⟨lastDay, hlastDay, startAt, hstartAt, endAt, hendAt, now, (toZone_eq_ok hnow).1, selected, hselected,
      keys, hkeys, rfl⟩
  have hsorted : ∀ item ∈ ((keys.mergeSort keyAtMost).map Prod.snd).take maxDisplayEvents,
      Displayable dateutil zone item.span := by
    intro item hitem
    obtain ⟨k, hk, rfl⟩ := List.mem_map.mp (List.mem_of_mem_take hitem)
    apply hshown
    rw [← mapM_keyed hkeys]
    exact List.mem_map_of_mem ((List.mergeSort_perm keys keyAtMost).mem_iff.mp hk)
  obtain ⟨rows, hrows⟩ := mapM_returns fun item hitem =>
    documentRow_returns localNow now (hsorted item hitem)
  have hlocal : ∃ w, toZone zone ((snapshot.sourceFetchedAt.map Aware.instant).getD now) = .ok w := by
    cases hs : snapshot.sourceFetchedAt with
    | none => exact ⟨localNow, hnow⟩
    | some t => exact hfetched t hs
  obtain ⟨localFetched, hlocal⟩ := hlocal
  refine ⟨⟨localDate, dailyWindowDays, timezoneName, snapshot.sourceVariant, snapshot.sourceUrl, localFetched, rows,
    ((keys.mergeSort keyAtMost).map Prod.snd).length - maxDisplayEvents⟩, ?_⟩
  unfold buildCalendarDocument
  simp only [bind_eq_ok]
  exact ⟨_, hfilter, localNow, hnow, localFetched, hlocal, rows, hrows, rfl⟩

end GameLink.Ff14

import GameLink.Foundation.Table
import GameLink.Ff14.Series

namespace GameLink.Ff14.Ics

open Foundation Contracts Digest

/-! `parse_ics` from the parsed calendar on: the events are read into series, which are expanded one after the other. -/

structure CalendarWarning where
  code : String
  uid : Option String
  deriving DecidableEq

inductive Completeness where
  | complete
  | incomplete
  deriving DecidableEq

structure CalendarParseResult where
  sourceId : String
  completeness : Completeness
  occurrences : List CalendarOccurrence
  warnings : List CalendarWarning

def maxEvents : ℕ := 2000

def maxPropertiesPerEvent : ℕ := 128

def maxOccurrences : ℕ := 4000

def maxWarnings : ℕ := 100

structure Feed where
  name : String
  version : String
  errors : Bool
  events : List Component

def Feed.accepted (feed : Feed) : Bool := feed.name == "VCALENDAR" && feed.version == "2.0"

def addWarning (warnings : List CalendarWarning) (code : String) (uid : Option String) : List CalendarWarning :=
  if warnings.length < maxWarnings then warnings ++ [⟨code, uid⟩] else warnings

structure Reading where
  groups : List (String × List Event)
  invalid : List String
  warnings : List CalendarWarning

def Reading.refuse (r : Reading) (code : String) : Option String → Reading
  | none => { r with warnings := addWarning r.warnings code none }
  | some uid => { r with invalid := uid :: r.invalid, warnings := addWarning r.warnings code (some uid) }

structure Progress where
  output : List CalendarOccurrence
  spent : ℕ
  warnings : List CalendarWarning

def sortTime : Temporal → ℤ
  | .timed t => t.wall - t.offset
  | .date d => d.ordinal * day

def sortKey (o : CalendarOccurrence) : ℤ ×ₗ String ×ₗ (ℤ ×ₗ ℤ ×ₗ ℤ ×ₗ ℤ) :=
  toLex (sortTime o.start, toLex (o.uid, o.recurrenceIdentity.rank))

section

variable (e : Setting)

def readable (c : Component) : Except Fault Event := do
  let item ← readEvent e c
  failIf (maxPropertiesPerEvent < c.propertyItems.length) "PROPERTY_LIMIT"
  pure item

def readAll : List Component → Reading → Except Fault Reading
  | [], r => .ok r
  | c :: rest, r =>
    match readable e c with
    | .ok item => readAll rest { r with groups := appendTo r.groups item.uid item }
    | .error (.problem code _) => readAll rest (r.refuse code c.safeUid)
    | .error err => .error err

def expandGroup (revisions : List Event) (sourceBudget : ℕ) : Except Fault (List CalendarOccurrence × ℕ) := do
  let (masters, overrides) ← selectRevisions revisions
  match masters with
  | [master] =>
    if master.start.isNone then fail "INVALID_EVENT"
    else expandSeries e master overrides maxCandidatesPerUid sourceBudget
  | _ => fail "CONFLICTING_REVISION"

def expandAll : List (String × List Event) → Progress → Except Fault Progress
  | [], s => .ok s
  | (uid, revisions) :: rest, s =>
    match expandGroup e revisions (maxCandidatesPerSource - s.spent) with
    | .ok (series, used) =>
      if maxCandidatesPerSource < s.spent + used then
        .ok { s with spent := s.spent + used, warnings := addWarning s.warnings "SOURCE_BUDGET" (some uid) }
      else if maxOccurrences < s.output.length + series.length then
        .ok { s with spent := s.spent + used, warnings := addWarning s.warnings "OUTPUT_LIMIT" none }
      else expandAll rest { s with output := s.output ++ series, spent := s.spent + used }
    | .error (.problem code used) =>
      if maxCandidatesPerSource ≤ s.spent + used ∨ code = "SOURCE_BUDGET" then
        .ok { s with spent := s.spent + used, warnings := addWarning s.warnings code (some uid) }
      else expandAll rest { s with spent := s.spent + used, warnings := addWarning s.warnings code (some uid) }
    | .error err => .error err

def incompleteResult (warnings : List CalendarWarning) (code : String) : CalendarParseResult :=
  ⟨e.sourceId, .incomplete, [], (addWarning warnings code none).take maxWarnings⟩

def Reading.series (r : Reading) : List (String × List Event) := r.groups.filter fun g => !r.invalid.contains g.1

def parseIcs (feed : Feed) : Except Fault CalendarParseResult :=
  if !feed.accepted then .ok (incompleteResult e [] "MALFORMED_SOURCE")
  else
    let warnings := if feed.errors then addWarning [] "MALFORMED_SOURCE" none else []
    if maxEvents < feed.events.length then .ok (incompleteResult e warnings "EVENT_LIMIT")
    else do
      let reading ← readAll e feed.events ⟨[], [], warnings⟩
      let s ← expandAll e reading.series ⟨[], 0, reading.warnings⟩
      let completeness := if !reading.invalid.isEmpty || !s.warnings.isEmpty then .incomplete else .complete
      pure ⟨e.sourceId, completeness, s.output.insertionSort fun a b => sortKey a ≤ sortKey b, s.warnings⟩

def others (uid : String) (events : List Component) : List Component := events.filter fun c => c.safeUid != some uid

def items (events : List Component) : List Event :=
  events.filterMap fun c =>
    match readable e c with
    | .ok item => some item
    | .error _ => none

def refused (c : Component) : Option String :=
  match readable e c with
  | .error (.problem _ _) => c.safeUid
  | _ => none

def liveSeries (events : List Component) : List (String × List Event) :=
  (groupBy Event.uid (items e events)).filter fun g => !(events.filterMap (refused e)).contains g.1

def seriesOf (g : String × List Event) : List CalendarOccurrence :=
  match expandGroup e g.2 maxCandidatesPerSource with
  | .ok (series, _) => series
  | .error _ => []

def affordable : List (String × List Event) → ℕ → Bool
  | [], _ => true
  | g :: rest, spent =>
    match expandGroup e g.2 (maxCandidatesPerSource - spent) with
    | .ok (_, used) => decide (spent + used ≤ maxCandidatesPerSource) && affordable rest (spent + used)
    | .error (.problem code used) =>
      code != "SOURCE_BUDGET" && decide (spent + used ≤ maxCandidatesPerSource) && affordable rest (spent + used)
    | .error _ => decide (spent < maxCandidatesPerSource)

structure Fits (events : List Component) : Prop where
  count : events.length ≤ maxEvents
  budget : affordable e (liveSeries e events) 0 = true
  output : ((liveSeries e events).flatMap (seriesOf e)).length ≤ maxOccurrences

def Escapes {α : Type} (x : Except Fault α) : Prop := ∃ err, x = .error err ∧ ∀ code used, err ≠ .problem code used

structure Contained (events : List Component) : Prop where
  reading : ∀ c ∈ events, ¬Escapes (readable e c)
  expanding : ∀ g ∈ liveSeries e events, ¬Escapes (expandGroup e g.2 maxCandidatesPerSource)

def Kept (events : List Component) (r : CalendarParseResult) : Prop :=
  ∀ c ∈ events, ∃ item series used, readable e c = .ok item ∧
    expandGroup e ((items e events).filter fun other => other.uid = item.uid) maxCandidatesPerSource = .ok (series, used) ∧
    (r.occurrences.filter fun o => o.uid == item.uid).Perm series

def Honest (events : List Component) (r : CalendarParseResult) : Prop :=
  (r.completeness = .complete ↔ r.warnings = []) ∧ (r.completeness = .complete → Kept e events r)

def CalendarParseResult.without (r : CalendarParseResult) (uid : String) : List CalendarOccurrence :=
  r.occurrences.filter fun o => o.uid != uid

def Separate (feed : Feed) (events' : List Component) (uid : String) : Prop :=
  ∃ r r', parseIcs e feed = .ok r ∧ parseIcs e { feed with events := events' } = .ok r' ∧
    r.without uid = r'.without uid ∧ Honest e feed.events r ∧ Honest e events' r'

variable {e}

theorem invalidEvent_eq_ok {α : Type} {x : Except Fault α} {a : α} (h : invalidEvent x = .ok a) : x = .ok a := by
  unfold invalidEvent at h
  split at h
  · split at h
    · cases h
    · cases h
  · exact h

variable {c : Component} {uid : String} {item : Event}

theorem readFields_component (h : readFields e c uid = .ok item) :
    item.uid = uid := by
  unfold readFields at h
  obtain ⟨sequence, -, h⟩ := of_bind_eq_ok h
  obtain ⟨_, -, h⟩ := of_bind_eq_ok h
  obtain ⟨stamp, -, h⟩ := of_bind_eq_ok h
  obtain ⟨start, -, h⟩ := of_bind_eq_ok h
  obtain ⟨last, -, h⟩ := of_bind_eq_ok h
  obtain ⟨recurrenceId, -, h⟩ := of_bind_eq_ok h
  obtain ⟨stop, -, h⟩ := of_bind_eq_ok h
  obtain ⟨summary, -, h⟩ := of_bind_eq_ok h
  obtain ⟨status, -, h⟩ := of_bind_eq_ok h
  obtain ⟨_, -, h⟩ := of_bind_eq_ok h
  obtain ⟨_, -, h⟩ := of_bind_eq_ok h
  cases h
  rfl

theorem readable_uid (h : readable e c = .ok item) : c.safeUid = some item.uid := by
  unfold readable at h
  obtain ⟨item', hread, h⟩ := of_bind_eq_ok h
  obtain ⟨_, -, h⟩ := of_bind_eq_ok h
  cases h
  unfold readEvent at hread
  split at hread
  · cases hread
  split at hread
  · cases hread
  cases huid : c.safeUid with
  | none =>
    rw [huid] at hread
    cases hread
  | some uid =>
    rw [huid] at hread
    rw [readFields_component (invalidEvent_eq_ok hread)]

theorem refused_uid (h : refused e c = some uid) : c.safeUid = some uid := by
  unfold refused at h
  split at h
  · exact h
  · cases h

theorem addWarning_ne_nil (warnings : List CalendarWarning) (code : String) (uid : Option String) :
    addWarning warnings code uid ≠ [] := by
  unfold addWarning
  split
  · simp
  rename_i h
  rintro rfl
  exact h (by decide)

theorem refuse_warnings (r : Reading) (code : String) (uid : Option String) : (r.refuse code uid).warnings ≠ [] := by
  cases uid with
  | none => exact addWarning_ne_nil _ _ _
  | some uid => exact addWarning_ne_nil _ _ _

theorem not_escapes_problem {α : Type} {code : String} {used : ℕ} {x : Except Fault α} (h : x = .error (.problem code used)) :
    ¬Escapes x := by
  rintro ⟨err, herr, hother⟩
  rw [h] at herr
  cases herr
  exact hother code used rfl

structure ReadFrom (events : List Component) (r r' : Reading) : Prop where
  groups : r'.groups = (items e events).foldl (fun d item => appendTo d item.uid item) r.groups
  invalid : ∀ uid, uid ∈ r'.invalid ↔ uid ∈ r.invalid ∨ uid ∈ events.filterMap (refused e)
  clean : r'.warnings = [] → r.warnings = [] ∧ ∀ c ∈ events, ∃ item, readable e c = .ok item
  warned : r'.invalid ≠ [] → r'.warnings = [] → r.invalid ≠ []

variable {events : List Component}

theorem readAll_reads {r r' : Reading} (h : readAll e events r = .ok r') :
    ReadFrom (e := e) events r r' := by
  induction events generalizing r with
  | nil =>
    cases h
    exact ⟨rfl, by simp, fun h => ⟨h, by simp⟩, fun h _ => h⟩
  | cons c rest ih =>
    unfold readAll at h
    cases hc : readable e c with
    | ok item =>
      rw [hc] at h
      have hrest := ih h
      constructor
      · rw [hrest.groups]
        simp [items, hc]
      · intro uid
        rw [hrest.invalid uid]
        simp [refused, hc]
      · intro hwarnings
        obtain ⟨hr, hall⟩ := hrest.clean hwarnings
        exact ⟨hr, List.forall_mem_cons.mpr ⟨⟨item, hc⟩, hall⟩⟩
      · exact hrest.warned
    | error err =>
      rw [hc] at h
      cases err with
      | problem code used =>
        have hrest := ih h
        constructor
        · rw [hrest.groups]
          cases c.safeUid <;> simp [items, hc, Reading.refuse]
        · intro uid
          rw [hrest.invalid uid]
          cases huid : c.safeUid with
          | none => simp [refused, hc, huid, Reading.refuse]
          | some uid' =>
            simp only [refused, hc, huid, Reading.refuse, List.mem_cons, List.filterMap_cons]
            tauto
        · intro hwarnings
          exact (refuse_warnings r code c.safeUid (hrest.clean hwarnings).1).elim
        · intro _ hwarnings
          exact (refuse_warnings r code c.safeUid (hrest.clean hwarnings).1).elim
      | attributeError => cases h
      | raised err => cases h

theorem readAll_returns (h : ∀ c ∈ events, ¬Escapes (readable e c)) (r : Reading) :
    ∃ r', readAll e events r = .ok r' := by
  induction events generalizing r with
  | nil => exact ⟨r, rfl⟩
  | cons c rest ih =>
    obtain ⟨hc, hrest⟩ := List.forall_mem_cons.mp h
    unfold readAll
    cases hread : readable e c with
    | ok item => exact ih hrest _
    | error err =>
      cases err with
      | problem code used => exact ih hrest _
      | attributeError => exact (hc ⟨_, hread, by simp⟩).elim
      | raised err => exact (hc ⟨_, hread, by simp⟩).elim

theorem not_escapes_of_readAll {r r' : Reading} (h : readAll e events r = .ok r') :
    ∀ c ∈ events, ¬Escapes (readable e c) := by
  induction events generalizing r with
  | nil => simp
  | cons c rest ih =>
    unfold readAll at h
    cases hread : readable e c with
    | ok item =>
      rw [hread] at h
      refine List.forall_mem_cons.mpr ⟨?_, ih h⟩
      rintro ⟨err, herr, -⟩
      rw [hread] at herr
      cases herr
    | error err =>
      rw [hread] at h
      cases err with
      | problem code used => exact List.forall_mem_cons.mpr ⟨not_escapes_problem hread, ih h⟩
      | attributeError => cases h
      | raised err => cases h

variable {warnings : List CalendarWarning}

theorem ReadFrom.series {r : Reading}
    (h : ReadFrom (e := e) events ⟨[], [], warnings⟩ r) : r.series = liveSeries e events := by
  unfold Reading.series liveSeries
  rw [h.groups]
  apply List.filter_congr
  intro g _
  have hmem := h.invalid g.1
  simp only [List.not_mem_nil, false_or] at hmem
  by_cases hg : g.1 ∈ r.invalid
  · simp only [List.contains_eq_mem, hg, hmem.mp hg]
  · have hnot : g.1 ∉ events.filterMap (refused e) := fun hrefused => hg (hmem.mpr hrefused)
    simp only [List.contains_eq_mem, hg, hnot]

theorem items_others (uid : String) (events : List Component) :
    (items e events).filter (fun item => item.uid != uid) = items e (others uid events) := by
  induction events with
  | nil => rfl
  | cons c rest ih =>
    unfold others at ih ⊢
    rw [List.filter_cons]
    cases hread : readable e c with
    | ok item =>
      have huid := readable_uid hread
      by_cases hsame : item.uid = uid
      · simp [items, hread, huid, hsame] at ih ⊢
        exact ih
      · simp [items, hread, huid, hsame] at ih ⊢
        exact ih
    | error err =>
      by_cases hsame : c.safeUid = some uid
      · simp [items, hread, hsame] at ih ⊢
        exact ih
      · simp [items, hread, hsame] at ih ⊢
        exact ih

theorem mem_refused_others {uid uid' : String} (hne : uid' ≠ uid) (events : List Component) :
    uid' ∈ (others uid events).filterMap (refused e) ↔ uid' ∈ events.filterMap (refused e) := by
  simp only [others, List.mem_filterMap, List.mem_filter]
  constructor
  · rintro ⟨c, ⟨hc, -⟩, hrefused⟩
    exact ⟨c, hc, hrefused⟩
  rintro ⟨c, hc, hrefused⟩
  refine ⟨c, ⟨hc, ?_⟩, hrefused⟩
  rw [refused_uid hrefused]
  simpa using hne

theorem liveSeries_others (uid : String) (events : List Component) :
    (liveSeries e events).filter (fun g => g.1 != uid) = liveSeries e (others uid events) := by
  have hkeys : ∀ g ∈ groupBy Event.uid (items e (others uid events)), g.1 ≠ uid := by
    intro g hg
    have hgrouped := grouped_groupBy Event.uid (items e (others uid events))
    have hfilled := hgrouped.filled g hg
    rw [hgrouped.whole g hg, ← items_others] at hfilled
    rintro rfl
    apply hfilled
    simp
  unfold liveSeries
  rw [List.filter_comm, filter_groupBy Event.uid (fun k => k != uid), items_others]
  apply List.filter_congr
  intro g hg
  have hmem := mem_refused_others (e := e) (hkeys g hg) events
  by_cases hrefused : g.1 ∈ events.filterMap (refused e)
  · simp only [List.contains_eq_mem, hrefused, hmem.mpr hrefused]
  · have hnot := mt hmem.mp hrefused
    simp only [List.contains_eq_mem, hrefused, hnot]

theorem latest_mem {candidates : List Event} {top : Event} (h : latest candidates = .ok top) : top ∈ candidates := by
  unfold latest at h
  split at h
  · cases h
  rename_i top' rest hsorted
  split at h
  · cases h
  cases h
  apply (List.perm_insertionSort (fun a b : Event => b.age ≤ a.age) candidates).mem_iff.mp
  rw [hsorted]
  exact List.mem_cons_self

theorem latestOfAll_mem {split : List (Option Identity × List Event)} {chosen : List Event}
    (h : latestOfAll split = .ok chosen) : ∀ item ∈ chosen, ∃ entry ∈ split, item ∈ entry.2 := by
  induction split generalizing chosen with
  | nil =>
    cases h
    simp
  | cons entry rest ih =>
    unfold latestOfAll at h
    obtain ⟨top, htop, h⟩ := of_bind_eq_ok h
    obtain ⟨others, hothers, h⟩ := of_bind_eq_ok h
    cases h
    intro item hitem
    rcases List.mem_cons.mp hitem with rfl | hitem
    · exact ⟨entry, List.mem_cons_self, latest_mem htop⟩
    · obtain ⟨entry', hentry, hmem⟩ := ih hothers item hitem
      exact ⟨entry', List.mem_cons_of_mem _ hentry, hmem⟩

theorem selectRevisions_masters_mem {events masters overrides : List Event}
    (h : selectRevisions events = .ok (masters, overrides)) : ∀ item ∈ masters, item ∈ events := by
  unfold selectRevisions at h
  obtain ⟨chosen, hchosen, h⟩ := of_bind_eq_ok h
  cases h
  intro item hitem
  obtain ⟨entry, hentry, hmem⟩ := latestOfAll_mem hchosen item (List.mem_of_mem_filter hitem)
  rw [(grouped_groupBy _ events).whole entry hentry] at hmem
  exact List.mem_of_mem_filter hmem

variable {revisions : List Event}

theorem expandGroup_agrees {small large : ℕ} (hle : small ≤ large) :
    Agrees (expandGroup e revisions large) (expandGroup e revisions small) := by
  unfold expandGroup
  apply (Agrees.refl _).bind
  rintro ⟨masters, overrides⟩ _
  dsimp only
  split
  · split
    · exact Agrees.refl _
    · exact expandSeries_agrees hle
  · exact Agrees.refl _

variable {series : List CalendarOccurrence}

theorem expandGroup_ok (huid : ∀ item ∈ revisions, item.uid = uid)
    {sourceBudget used : ℕ}
    (h : expandGroup e revisions sourceBudget = .ok (series, used)) :
    0 < used ∧ used ≤ sourceBudget ∧ ∀ o ∈ series, o.uid = uid := by
  unfold expandGroup at h
  obtain ⟨⟨masters, overrides⟩, hselect, h⟩ := of_bind_eq_ok h
  dsimp only at h
  split at h
  · rename_i master
    split at h
    · cases h
    obtain ⟨hpos, hle, hseries⟩ := expandSeries_ok h
    refine ⟨hpos, hle, ?_⟩
    intro o ho
    rw [hseries o ho]
    exact huid master (selectRevisions_masters_mem hselect master (List.mem_singleton_self _))
  · cases h

variable {g : String × List Event}

theorem liveSeries_whole (hg : g ∈ liveSeries e events) :
    g.2 = (items e events).filter fun item => item.uid = g.1 :=
  (grouped_groupBy Event.uid (items e events)).whole g (List.mem_of_mem_filter hg)

theorem liveSeries_uid (hg : g ∈ liveSeries e events) :
    ∀ item ∈ g.2, item.uid = g.1 := by
  intro item hitem
  rw [liveSeries_whole hg] at hitem
  exact of_decide_eq_true (List.mem_filter.mp hitem).2

theorem filter_key {ν : Type} {entries : List (String × ν)} {g : String × ν} (hg : g ∈ entries)
    (hnodup : (entries.map Prod.fst).Nodup) : (entries.filter fun g' => g'.1 == g.1) = [g] := by
  induction entries with
  | nil => cases hg
  | cons entry rest ih =>
    obtain ⟨hnew, hrest⟩ := List.nodup_cons.mp hnodup
    rcases List.mem_cons.mp hg with rfl | hg
    · rw [List.filter_cons, if_pos (by simp)]
      congr 1
      apply List.filter_eq_nil_iff.mpr
      intro g' hg' heq
      exact hnew (List.mem_map.mpr ⟨g', hg', eq_of_beq heq⟩)
    have hne : entry.1 ≠ g.1 := fun heq => hnew (List.mem_map.mpr ⟨g, hg, heq.symm⟩)
    rw [List.filter_cons, if_neg (by simpa using hne)]
    exact ih hg hrest

theorem liveSeries_nodup (events : List Component) : ((liveSeries e events).map Prod.fst).Nodup := by
  have hgrouped := grouped_groupBy Event.uid (items e events)
  exact hgrouped.nodup.sublist (List.filter_sublist.map Prod.fst)

theorem seriesOf_of_ok {used : ℕ}
    (h : expandGroup e g.2 maxCandidatesPerSource = .ok (series, used)) : seriesOf e g = series := by
  unfold seriesOf
  rw [h]

theorem seriesOf_uid (huid : ∀ item ∈ g.2, item.uid = g.1) :
    ∀ o ∈ seriesOf e g, o.uid = g.1 := by
  unfold seriesOf
  split
  · rename_i series used hok
    exact (expandGroup_ok huid hok).2.2
  · simp

variable {groups : List (String × List Event)}

theorem filter_flatMap_seriesOf (huid : ∀ g ∈ groups, ∀ item ∈ g.2, item.uid = g.1)
    (p : String → Bool) :
    (groups.flatMap (seriesOf e)).filter (fun o => p o.uid) = (groups.filter fun g => p g.1).flatMap (seriesOf e) := by
  induction groups with
  | nil => rfl
  | cons g rest ih =>
    obtain ⟨hg, hrest⟩ := List.forall_mem_cons.mp huid
    have hseries := seriesOf_uid (e := e) hg
    rw [List.flatMap_cons, List.filter_append, ih hrest, List.filter_cons]
    cases hp : p g.1 with
    | true =>
      have hall : (seriesOf e g).filter (fun o => p o.uid) = seriesOf e g := by
        apply List.filter_eq_self.mpr
        intro o ho
        rw [hseries o ho]
        exact hp
      rw [hall, if_pos rfl, List.flatMap_cons]
    | false =>
      have hnone : (seriesOf e g).filter (fun o => p o.uid) = [] := by
        apply List.filter_eq_nil_iff.mpr
        intro o ho
        rw [hseries o ho, hp]
        exact Bool.false_ne_true
      rw [hnone, if_neg Bool.false_ne_true, List.nil_append]

theorem expandGroup_whole {spent : ℕ} {out : Except Fault (List CalendarOccurrence × ℕ)}
    (h : expandGroup e revisions (maxCandidatesPerSource - spent) = out) (hout : Settled out) :
    expandGroup e revisions maxCandidatesPerSource = out := by
  subst h
  exact expandGroup_agrees (Nat.sub_le _ _) hout

theorem affordable_spent (huid : ∀ g ∈ groups, ∀ item ∈ g.2, item.uid = g.1)
    {spent : ℕ} (hspent : maxCandidatesPerSource ≤ spent) (h : affordable e groups spent = true) :
    ∀ g ∈ groups, ∃ code used, expandGroup e g.2 maxCandidatesPerSource = .error (.problem code used) := by
  induction groups with
  | nil => simp
  | cons g rest ih =>
    obtain ⟨hg, hrest⟩ := List.forall_mem_cons.mp huid
    unfold affordable at h
    cases hout : expandGroup e g.2 (maxCandidatesPerSource - spent) with
    | ok result =>
      obtain ⟨series, used⟩ := result
      have hpos := (expandGroup_ok hg hout).1
      rw [hout] at h
      simp only [Bool.and_eq_true, decide_eq_true_eq] at h
      omega
    | error err =>
      rw [hout] at h
      cases err with
      | problem code used =>
        simp only [Bool.and_eq_true, decide_eq_true_eq, bne_iff_ne, ne_eq] at h
        obtain ⟨⟨hcode, hle⟩, htail⟩ := h
        have hused : used = 0 := by omega
        subst hused
        have hwhole := expandGroup_whole hout (settled_problem hcode)
        exact List.forall_mem_cons.mpr ⟨⟨code, 0, hwhole⟩, ih hrest htail⟩
      | attributeError =>
        simp only [decide_eq_true_eq] at h
        omega
      | raised err =>
        simp only [decide_eq_true_eq] at h
        omega

theorem flatMap_seriesOf_of_problems
    (h : ∀ g ∈ groups, ∃ code used, expandGroup e g.2 maxCandidatesPerSource = .error (.problem code used)) :
    groups.flatMap (seriesOf e) = [] := by
  apply List.flatMap_eq_nil_iff.mpr
  intro g hg
  obtain ⟨code, used, hout⟩ := h g hg
  unfold seriesOf
  rw [hout]

variable {s : Progress}

theorem expandAll_spec (huid : ∀ g ∈ groups, ∀ item ∈ g.2, item.uid = g.1) (hbudget : affordable e groups s.spent = true)
    (houtput : s.output.length + (groups.flatMap (seriesOf e)).length ≤ maxOccurrences) :
    (∃ s', expandAll e groups s = .ok s' ∧ s'.output = s.output ++ groups.flatMap (seriesOf e) ∧
        ∀ g ∈ groups, ¬Escapes (expandGroup e g.2 maxCandidatesPerSource)) ∨
      Escapes (expandAll e groups s) ∧ ∃ g ∈ groups, Escapes (expandGroup e g.2 maxCandidatesPerSource) := by
  induction groups generalizing s with
  | nil => exact .inl ⟨s, rfl, by simp, by simp⟩
  | cons g rest ih =>
    obtain ⟨uid, revisions⟩ := g
    obtain ⟨hg, hrest⟩ := List.forall_mem_cons.mp huid
    unfold affordable at hbudget
    unfold expandAll
    dsimp only at hbudget ⊢
    rw [List.flatMap_cons, List.length_append] at houtput
    cases hout : expandGroup e revisions (maxCandidatesPerSource - s.spent) with
    | ok result =>
      obtain ⟨series, used⟩ := result
      rw [hout] at hbudget
      simp only [Bool.and_eq_true, decide_eq_true_eq] at hbudget
      obtain ⟨hle, htail⟩ := hbudget
      have hwhole := expandGroup_whole hout (settled_ok _)
      have hseries : seriesOf e (uid, revisions) = series := seriesOf_of_ok hwhole
      rw [hseries] at houtput
      dsimp only
      rw [if_neg (by omega), if_neg (by omega)]
      have hnext := ih hrest (s := { s with output := s.output ++ series, spent := s.spent + used }) htail (by
        rw [List.length_append]
        omega)
      rcases hnext with ⟨s', hs', hout', hnone⟩ | ⟨hescapes, g, hg, hraises⟩
      · refine .inl ⟨s', hs', ?_, ?_⟩
        · rw [hout', List.flatMap_cons, hseries, List.append_assoc]
        refine List.forall_mem_cons.mpr ⟨?_, hnone⟩
        rintro ⟨err, herr, -⟩
        dsimp only at herr
        rw [hwhole] at herr
        cases herr
      · exact .inr ⟨hescapes, g, List.mem_cons_of_mem _ hg, hraises⟩
    | error err =>
      rw [hout] at hbudget
      cases err with
      | problem code used =>
        simp only [Bool.and_eq_true, decide_eq_true_eq, bne_iff_ne, ne_eq] at hbudget
        obtain ⟨⟨hcode, hle⟩, htail⟩ := hbudget
        have hwhole := expandGroup_whole hout (settled_problem hcode)
        have hseries : seriesOf e (uid, revisions) = [] := by
          unfold seriesOf
          dsimp only
          rw [hwhole]
        have hhead : ¬Escapes (expandGroup e revisions maxCandidatesPerSource) := not_escapes_problem hwhole
        rw [hseries, List.length_nil, Nat.zero_add] at houtput
        dsimp only
        by_cases hspent : maxCandidatesPerSource ≤ s.spent + used
        · rw [if_pos (.inl hspent)]
          have hproblems := affordable_spent hrest hspent htail
          refine .inl ⟨_, rfl, ?_, ?_⟩
          · rw [List.flatMap_cons, hseries, flatMap_seriesOf_of_problems hproblems]
            simp
          refine List.forall_mem_cons.mpr ⟨hhead, ?_⟩
          intro g hg
          obtain ⟨code', used', hproblem⟩ := hproblems g hg
          exact not_escapes_problem hproblem
        · rw [if_neg (by
            rintro (h | h)
            · exact hspent h
            · exact hcode h)]
          have hnext := ih hrest (s := ⟨s.output, s.spent + used, addWarning s.warnings code (some uid)⟩) htail houtput
          rcases hnext with ⟨s', hs', hout', hnone⟩ | ⟨hescapes, g, hg, hraises⟩
          · refine .inl ⟨s', hs', ?_, List.forall_mem_cons.mpr ⟨hhead, hnone⟩⟩
            rw [hout', List.flatMap_cons, hseries, List.nil_append]
          · exact .inr ⟨hescapes, g, List.mem_cons_of_mem _ hg, hraises⟩
      | attributeError =>
        have hwhole := expandGroup_whole hout (by simp [Settled])
        exact .inr ⟨⟨_, rfl, by simp⟩, _, List.mem_cons_self, _, hwhole, by simp⟩
      | raised err =>
        have hwhole := expandGroup_whole hout (by simp [Settled])
        exact .inr ⟨⟨_, rfl, by simp⟩, _, List.mem_cons_self, _, hwhole, by simp⟩

theorem expandAll_clean {s s' : Progress} (h : expandAll e groups s = .ok s')
    (hclean : s'.warnings = []) :
    s.warnings = [] ∧ s'.output = s.output ++ groups.flatMap (seriesOf e) ∧
      ∀ g ∈ groups, ∃ series used, expandGroup e g.2 maxCandidatesPerSource = .ok (series, used) := by
  induction groups generalizing s with
  | nil =>
    cases h
    exact ⟨hclean, by simp, by simp⟩
  | cons g rest ih =>
    obtain ⟨uid, revisions⟩ := g
    unfold expandAll at h
    cases hout : expandGroup e revisions (maxCandidatesPerSource - s.spent) with
    | ok result =>
      obtain ⟨series, used⟩ := result
      have hwhole := expandGroup_whole hout (settled_ok _)
      rw [hout] at h
      dsimp only at h
      split at h
      · cases h
        exact (addWarning_ne_nil _ _ _ hclean).elim
      split at h
      · cases h
        exact (addWarning_ne_nil _ _ _ hclean).elim
      obtain ⟨hwarnings, houtput, hall⟩ := ih h
      refine ⟨hwarnings, ?_, List.forall_mem_cons.mpr ⟨⟨series, used, hwhole⟩, hall⟩⟩
      rw [houtput, List.flatMap_cons, seriesOf_of_ok (g := (uid, revisions)) hwhole, List.append_assoc]
    | error err =>
      rw [hout] at h
      cases err with
      | problem code used =>
        dsimp only at h
        split at h
        · cases h
          exact (addWarning_ne_nil _ _ _ hclean).elim
        · exact (addWarning_ne_nil _ _ _ (ih h).1).elim
      | attributeError => cases h
      | raised err => cases h

theorem sortKey_total (a b : CalendarOccurrence) : sortKey a ≤ sortKey b ∨ sortKey b ≤ sortKey a := le_total _ _

theorem sortKey_trans (a b c : CalendarOccurrence) : sortKey a ≤ sortKey b → sortKey b ≤ sortKey c → sortKey a ≤ sortKey c :=
  le_trans

variable {reading : Reading}

theorem warnings_of_completeness (h : reading.invalid ≠ [] → s.warnings ≠ []) :
    (if !reading.invalid.isEmpty || !s.warnings.isEmpty then Completeness.incomplete else .complete) = .complete ↔
      s.warnings = [] := by
  cases hwarnings : s.warnings with
  | nil =>
    have hinvalid : reading.invalid = [] := by
      by_contra hne
      exact h hne hwarnings
    simp [hinvalid]
  | cons warning rest => simp

theorem filter_liveSeries (h : ∀ c ∈ events, ∃ item, readable e c = .ok item) (hc : c ∈ events) (hitem : readable e c = .ok item) :
    ((liveSeries e events).filter fun g => g.1 == item.uid) =
      [(item.uid, (items e events).filter fun other => other.uid = item.uid)] := by
  have hgrouped := grouped_groupBy Event.uid (items e events)
  have hnone : events.filterMap (refused e) = [] := by
    apply List.filterMap_eq_nil_iff.mpr
    intro c hc
    obtain ⟨item, hread⟩ := h c hc
    unfold refused
    rw [hread]
  have hmem : item ∈ items e events := by
    apply List.mem_filterMap.mpr
    exact ⟨c, hc, by rw [hitem]⟩
  obtain ⟨g, hg, hkey⟩ := List.mem_map.mp (hgrouped.covered item hmem)
  have hlive : g ∈ liveSeries e events := by
    unfold liveSeries
    rw [hnone]
    simpa using hg
  have hsame : g = (item.uid, (items e events).filter fun other => other.uid = item.uid) := by
    have hwhole := liveSeries_whole hlive
    rw [hkey] at hwhole
    exact Prod.ext hkey hwhole
  rw [← hsame, ← hkey]
  exact filter_key hlive (liveSeries_nodup events)

theorem kept_of_clean
    {completeness : Completeness} (hread : readAll e events ⟨[], [], warnings⟩ = .ok reading)
    (hexpand : expandAll e reading.series ⟨[], 0, reading.warnings⟩ = .ok s) (hclean : s.warnings = []) :
    Kept e events ⟨e.sourceId, completeness, s.output.insertionSort fun a b => sortKey a ≤ sortKey b, s.warnings⟩ := by
  have hfrom := readAll_reads hread
  obtain ⟨hwarnings, houtput, hall⟩ := expandAll_clean hexpand hclean
  obtain ⟨-, hreadable⟩ := hfrom.clean hwarnings
  rw [hfrom.series] at houtput hall
  intro c hc
  obtain ⟨item, hitem⟩ := hreadable c hc
  have hfilter := filter_liveSeries hreadable hc hitem
  have hmem : (item.uid, (items e events).filter fun other => other.uid = item.uid) ∈ liveSeries e events := by
    apply List.mem_of_mem_filter (p := fun g => g.1 == item.uid)
    rw [hfilter]
    exact List.mem_singleton_self _
  obtain ⟨series, used, hseries⟩ := hall _ hmem
  refine ⟨item, series, used, hitem, hseries, ?_⟩
  have hperm := (List.perm_insertionSort (fun a b => sortKey a ≤ sortKey b) s.output).filter fun o => o.uid == item.uid
  have hout : (s.output.filter fun o => o.uid == item.uid) = series := by
    rw [houtput, List.nil_append, filter_flatMap_seriesOf (fun g hg => liveSeries_uid hg) (fun uid => uid == item.uid), hfilter,
      List.flatMap_singleton]
    exact seriesOf_of_ok hseries
  rw [hout] at hperm
  exact hperm

theorem parseIcs_honest {feed : Feed} {r : CalendarParseResult} (h : parseIcs e feed = .ok r) : Honest e feed.events r := by
  have hincomplete : ∀ warnings code, Honest e feed.events (incompleteResult e warnings code) := by
    intro warnings code
    constructor
    · constructor
      · intro h
        cases h
      intro h
      have hne : (addWarning warnings code none).take maxWarnings ≠ [] := by
        intro hnil
        rcases List.take_eq_nil_iff.mp hnil with hzero | hnil
        · cases hzero
        · exact addWarning_ne_nil _ _ _ hnil
      exact (hne h).elim
    · intro h
      cases h
  unfold parseIcs at h
  split at h
  · cases h
    exact hincomplete _ _
  dsimp only at h
  split at h
  · cases h
    exact hincomplete _ _
  obtain ⟨reading, hread, h⟩ := of_bind_eq_ok h
  obtain ⟨s, hexpand, h⟩ := of_bind_eq_ok h
  cases h
  have hfrom := readAll_reads hread
  have hwarned : reading.invalid ≠ [] → s.warnings ≠ [] := by
    intro hinvalid hclean
    exact hfrom.warned hinvalid (expandAll_clean hexpand hclean).1 rfl
  have hiff := warnings_of_completeness hwarned
  exact ⟨hiff, fun hcomplete => kept_of_clean hread hexpand (hiff.mp hcomplete)⟩

theorem parseIcs_spec (feed : Feed) (haccepted : feed.accepted = true) (hfits : Fits e feed.events) :
    (∃ r, parseIcs e feed = .ok r ∧
        r.occurrences = ((liveSeries e feed.events).flatMap (seriesOf e)).insertionSort fun a b => sortKey a ≤ sortKey b) ∧
        Contained e feed.events ∨
      (∀ r, parseIcs e feed ≠ .ok r) ∧ ¬Contained e feed.events := by
  have hcount := hfits.count
  unfold parseIcs
  rw [haccepted, if_neg (by simp)]
  dsimp only
  rw [if_neg (by omega)]
  generalize (if feed.errors = true then addWarning [] "MALFORMED_SOURCE" none else []) = warnings
  by_cases hreading : ∀ c ∈ feed.events, ¬Escapes (readable e c)
  · obtain ⟨reading, hread⟩ := readAll_returns hreading ⟨[], [], warnings⟩
    have hseries := (readAll_reads hread).series
    rw [hread]
    simp only [bind, Except.bind, hseries]
    have hloop := expandAll_spec (fun g hg => liveSeries_uid hg) (s := ⟨[], 0, reading.warnings⟩) hfits.budget (by
      rw [List.length_nil, Nat.zero_add]
      exact hfits.output)
    rcases hloop with ⟨s, hs, houtput, hnone⟩ | ⟨⟨err, herr, -⟩, g, hg, hraises⟩
    · rw [hs]
      refine .inl ⟨⟨_, rfl, ?_⟩, hreading, hnone⟩
      dsimp only
      rw [houtput, List.nil_append]
    refine .inr ⟨?_, fun h => h.expanding g hg hraises⟩
    intro r hr
    rw [herr] at hr
    cases hr
  · refine .inr ⟨?_, fun h => hreading h.reading⟩
    intro r hr
    obtain ⟨reading, hread, -⟩ := of_bind_eq_ok hr
    exact hreading (not_escapes_of_readAll hread)

/-- Within the limits, series are independent exactly as long as no event raises anything but `_SeriesProblem`. -/
theorem series_independent (e : Setting) (feed : Feed) (events' : List Component) (uid : String)
    (haccepted : feed.accepted = true) (hothers : others uid feed.events = others uid events')
    (hfits : Fits e feed.events) (hfits' : Fits e events') :
    Separate e feed events' uid ↔ Contained e feed.events ∧ Contained e events' := by
  have haccepted' : Feed.accepted { feed with events := events' } = true := haccepted
  have hspec := parseIcs_spec feed haccepted hfits
  have hspec' := parseIcs_spec { feed with events := events' } haccepted' hfits'
  constructor
  · rintro ⟨r, r', hr, hr', -⟩
    constructor
    · rcases hspec with ⟨-, hcontained⟩ | ⟨hnone, -⟩
      · exact hcontained
      · exact (hnone r hr).elim
    rcases hspec' with ⟨-, hcontained⟩ | ⟨hnone, -⟩
    · exact hcontained
    · exact (hnone r' hr').elim
  · rintro ⟨hcontained, hcontained'⟩
    have hsame : ∀ events : List Component,
        ((((liveSeries e events).flatMap (seriesOf e)).insertionSort fun a b => sortKey a ≤ sortKey b).filter fun o =>
          o.uid != uid) =
        ((liveSeries e (others uid events)).flatMap (seriesOf e)).insertionSort fun a b => sortKey a ≤ sortKey b := by
      intro events
      rw [filter_insertionSort sortKey_total sortKey_trans,
        filter_flatMap_seriesOf (fun g hg => liveSeries_uid hg) (fun k => k != uid), liveSeries_others]
    rcases hspec with ⟨⟨r, hr, hoccurrences⟩, -⟩ | ⟨-, hnot⟩
    · rcases hspec' with ⟨⟨r', hr', hoccurrences'⟩, -⟩ | ⟨-, hnot'⟩
      · refine ⟨r, r', hr, hr', ?_, parseIcs_honest hr, parseIcs_honest hr'⟩
        unfold CalendarParseResult.without
        rw [hoccurrences, hoccurrences', hsame, hsame, hothers]
      · exact (hnot' hcontained').elim
    · exact (hnot hcontained).elim

end

/-! Events of whole days, read where the clock is eight hours ahead of UTC. -/

namespace FeedSample

def hour : ℤ := 3600 * second

def setting : Setting where
  dateutil := GapSample.dateutil
  zones _ := .error (.keyError "")
  rrulestr _ _ _ _ := .error (.valueError "")
  display := ⟨"Asia/Shanghai", ZoneInfo.ofTransitions (8 * hour) []⟩
  windowStart := ⟨19723 * day, 0⟩
  windowEnd := ⟨19730 * day, 0⟩
  sourceId := "source"
  rejectFloating := false

def event (uid : String) (dt : Raw) : Component where
  own := [("UID", .other), ("DTSTART", .dated ⟨dt, "", ""⟩)]
  nested := []
  uid := .ok (some uid)
  sequence := .ok 0
  stamp := .ok none
  summary := .ok ""
  status := .ok ""
  ical := ""

def fashion : Component := event "fashion" (.date ⟨19725, by decide +kernel⟩)

def first : Component := event "first" (.date ⟨-719162, by decide +kernel⟩)

def broken : Component := event "first" .other

def feed : Feed := ⟨"VCALENDAR", "2.0", false, [fashion]⟩

theorem fits_samples : ∀ events ∈ [[fashion], [first, fashion], [broken, fashion]], Fits setting events := by
  intro events h
  have hall : ([[fashion], [first, fashion], [broken, fashion]].all fun events =>
      affordable setting (liveSeries setting events) 0 &&
        decide (((liveSeries setting events).flatMap (seriesOf setting)).length ≤ maxOccurrences)) = true := by
    decide +kernel
  have hboth := List.all_eq_true.mp hall events h
  rw [Bool.and_eq_true, decide_eq_true_eq] at hboth
  refine ⟨?_, hboth.1, hboth.2⟩
  rw [List.mem_cons, List.mem_pair] at h
  rcases h with rfl | rfl | rfl <;> decide

theorem fits : Fits setting [fashion] := fits_samples _ (.head _)

theorem fits_first : Fits setting [first, fashion] := fits_samples _ (.tail _ (.head _))

theorem fits_broken : Fits setting [broken, fashion] := fits_samples _ (.tail _ (.tail _ (.head _)))

def quiet {α : Type} : Except Fault α → Bool
  | .ok _ => true
  | .error (.problem _ _) => true
  | .error _ => false

theorem not_escapes_of_quiet {α : Type} {x : Except Fault α} (h : quiet x = true) : ¬Escapes x := by
  rintro ⟨err, rfl, hother⟩
  cases err with
  | problem code used => exact hother code used rfl
  | attributeError => cases h
  | raised err => cases h

theorem contained_of_quiet {e : Setting} {events : List Component}
    (hreading : (events.all fun c => quiet (readable e c)) = true)
    (hexpanding : ((liveSeries e events).all fun g => quiet (expandGroup e g.2 maxCandidatesPerSource)) = true) :
    Contained e events where
  reading c hc := not_escapes_of_quiet (List.all_eq_true.mp hreading c hc)
  expanding g hg := not_escapes_of_quiet (List.all_eq_true.mp hexpanding g hg)

end FeedSample

open FeedSample in
/-- A broken event of another UID does no harm. -/
theorem series_independent_broken : Separate setting feed [broken, fashion] "first" :=
  (series_independent setting feed [broken, fashion] "first" (by decide +kernel) (by rfl) fits fits_broken).mpr
    ⟨contained_of_quiet (by decide +kernel) (by decide +kernel), contained_of_quiet (by decide +kernel) (by decide +kernel)⟩

open FeedSample in
/-- An event on the first day of the calendar takes the other series with it: `_intersects` has no instant for it. -/
theorem series_lost_to_first_day :
    feed.accepted = true ∧ others "first" feed.events = others "first" [first, fashion] ∧ Fits setting feed.events ∧
      Fits setting [first, fashion] ∧ ¬Separate setting feed [first, fashion] "first" := by
  refine ⟨by decide +kernel, by rfl, fits, fits_first, ?_⟩
  rintro ⟨r, r', -, hr', -⟩
  have hraised : (parseIcs setting { feed with events := [first, fashion] }).toOption.isNone = true := by decide +kernel
  rw [hr'] at hraised
  cases hraised

end GameLink.Ff14.Ics

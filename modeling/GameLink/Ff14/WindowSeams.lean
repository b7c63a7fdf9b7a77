import GameLink.Ff14.ZoneRules
import GameLink.Ff14.Document

namespace GameLink.Ff14

open Foundation Contracts Digest

/-! Two adjacent windows of `filter_occurrences` and the window that they make up. -/

def filterWindow (dateutil : Dateutil) (occurrences : List RawOccurrence) (localDate : LocalDate) (days : ℤ)
    (zone : ZoneInfo) (now : Instant) : Except Failure (List DisplayOccurrence) :=
  if 1 ≤ days ∧ days ≤ 30 then filterOccurrences dateutil occurrences localDate days zone now
  else .error (.valueError "days must be between 1 and 30")

def liveOccurrence (raw : RawOccurrence) : Option DisplayOccurrence :=
  match asDisplayOccurrence raw with
  | .ok item => if isCancelled raw then none else some item
  | .error _ => none

def Span.Ordered : Span → Prop
  | .allDay first last => first.ordinal < last.ordinal
  | .timed first last => first.instant ≤ last.instant

def taken (localDate localEndDate : LocalDate) (startAt endAt now : Instant) (item : DisplayOccurrence) : Bool :=
  match selects localDate localEndDate startAt endAt now item.span with
  | .ok b => b
  | .error _ => false

variable {localDate localEndDate : LocalDate} {startAt endAt now : Instant} {l : List DisplayOccurrence}

theorem selectOccurrences_eq
    {occurrences : List RawOccurrence}
    (h : selectOccurrences localDate localEndDate startAt endAt now occurrences = .ok l) :
    l = (occurrences.filterMap liveOccurrence).filter (taken localDate localEndDate startAt endAt now) := by
  induction occurrences generalizing l with
  | nil =>
    cases h
    rfl
  | cons raw rest ih =>
    unfold selectOccurrences at h
    cases hitem : asDisplayOccurrence raw with
    | error e =>
      rw [hitem] at h
      have hlive : liveOccurrence raw = none := by simp [liveOccurrence, hitem]
      rw [List.filterMap_cons, hlive]
      exact ih h
    | ok item =>
      rw [hitem] at h
      dsimp only at h
      split at h
      next hcancelled =>
        have hlive : liveOccurrence raw = none := by simp [liveOccurrence, hitem, hcancelled]
        rw [List.filterMap_cons, hlive]
        exact ih h
      next hcancelled =>
        have hlive : liveOccurrence raw = some item := by simp [liveOccurrence, hitem, hcancelled]
        rw [List.filterMap_cons, hlive]
        dsimp only
        split at h
        next selected hselects hrest =>
          cases h
          have htaken : taken localDate localEndDate startAt endAt now item = true := by simp [taken, hselects]
          rw [List.filter_cons_of_pos htaken, ih hrest]
        next selected hselects hrest =>
          cases h
          have htaken : ¬taken localDate localEndDate startAt endAt now item = true := by simp [taken, hselects]
          rw [List.filter_cons_of_neg htaken, ih hrest]
        next => cases h
        next => cases h

def Convertible (item : DisplayOccurrence) : Prop :=
  match item.span with
  | .allDay _ _ => True
  | .timed first last => first.utc = .ok first.instant ∧ last.utc = .ok last.instant

theorem selects_converts {item : DisplayOccurrence}
    {b : Bool} (h : selects localDate localEndDate startAt endAt now item.span = .ok b) : Convertible item := by
  unfold Convertible
  unfold selects at h
  cases hspan : item.span with
  | allDay first last => trivial
  | timed first last =>
    rw [hspan] at h
    dsimp only at h ⊢
    cases hfirst : first.utc with
    | error e => rw [hfirst] at h; simp at h
    | ok s =>
      cases hlast : last.utc with
      | error e => rw [hfirst, hlast] at h; simp at h
      | ok e =>
        unfold Aware.utc at hfirst hlast
        rw [(inYears_eq_ok.mp hfirst).1, (inYears_eq_ok.mp hlast).1]
        exact ⟨rfl, rfl⟩

theorem selectOccurrences_converts
    {occurrences : List RawOccurrence}
    (h : selectOccurrences localDate localEndDate startAt endAt now occurrences = .ok l) :
    ∀ item ∈ occurrences.filterMap liveOccurrence, Convertible item := by
  induction occurrences generalizing l with
  | nil => simp
  | cons raw rest ih =>
    unfold selectOccurrences at h
    cases hitem : asDisplayOccurrence raw with
    | error e =>
      rw [hitem] at h
      have hlive : liveOccurrence raw = none := by simp [liveOccurrence, hitem]
      rw [List.filterMap_cons, hlive]
      exact ih h
    | ok item =>
      rw [hitem] at h
      dsimp only at h
      split at h
      next hcancelled =>
        have hlive : liveOccurrence raw = none := by simp [liveOccurrence, hitem, hcancelled]
        rw [List.filterMap_cons, hlive]
        exact ih h
      next hcancelled =>
        have hlive : liveOccurrence raw = some item := by simp [liveOccurrence, hitem, hcancelled]
        rw [List.filterMap_cons, hlive]
        dsimp only
        split at h
        next selected hselects hrest =>
          simp only [List.forall_mem_cons]
          exact ⟨selects_converts hselects, ih hrest⟩
        next selected hselects hrest =>
          simp only [List.forall_mem_cons]
          exact ⟨selects_converts hselects, ih hrest⟩
        next => cases h
        next => cases h

theorem selectOccurrences_ok (localDate localEndDate : LocalDate) (startAt endAt now : Instant)
    {occurrences : List RawOccurrence} (h : ∀ item ∈ occurrences.filterMap liveOccurrence, Convertible item) :
    ∃ l, selectOccurrences localDate localEndDate startAt endAt now occurrences = .ok l := by
  induction occurrences with
  | nil => exact ⟨[], rfl⟩
  | cons raw rest ih =>
    unfold selectOccurrences
    cases hitem : asDisplayOccurrence raw with
    | error e =>
      have hlive : liveOccurrence raw = none := by simp [liveOccurrence, hitem]
      rw [List.filterMap_cons, hlive] at h
      exact ih h
    | ok item =>
      dsimp only
      by_cases hcancelled : isCancelled raw = true
      · have hlive : liveOccurrence raw = none := by simp [liveOccurrence, hitem, hcancelled]
        rw [List.filterMap_cons, hlive] at h
        rw [if_pos hcancelled]
        exact ih h
      have hlive : liveOccurrence raw = some item := by simp [liveOccurrence, hitem, hcancelled]
      rw [List.filterMap_cons, hlive] at h
      simp only [List.forall_mem_cons] at h
      obtain ⟨l, hl⟩ := ih h.2
      have hselects : ∃ b, selects localDate localEndDate startAt endAt now item.span = .ok b := by
        have hconvertible := h.1
        unfold Convertible at hconvertible
        unfold selects
        cases hspan : item.span with
        | allDay first last => exact ⟨_, rfl⟩
        | timed first last =>
          rw [hspan] at hconvertible
          dsimp only at hconvertible ⊢
          rw [hconvertible.1, hconvertible.2]
          dsimp only
          split
          · exact ⟨_, rfl⟩
          · exact ⟨_, rfl⟩
      obtain ⟨b, hb⟩ := hselects
      rw [if_neg hcancelled, hb, hl]
      cases b with
      | true => exact ⟨_, rfl⟩
      | false => exact ⟨_, rfl⟩

def KeyLE (a b : Instant × String) : Prop := a.1 < b.1 ∨ (a.1 = b.1 ∧ a.2 ≤ b.2)

def SortedByKey (dateutil : Dateutil) (zone : ZoneInfo) (l : List DisplayOccurrence) : Prop :=
  l.Pairwise fun a b => ∃ j k, sortKey dateutil zone a = .ok j ∧ sortKey dateutil zone b = .ok k ∧ KeyLE j k

structure Window (dateutil : Dateutil) (occurrences : List RawOccurrence) (d d' : LocalDate) (days : ℤ) (zone : ZoneInfo)
    (startAt endAt now : Instant) : Prop where
  last : addDays d days = .ok d'
  start : midnightInstant dateutil d zone = .ok startAt
  stop : midnightInstant dateutil d' zone = .ok endAt
  clock : inYears now = .ok now
  convertible : ∀ item ∈ occurrences.filterMap liveOccurrence, Convertible item
  keys : ∀ item ∈ (occurrences.filterMap liveOccurrence).filter (taken d d' startAt endAt now),
    ∃ k, sortKey dateutil zone item = .ok k

theorem mapM_sortKey {dateutil : Dateutil} {zone : ZoneInfo} {items : List DisplayOccurrence}
    {keys : List ((Instant × String) × DisplayOccurrence)} (h : items.mapM (keyed dateutil zone) = .ok keys) :
    ∀ k ∈ keys, sortKey dateutil zone k.2 = .ok k.1 := by
  induction items generalizing keys with
  | nil =>
    cases h
    simp
  | cons item rest ih =>
    rw [List.mapM_cons] at h
    simp only [bind_eq_ok] at h
    obtain ⟨k, hk, ks, hks, h⟩ := h
    cases h
    simp only [List.forall_mem_cons]
    refine ⟨?_, ih hks⟩
    unfold keyed at hk
    split at hk
    · rename_i key hkey
      cases hk
      exact hkey
    · cases hk

theorem keyAtMost_iff {a b : (Instant × String) × DisplayOccurrence} : keyAtMost a b = true ↔ KeyLE a.1 b.1 := by
  simp [keyAtMost, KeyLE]

theorem keyAtMost_trans (a b c : (Instant × String) × DisplayOccurrence) (hab : keyAtMost a b = true)
    (hbc : keyAtMost b c = true) : keyAtMost a c = true := by
  rw [keyAtMost_iff] at *
  unfold KeyLE at *
  rcases hab with hab | ⟨hab, hab'⟩
  · rcases hbc with hbc | ⟨hbc, -⟩
    · exact .inl (Int.lt_trans hab hbc)
    · exact .inl (hbc ▸ hab)
  rcases hbc with hbc | ⟨hbc, hbc'⟩
  · exact .inl (hab ▸ hbc)
  · exact .inr ⟨hab.trans hbc, String.le_trans hab' hbc'⟩

theorem keyAtMost_total (a b : (Instant × String) × DisplayOccurrence) : (keyAtMost a b || keyAtMost b a) = true := by
  rw [Bool.or_eq_true, keyAtMost_iff, keyAtMost_iff]
  unfold KeyLE
  rcases Int.lt_trichotomy a.1.1 b.1.1 with h | h | h
  · exact .inl (.inl h)
  · rcases String.le_total a.1.2 b.1.2 with h' | h'
    · exact .inl (.inr ⟨h, h'⟩)
    · exact .inr (.inr ⟨h.symm, h'⟩)
  · exact .inr (.inl h)

section

variable {dateutil : Dateutil} {occurrences : List RawOccurrence} {d d' : LocalDate} {days : ℤ} {zone : ZoneInfo}
  {startAt endAt now : Instant}

theorem filterOccurrences_ok {out : List DisplayOccurrence}
    (h : filterOccurrences dateutil occurrences d days zone now = .ok out) :
    ∃ d' startAt endAt, Window dateutil occurrences d d' days zone startAt endAt now ∧
      out.Perm ((occurrences.filterMap liveOccurrence).filter (taken d d' startAt endAt now)) ∧
      SortedByKey dateutil zone out := by
  unfold filterOccurrences at h
  simp only [bind_eq_ok] at h
  obtain ⟨d', hlast, startAt, hstart, endAt, hstop, now', hclock, selected, hselected, keys, hkeys, h⟩ := h
  obtain rfl := (inYears_eq_ok.mp hclock).1
  cases h
  have hitems := mapM_keyed hkeys
  have hsort := mapM_sortKey hkeys
  have heq := selectOccurrences_eq hselected
  have hperm := (List.mergeSort_perm keys keyAtMost)
  refine ⟨d', startAt, endAt, ⟨hlast, hstart, hstop, hclock, selectOccurrences_converts hselected, ?_⟩, ?_, ?_⟩
  · intro item hitem
    rw [← heq, ← hitems] at hitem
    obtain ⟨k, hk, rfl⟩ := List.mem_map.mp hitem
    exact ⟨k.1, hsort k hk⟩
  · rw [← heq, ← hitems]
    exact hperm.map Prod.snd
  have hpairs := List.pairwise_mergeSort keyAtMost_trans keyAtMost_total keys
  unfold SortedByKey
  rw [List.pairwise_map]
  apply hpairs.imp_of_mem
  intro a b ha hb hab
  exact ⟨a.1, b.1, hsort a (hperm.mem_iff.mp ha), hsort b (hperm.mem_iff.mp hb), keyAtMost_iff.mp hab⟩

theorem Window.returned (h : Window dateutil occurrences d d' days zone startAt endAt now) :
    ∃ out, filterOccurrences dateutil occurrences d days zone now = .ok out ∧
      out.Perm ((occurrences.filterMap liveOccurrence).filter (taken d d' startAt endAt now)) ∧
      SortedByKey dateutil zone out := by
  obtain ⟨selected, hselected⟩ := selectOccurrences_ok d d' startAt endAt now h.convertible
  have heq := selectOccurrences_eq hselected
  obtain ⟨keys, hkeys⟩ := mapM_returns (f := keyed dateutil zone) (l := selected) (by
    intro item hitem
    rw [heq] at hitem
    obtain ⟨k, hk⟩ := h.keys item hitem
    exact ⟨(k, item), by unfold keyed; rw [hk]⟩)
  have hout : filterOccurrences dateutil occurrences d days zone now =
      .ok ((keys.mergeSort keyAtMost).map Prod.snd) := by
    unfold filterOccurrences
    simp only [h.last, h.start, h.stop, h.clock, hselected, hkeys, bind, Except.bind, pure, Except.pure]
  obtain ⟨d₁, s₁, e₁, hwindow, hperm, hsorted⟩ := filterOccurrences_ok hout
  have hd : d₁ = d' := Except.ok.inj (hwindow.last.symm.trans h.last)
  have hs : s₁ = startAt := Except.ok.inj (hwindow.start.symm.trans h.start)
  subst hd
  have he : e₁ = endAt := Except.ok.inj (hwindow.stop.symm.trans h.stop)
  subst hs he
  exact ⟨_, hout, hperm, hsorted⟩

end

section

variable {d d' d'' : LocalDate} {s m e now : ℤ} {item : DisplayOccurrence}

def takesInstants (s e now x y : ℤ) : Bool :=
  if x = y then decide (s ≤ x ∧ x < e ∧ now ≤ x) else decide (x < e ∧ s < y ∧ now < y)

variable {first last : Aware}

theorem taken_timed (hspan : item.span = .timed first last) (hc : Convertible item) :
    taken d d' s e now item = takesInstants s e now first.instant last.instant := by
  unfold Convertible at hc
  unfold taken selects takesInstants
  rw [hspan] at hc ⊢
  dsimp only at hc ⊢
  rw [hc.1, hc.2]
  dsimp only
  by_cases h : first.instant = last.instant
  · rw [if_pos h, if_pos h]
  · rw [if_neg h, if_neg h]

theorem taken_joined (hd : d.ordinal ≤ d'.ordinal) (hd' : d'.ordinal ≤ d''.ordinal) (hs : s ≤ m) (hm : m ≤ e)
    (hc : Convertible item) (ho : item.span.Ordered) :
    taken d d'' s e now item = (taken d d' s m now item || taken d' d'' m e now item) := by
  cases hspan : item.span with
  | allDay first last =>
    unfold Span.Ordered at ho
    rw [hspan] at ho
    unfold taken selects
    rw [hspan]
    simp only [← Bool.decide_or, decide_eq_decide]
    omega
  | timed first last =>
    unfold Span.Ordered at ho
    rw [hspan] at ho
    rw [taken_timed hspan hc, taken_timed hspan hc, taken_timed hspan hc]
    change (first.instant : ℤ) ≤ last.instant at ho
    generalize first.instant = x at ho ⊢
    generalize last.instant = y at ho ⊢
    unfold takesInstants
    by_cases hxy : x = y
    · simp only [hxy, if_true, ← Bool.decide_or, decide_eq_decide]
      omega
    simp only [hxy, if_false, ← Bool.decide_or, decide_eq_decide]
    have hlt := Int.lt_iff_le_and_ne.mpr ⟨ho, hxy⟩
    omega

theorem taken_once (hspan : item.span = .timed first last) (hpoint : first.instant = last.instant)
    (hc : Convertible item) : ¬(taken d d' s m now item = true ∧ taken d' d'' m e now item = true) := by
  rw [taken_timed hspan hc, taken_timed hspan hc, hpoint]
  unfold takesInstants
  simp only [if_true, decide_eq_true_eq]
  omega

end

def SkippedMidnight (zone : ZoneInfo) (d : LocalDate) : Prop :=
  ∃ t old, Gap zone t old (old + day) ∧ t + old ≤ wallTime d 0 ∧ wallTime d 0 < t + old + day

namespace ZoneRule

variable (rule : ZoneRule) {dateutil : Dateutil}

theorem utcOffset_eq (u : ℤ) : rule.zone.utcOffset u = lastStep rule.before rule.transitions u := rfl

theorem wallOffset_eq (v : ℤ) : rule.zone.wallOffset false v = reading rule.before rule.transitions v := rfl

theorem midnight_eq (hd : dateutil.Documented) {d : LocalDate} {u : ℤ}
    (h : midnightInstant dateutil d rule.zone = .ok u) :
    u = wallTime d 0 - reading rule.before rule.transitions (wallTime d 0) := by
  unfold midnightInstant localMidnight at h
  cases hexists : dateutil.datetimeExists rule.zone (wallTime d 0) with
  | error e => rw [hexists] at h; cases h
  | ok b =>
    rw [hexists] at h
    cases b with
    | true =>
      unfold instantOf at h
      exact (inYears_eq_ok.mp h).1.symm
    | false =>
      obtain ⟨hcandidate, hback⟩ := hd.converts _ _ _ hexists
      have htrip := hd.roundTrip _ _ hcandidate hback
      rw [hexists] at htrip
      have hnone : occurrence rule.zone (wallTime d 0) false = none := by
        simpa using htrip
      cases reading_shows rule.steady (wallTime d 0) with
      | inl hshows =>
        unfold occurrence at hnone
        rw [wallOffset_eq] at hnone
        dsimp only at hnone
        rw [utcOffset_eq, hshows, if_pos (by omega)] at hnone
        cases hnone
      | inr hgap =>
        obtain ⟨t, new, hforward, hlow, hhigh⟩ := hgap
        have hlt := hforward.lt
        have gap := rule.gap hforward
        have hshort := gap.short
        rw [hd.fallsForward _ _ _ _ gap _ hlow hhigh] at h
        dsimp only at h
        unfold instantOf at h
        rw [gap.readAfter _ (by omega) (by omega)] at h
        have hu := (inYears_eq_ok.mp h).1
        omega

theorem midnight_le (hd : dateutil.Documented) {d d' : LocalDate} {a : ℤ} (ha : 1 ≤ a)
    (hdays : d'.ordinal = d.ordinal + a) {s m : ℤ} (hs : midnightInstant dateutil d rule.zone = .ok s)
    (hm : midnightInstant dateutil d' rule.zone = .ok m) :
    s ≤ m ∧ (s = m → a = 1 ∧ SkippedMidnight rule.zone d) := by
  have hstart := rule.midnight_eq hd hs
  have hstop := rule.midnight_eq hd hm
  have hday : (0 : ℤ) < day := by decide
  have hapart : wallTime d 0 + day ≤ wallTime d' 0 := by
    unfold wallTime
    rw [hdays]
    simp only [day, second, minute]
    omega
  obtain ⟨hle, heq⟩ := reading_le rule.steady hapart
  have hordered : s ≤ m := by
    rw [hstart, hstop]
    exact hle
  refine ⟨hordered, ?_⟩
  intro hsame
  rw [hstart, hstop] at hsame
  obtain ⟨hnext, hchange⟩ := heq hsame
  have hone : a = 1 := by
    unfold wallTime at hnext
    rw [hdays] at hnext
    simp only [day, second, minute] at hnext
    omega
  refine ⟨hone, ?_⟩
  -- One instant is the first reading of both midnights, so its offset is not that of the first.
  have hoffset : rule.zone.utcOffset (wallTime d' 0 - reading rule.before rule.transitions (wallTime d' 0)) =
        reading rule.before rule.transitions (wallTime d' 0) ∨
      reading rule.before rule.transitions (wallTime d' 0) <
        rule.zone.utcOffset (wallTime d' 0 - reading rule.before rule.transitions (wallTime d' 0)) := by
    cases reading_shows rule.steady (wallTime d' 0) with
    | inl hshows => exact .inl hshows
    | inr hgap =>
      obtain ⟨t, new, hforward, hlow, hhigh⟩ := hgap
      have gap := rule.gap hforward
      have hshort := gap.short
      rw [gap.after _ (by omega) (by omega)]
      exact .inr hforward.lt
  rw [← hsame] at hoffset
  cases reading_shows rule.steady (wallTime d 0) with
  | inl hshows =>
    rw [utcOffset_eq, hshows] at hoffset
    omega
  | inr hgap =>
    obtain ⟨t, new, hforward, hlow, hhigh⟩ := hgap
    have gap := rule.gap hforward
    have hshort := gap.short
    rw [gap.after _ (by omega) (by omega)] at hoffset
    have hnew : new = reading rule.before rule.transitions (wallTime d 0) + day := by omega
    rw [hnew] at gap
    exact ⟨t, _, gap, hlow, by omega⟩

end ZoneRule

section

variable {dateutil : Dateutil} {occurrences : List RawOccurrence} {d d' d'' : LocalDate} {a b : ℤ} {zone : ZoneInfo}
  {s m e now : Instant} {first second whole : List DisplayOccurrence}

theorem addDays_eq_ok {n : ℤ} (h : addDays d n = .ok d') : d'.ordinal = d.ordinal + n := ofOrdinal_eq_ok h

theorem liveOccurrence_ordered (h : ∀ raw ∈ occurrences, ∀ item, asDisplayOccurrence raw = .ok item → item.span.Ordered) :
    ∀ item ∈ occurrences.filterMap liveOccurrence, item.span.Ordered := by
  intro item hitem
  obtain ⟨raw, hraw, hlive⟩ := List.mem_filterMap.mp hitem
  unfold liveOccurrence at hlive
  split at hlive
  next shown hshown =>
    split at hlive
    · cases hlive
    · cases hlive
      exact h raw hraw item hshown
  next => cases hlive

theorem Window.joined (ha : 1 ≤ a) (hb : 1 ≤ b) (hs : s ≤ m) (hm : m ≤ e)
    (hordered : ∀ item ∈ occurrences.filterMap liveOccurrence, item.span.Ordered)
    (hfirst : Window dateutil occurrences d d' a zone s m now)
    (hsecond : Window dateutil occurrences d' d'' b zone m e now) :
    Window dateutil occurrences d d'' (a + b) zone s e now ∧
      ∀ item ∈ occurrences.filterMap liveOccurrence,
        taken d d'' s e now item = (taken d d' s m now item || taken d' d'' m e now item) := by
  have hd' := addDays_eq_ok hfirst.last
  have hd'' := addDays_eq_ok hsecond.last
  have htaken : ∀ item ∈ occurrences.filterMap liveOccurrence,
      taken d d'' s e now item = (taken d d' s m now item || taken d' d'' m e now item) := by
    intro item hitem
    exact taken_joined (by omega) (by omega) hs hm (hfirst.convertible item hitem) (hordered item hitem)
  refine ⟨⟨?_, hfirst.start, hsecond.stop, hfirst.clock, hfirst.convertible, ?_⟩, htaken⟩
  · have hsum : d.ordinal + (a + b) = d'.ordinal + b := by omega
    have hlast := hsecond.last
    unfold addDays at hlast ⊢
    rw [hsum]
    exact hlast
  · intro item hitem
    obtain ⟨hlive, hwhole⟩ := List.mem_filter.mp hitem
    rw [htaken item hlive, Bool.or_eq_true] at hwhole
    cases hwhole with
    | inl h => exact hfirst.keys item (List.mem_filter.mpr ⟨hlive, h⟩)
    | inr h => exact hsecond.keys item (List.mem_filter.mpr ⟨hlive, h⟩)

theorem filterWindow_ok {days : ℤ} {out : List DisplayOccurrence}
    (h : filterWindow dateutil occurrences d days zone now = .ok out) :
    filterOccurrences dateutil occurrences d days zone now = .ok out := by
  unfold filterWindow at h
  split at h
  · exact h
  · cases h

theorem count_filter_joined {l : List DisplayOccurrence} {p q r : DisplayOccurrence → Bool}
    (h : ∀ item ∈ l, r item = (p item || q item)) (item : DisplayOccurrence) :
    (l.filter r).count item = max ((l.filter p).count item) ((l.filter q).count item) := by
  by_cases hmem : item ∈ l
  · have hr := h item hmem
    cases hp : p item with
    | true =>
      have htrue : r item = true := by rw [hr, hp, Bool.true_or]
      rw [List.count_filter htrue, List.count_filter hp]
      have hle : (l.filter q).count item ≤ l.count item := List.filter_sublist.count_le item
      omega
    | false =>
      have hout : item ∉ l.filter p := by
        intro hin
        rw [(List.mem_filter.mp hin).2] at hp
        cases hp
      rw [List.count_eq_zero.mpr hout]
      rw [hp, Bool.false_or] at hr
      cases hq : q item with
      | true => rw [List.count_filter (hr.trans hq), List.count_filter hq, Nat.zero_max]
      | false =>
        have hnone : ∀ f : DisplayOccurrence → Bool, f item = false → (l.filter f).count item = 0 := by
          intro f hf
          apply List.count_eq_zero.mpr
          intro hin
          rw [(List.mem_filter.mp hin).2] at hf
          cases hf
        rw [hnone r (hr.trans hq), hnone q hq]
        rfl
  · have hnone : ∀ f : DisplayOccurrence → Bool, (l.filter f).count item = 0 := by
      intro f
      apply List.count_eq_zero.mpr
      intro hin
      exact hmem (List.mem_filter.mp hin).1
    rw [hnone, hnone, hnone]
    rfl

end

/-- Two adjacent windows select in order just what the whole window does, and the midnights between them are in
order. -/
theorem windows_compose (dateutil : Dateutil) (hd : dateutil.Documented) (rule : ZoneRule)
    (occurrences : List RawOccurrence)
    (hordered : ∀ raw ∈ occurrences, ∀ item, asDisplayOccurrence raw = .ok item → item.span.Ordered) (now : Instant)
    {d d' : LocalDate} {a b : ℤ} (ha : 1 ≤ a) (hb : 1 ≤ b) (hab : a + b ≤ 30) (hd' : addDays d a = .ok d')
    {first second : List DisplayOccurrence}
    (hfirst : filterWindow dateutil occurrences d a rule.zone now = .ok first)
    (hsecond : filterWindow dateutil occurrences d' b rule.zone now = .ok second) :
    (∃ whole, filterWindow dateutil occurrences d (a + b) rule.zone now = .ok whole ∧
        (∀ item, whole.count item = max (first.count item) (second.count item)) ∧
        SortedByKey dateutil rule.zone whole) ∧
      SortedByKey dateutil rule.zone first ∧ SortedByKey dateutil rule.zone second ∧
      (∀ item start stop, item.span = .timed start stop → start.instant = stop.instant →
        ¬(item ∈ first ∧ item ∈ second)) ∧
      ∃ d'' s m e, addDays d' b = .ok d'' ∧ midnightInstant dateutil d rule.zone = .ok s ∧
        midnightInstant dateutil d' rule.zone = .ok m ∧ midnightInstant dateutil d'' rule.zone = .ok e ∧
        s ≤ m ∧ (s = m → a = 1 ∧ SkippedMidnight rule.zone d) ∧
        m ≤ e ∧ (m = e → b = 1 ∧ SkippedMidnight rule.zone d') := by
  obtain ⟨d₁, s, m, hwindow, hperm, hsorted⟩ := filterOccurrences_ok (filterWindow_ok hfirst)
  obtain ⟨d'', m', e, hwindow', hperm', hsorted'⟩ := filterOccurrences_ok (filterWindow_ok hsecond)
  obtain rfl : d₁ = d' := Except.ok.inj (hwindow.last.symm.trans hd')
  obtain rfl : m' = m := Except.ok.inj (hwindow'.start.symm.trans hwindow.stop)
  obtain ⟨hsm, hskip⟩ := rule.midnight_le hd ha (addDays_eq_ok hd') hwindow.start hwindow.stop
  obtain ⟨hme, hskip'⟩ := rule.midnight_le hd hb (addDays_eq_ok hwindow'.last) hwindow.stop hwindow'.stop
  obtain ⟨hjoined, htaken⟩ := hwindow.joined ha hb hsm hme (liveOccurrence_ordered hordered) hwindow'
  obtain ⟨whole, hwhole, hperm'', hsorted''⟩ := hjoined.returned
  refine ⟨⟨whole, ?_, ?_, hsorted''⟩, hsorted, hsorted', ?_, d'', s, m', e, hwindow'.last, hwindow.start, hwindow.stop,
    hwindow'.stop, hsm, hskip, hme, hskip'⟩
  · unfold filterWindow
    rw [if_pos ⟨by omega, hab⟩]
    exact hwhole
  · intro item
    rw [hperm.count_eq, hperm'.count_eq, hperm''.count_eq]
    exact count_filter_joined htaken item
  intro item start stop hspan hpoint hboth
  obtain ⟨hlive, htaken₁⟩ := List.mem_filter.mp (hperm.mem_iff.mp hboth.1)
  have htaken₂ := (List.mem_filter.mp (hperm'.mem_iff.mp hboth.2)).2
  exact taken_once hspan hpoint (hwindow.convertible item hlive) ⟨htaken₁, htaken₂⟩

/-! Samoa around the day it left out, and a clock put forward by thirty hours -/

namespace SeamSample

open GapSample

def samoa : ZoneRule where
  before := -10 * hour
  transitions := [(dateline, 14 * hour)]
  bounded := by decide
  steady := ⟨by decide, by decide, ⟨86400, by decide⟩, by decide, by decide, by simp, trivial⟩
  inCalendar := by decide

def dec29 : LocalDate := ⟨15337, by decide +kernel⟩

def dec30 : LocalDate := ⟨15338, by decide +kernel⟩

def dec31 : LocalDate := ⟨15339, by decide +kernel⟩

def occurrences : List RawOccurrence :=
  [⟨some false, some "reset", some "ff14_calendar_primary", .aware ⟨(dateline - 36 * hour), 0⟩,
      .aware ⟨(dateline - 12 * hour), 0⟩, some false⟩,
    ⟨some false, some "maintenance", some "ff14_calendar_primary", .aware ⟨(dateline + hour), 0⟩,
      .aware ⟨(dateline + hour), 0⟩, some false⟩]

def reset : DisplayOccurrence :=
  ⟨"reset", .timed ⟨dateline - 36 * hour, 0⟩ ⟨dateline - 12 * hour, 0⟩, "ff14_calendar_primary"⟩

def maintenance : DisplayOccurrence :=
  ⟨"maintenance", .timed ⟨dateline + hour, 0⟩ ⟨dateline + hour, 0⟩, "ff14_calendar_primary"⟩

def leaping : ZoneInfo := ZoneInfo.ofTransitions (-15 * hour) [(dateline + 5 * hour, 15 * hour)]

def raid : RawOccurrence :=
  ⟨some false, some "raid", some "ff14_calendar_primary", .aware ⟨dateline + 24 * hour, 0⟩, .aware ⟨dateline + 25 * hour, 0⟩,
    some false⟩

def raidItem : DisplayOccurrence :=
  ⟨"raid", .timed ⟨dateline + 24 * hour, 0⟩ ⟨dateline + 25 * hour, 0⟩, "ff14_calendar_primary"⟩

theorem ok_of_toOption {α : Type} {x : Except Failure α} {a : α} (h : x.toOption = some a) : x = .ok a := by
  cases x with
  | error e => cases h
  | ok b => rw [Option.some.inj h]

theorem occurrences_ordered : ∀ raw ∈ occurrences, ∀ item, asDisplayOccurrence raw = .ok item → item.span.Ordered := by
  intro raw hraw item h
  simp only [occurrences, List.mem_cons, List.not_mem_nil, or_false] at hraw
  rcases hraw with rfl | rfl
  · cases h
    change Aware.instant _ ≤ Aware.instant _
    decide
  cases h
  change Aware.instant _ ≤ Aware.instant _
  decide

end SeamSample

open SeamSample GapSample in
/-- The midnight of the day that Samoa left out is the next one. -/
theorem midnights_not_strict :
    (∃ u, midnightInstant dateutil dec30 samoa.zone = .ok u ∧ midnightInstant dateutil dec31 samoa.zone = .ok u) ∧
      ∃ first whole, filterWindow dateutil [raid] dec30 1 leaping 0 = .ok first ∧
        filterWindow dateutil [raid] dec30 2 leaping 0 = .ok whole ∧ raidItem ∈ first ∧ raidItem ∉ whole := by
  constructor
  · refine ⟨dateline, ok_of_toOption ?_, ok_of_toOption ?_⟩
    · decide +kernel
    · decide +kernel
  refine ⟨[raidItem], [], ok_of_toOption ?_, ok_of_toOption ?_, by simp, by simp⟩
  · decide +kernel
  · decide +kernel

open SeamSample GapSample in
theorem windows_compose_samoa :
    ∃ whole, filterWindow dateutil occurrences dec29 3 samoa.zone 0 = .ok whole ∧
      (∀ item, whole.count item = max ([reset].count item) ([maintenance].count item)) ∧
      SortedByKey dateutil samoa.zone whole := by
  have hnext : addDays dec29 1 = .ok dec30 := ok_of_toOption (by decide +kernel)
  have hfirst : filterWindow dateutil occurrences dec29 1 samoa.zone 0 = .ok [reset] := ok_of_toOption (by decide +kernel)
  have hsecond : filterWindow dateutil occurrences dec30 2 samoa.zone 0 = .ok [maintenance] :=
    ok_of_toOption (by decide +kernel)
  exact (windows_compose dateutil documented samoa occurrences occurrences_ordered 0 (by decide) (by decide) (by decide)
    hnext hfirst hsecond).1

end GameLink.Ff14

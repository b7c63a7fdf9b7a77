import GameLink.Ff14.Series
import GameLink.Ff14.ZoneRules

namespace GameLink.Ff14.Ics

open Foundation Contracts Digest

/-! The expansion of a rule up to a bound, against its whole recurrence set. -/

def within : Until → Option Zone → ℤ → Bool
  | .instant t, some zone, v => v - zone.info.wallOffset false v ≤ t
  | .instant t, none, v => v ≤ t
  | .date d, _, v => v ≤ d.ordinal * day

/-- What `dateutil.rrule` is documented to yield for a rule that `_validate_rule` accepts: times at DTSTART's time of day,
one after the other, up to UNTIL. -/
structure RecurrenceSet (e : Setting) where
  times : Rule → ℤ → List ℤ
  ordered : ∀ rule start wall, rule.valid start = true → (times rule wall).Pairwise (· < ·)
  daily : ∀ rule start wall, rule.valid start = true → ∀ v ∈ times rule wall, day ∣ v - wall
  counted : ∀ rule zone wall r, rule.has "UNTIL" = false → e.rrulestr rule none zone wall = .ok r →
    r = ⟨times rule wall, none⟩
  bounded : ∀ rule limit zone wall r, e.rrulestr rule (some limit) zone wall = .ok r →
    r = ⟨(times rule wall).takeWhile (within limit zone), none⟩

def ownUntil (rule : Rule) : Temporal → Option Until
  | .date _ => (untilDate rule).map .date
  | .timed _ => (untilInstant rule).map .instant

def RecurrenceSet.unmodified {e : Setting} (set : RecurrenceSet e) (rule : Rule) (start : Temporal) : List ℤ :=
  match ownUntil rule start with
  | none => set.times rule (recurrenceStart start).2
  | some bound => (set.times rule (recurrenceStart start).2).takeWhile (within bound (recurrenceStart start).1)

section

variable (e : Setting)

def candidateAt (start : Temporal) (v : ℤ) : Except Fault Temporal := do
  let normalized ← normalize e start v
  call (candidateOf start normalized)

def candidates (start : Temporal) (values : List ℤ) : List Temporal :=
  values.filterMap fun v => (candidateAt e start v).toOption

structure Series (master : Event) (overrides : List Event) (rule : Rule) where
  start : Temporal
  stop : Temporal
  length : ℤ
  exdates : List Temporal
  rdates : List Temporal
  target : Instant
  bound : Instant × Until × ℕ
  starts : master.start = some start
  stops : master.stop = some stop
  lasts : duration start stop = .ok length
  excepts : readExceptions e master.component start = .ok (exdates, rdates)
  ruled : master.component.get "RRULE" = some (.recur rule)
  valid : rule.valid start = true
  wanted : ∃ upper, e.windowEnd.utc = .ok upper ∧ targetOf e start overrides upper = .ok target
  bounds : boundOf e rule start target = .ok bound

end

namespace Series

variable {e : Setting} {master : Event} {overrides : List Event} {rule : Rule} (m : Series e master overrides rule)
  (set : RecurrenceSet e)

def limit : Until := m.bound.2.1

def shown (id : Identity) (candidate : Temporal) : Except Fault (List CalendarOccurrence) :=
  instanceOf e master m.start m.length 0 ((overrideMap overrides).lookup id) id candidate

def Expected (o : CalendarOccurrence) : Prop :=
  ∃ id candidate occurrences,
    (id, candidate) ∈ uniqueCandidates (m.exdates.map identity) (candidates e m.start (set.unmodified rule m.start) ++ m.rdates) ∧
      m.shown id candidate = .ok occurrences ∧ o ∈ occurrences

structure Exact (occurrences : List CalendarOccurrence) : Prop where
  once : (occurrences.map CalendarOccurrence.recurrenceIdentity).Nodup
  same : ∀ o, o ∈ occurrences ↔ m.Expected set o

def Skipped (v : ℤ) : Prop :=
  match m.start with
  | .timed t => occurrence t.zone.info v false = none
  | .date _ => True

def Lost (v : ℤ) : Prop :=
  v ∈ set.unmodified rule m.start ∧ within m.limit (recurrenceStart m.start).1 v = false ∧ m.Skipped v ∧
    ∃ candidate occurrences, candidateAt e m.start v = .ok candidate ∧ identity candidate ∉ m.exdates.map identity ∧
      identity candidate ∉ m.rdates.map identity ∧
      instanceOf e master m.start m.length 0 none (identity candidate) candidate = .ok occurrences ∧ occurrences ≠ []

end Series

variable {exdates : List Identity} {id : Identity} {l : List Temporal} {candidate : Temporal}

theorem mem_uniqueCandidates :
    (id, candidate) ∈ uniqueCandidates exdates l ↔
      identity candidate = id ∧ id ∉ exdates ∧
        ∃ before after, l = before ++ candidate :: after ∧ ∀ c ∈ after, identity c ≠ id := by
  unfold uniqueCandidates
  rw [(foldl_setEntry identity _).2]
  constructor
  · rintro ⟨rfl, before, after, hl, hafter⟩
    have hmem : candidate ∈ l.filter fun candidate => !exdates.contains (identity candidate) := by
      rw [hl]
      simp
    have hex : identity candidate ∉ exdates := by simpa using (List.mem_filter.mp hmem).2
    refine ⟨rfl, hex, ?_⟩
    obtain ⟨l₁, l₂, rfl, h₁, h₂⟩ := List.filter_eq_append_iff.mp hl
    obtain ⟨l₃, l₄, rfl, h₃, h₄, h₅⟩ := List.filter_eq_cons_iff.mp h₂
    refine ⟨l₁ ++ l₃, l₄, by simp, ?_⟩
    intro c hc heq
    apply hafter c _ heq
    rw [← h₅]
    apply List.mem_filter.mpr
    refine ⟨hc, ?_⟩
    rw [heq]
    simpa using hex
  · rintro ⟨rfl, hex, before, after, rfl, hafter⟩
    refine ⟨rfl, before.filter fun c => !exdates.contains (identity c), after.filter fun c => !exdates.contains (identity c),
      ?_, ?_⟩
    · rw [List.filter_append, List.filter_cons, if_pos (by simpa using hex)]
    · intro c hc
      exact hafter c (List.mem_of_mem_filter hc)

theorem uniqueCandidates_nodup (exdates : List Identity) (l : List Temporal) :
    ((uniqueCandidates exdates l).map Prod.fst).Nodup := (foldl_setEntry identity _).1

theorem mem_keys_uniqueCandidates :
    id ∈ (uniqueCandidates exdates l).map Prod.fst ↔ id ∉ exdates ∧ id ∈ l.map identity := by
  constructor
  · intro h
    obtain ⟨⟨id', c⟩, hmem, rfl⟩ := List.mem_map.mp h
    obtain ⟨hid, hex, before, after, rfl, -⟩ := mem_uniqueCandidates.mp hmem
    exact ⟨hex, List.mem_map.mpr ⟨c, by simp, hid⟩⟩
  rintro ⟨hex, hid⟩
  have hlast : ∃ before c after, l = before ++ c :: after ∧ identity c = id ∧ ∀ c' ∈ after, identity c' ≠ id := by
    induction l with
    | nil => simp at hid
    | cons c rest ih =>
      by_cases hrest : id ∈ rest.map identity
      · obtain ⟨before, c', after, rfl, hc', hafter⟩ := ih hrest
        exact ⟨c :: before, c', after, rfl, hc', hafter⟩
      rw [List.map_cons, List.mem_cons] at hid
      refine ⟨[], c, rest, rfl, (hid.resolve_right hrest).symm, ?_⟩
      intro c' hc' heq
      exact hrest (List.mem_map.mpr ⟨c', hc', heq⟩)
  obtain ⟨before, c, after, hl, hc, hafter⟩ := hlast
  exact List.mem_map.mpr ⟨(id, c), mem_uniqueCandidates.mpr ⟨hc, hex, before, after, hl, hafter⟩, rfl⟩

theorem mem_uniqueCandidates_append {l r : List Temporal} :
    (id, candidate) ∈ uniqueCandidates exdates (l ++ r) ↔
      (id, candidate) ∈ uniqueCandidates exdates r ∨
        (id ∉ r.map identity ∧ (id, candidate) ∈ uniqueCandidates exdates l) := by
  simp only [mem_uniqueCandidates]
  constructor
  · rintro ⟨hid, hex, before, after, hl, hafter⟩
    rcases List.append_eq_append_iff.mp hl with ⟨m, rfl, hr⟩ | ⟨m, rfl, hm⟩
    · exact .inl ⟨hid, hex, m, after, hr, hafter⟩
    rcases List.cons_eq_append_iff.mp hm with ⟨rfl, hr⟩ | ⟨m', rfl, rfl⟩
    · exact .inl ⟨hid, hex, [], after, hr, hafter⟩
    refine .inr ⟨?_, hid, hex, before, m', rfl, fun c hc => hafter c (List.mem_append_left _ hc)⟩
    intro hmem
    obtain ⟨c, hc, heq⟩ := List.mem_map.mp hmem
    exact hafter c (List.mem_append_right _ hc) heq
  · rintro (⟨hid, hex, before, after, rfl, hafter⟩ | ⟨hnot, hid, hex, before, after, rfl, hafter⟩)
    · exact ⟨hid, hex, l ++ before, after, by simp, hafter⟩
    refine ⟨hid, hex, before, after ++ r, by simp, ?_⟩
    intro c hc heq
    rcases List.mem_append.mp hc with hc | hc
    · exact hafter c hc heq
    · exact hnot (List.mem_map.mpr ⟨c, hc, heq⟩)

theorem mem_uniqueCandidates_of_inj
    (hl : ∀ c ∈ l, ∀ c' ∈ l, identity c = identity c' → c = c') :
    (id, candidate) ∈ uniqueCandidates exdates l ↔ identity candidate = id ∧ id ∉ exdates ∧ candidate ∈ l := by
  constructor
  · intro h
    obtain ⟨hid, hex, before, after, rfl, -⟩ := mem_uniqueCandidates.mp h
    exact ⟨hid, hex, by simp⟩
  rintro ⟨hid, hex, hmem⟩
  have hkey := mem_keys_uniqueCandidates.mpr ⟨hex, List.mem_map.mpr ⟨candidate, hmem, hid⟩⟩
  obtain ⟨⟨id', c⟩, hc, rfl⟩ := List.mem_map.mp hkey
  obtain ⟨hid', -, before, after, heq, -⟩ := mem_uniqueCandidates.mp hc
  have hcmem : c ∈ l := by
    rw [heq]
    simp
  rw [hl candidate hmem c hcmem (hid.trans hid'.symm)]
  exact hc

section

variable {e : Setting}

theorem call_eq_ok {α : Type} {x : Except Failure α} {a : α} (h : call x = .ok a) : x = .ok a := by
  cases x with
  | error err => cases h
  | ok b =>
    cases h
    rfl

def Stopped (e : Setting) (start : Temporal) (target : Instant) (before after : List ℤ) : Prop :=
  after = [] ∨ ∃ v normalized u, before.getLast? = some v ∧ normalize e start v = .ok normalized ∧
    normalized.utc = .ok u ∧ target < u

variable {start : Temporal} {values : List ℤ} {target : Instant} {collected : List Temporal}

theorem collect_stopped {rdates used uidBudget sourceBudget : ℕ}
    {stops : Option Failure} {emitted n : ℕ}
    (h : collect e start target rdates used uidBudget sourceBudget stops values emitted = .ok (collected, n)) :
    ∃ before after, values = before ++ after ∧
      List.Forall₂ (fun v c => candidateAt e start v = .ok c) before collected ∧ Stopped e start target before after := by
  induction values generalizing emitted collected n with
  | nil =>
    unfold collect at h
    split at h
    · cases h
      exact ⟨[], [], rfl, .nil, .inl rfl⟩
    · cases h
  | cons value rest ih =>
    unfold collect at h
    split at h
    · cases h
    obtain ⟨normalized, hnormalized, h⟩ := of_bind_eq_ok h
    obtain ⟨candidate, hcandidate, h⟩ := of_bind_eq_ok h
    obtain ⟨u, hu, h⟩ := of_bind_eq_ok h
    have hat : candidateAt e start value = .ok candidate := by
      unfold candidateAt
      rw [hnormalized]
      exact hcandidate
    split at h
    · rename_i hpast
      cases h
      exact ⟨[value], rest, rfl, .cons hat .nil, .inr ⟨value, normalized, u, rfl, hnormalized, call_eq_ok hu, hpast⟩⟩
    obtain ⟨⟨more, n'⟩, hmore, h⟩ := of_bind_eq_ok h
    cases h
    obtain ⟨before, after, rfl, hforall, hstopped⟩ := ih hmore
    refine ⟨value :: before, after, rfl, .cons hat hforall, ?_⟩
    rcases hstopped with rfl | ⟨v, normalized', u', hlast, hrest⟩
    · exact .inl rfl
    right
    refine ⟨v, normalized', u', ?_, hrest⟩
    rw [List.getLast?_cons, hlast]
    rfl

variable {c : Temporal}

theorem mem_of_forall₂
    (h : List.Forall₂ (fun v c => candidateAt e start v = .ok c) values collected) :
    c ∈ collected ↔ ∃ v ∈ values, candidateAt e start v = .ok c := by
  induction h with
  | nil => simp
  | @cons v c' values collected hhead htail ih =>
    rw [List.mem_cons, ih]
    constructor
    · rintro (rfl | ⟨w, hw, hat⟩)
      · exact ⟨v, List.mem_cons_self, hhead⟩
      · exact ⟨w, List.mem_cons_of_mem _ hw, hat⟩
    rintro ⟨w, hw, hat⟩
    rcases List.mem_cons.mp hw with rfl | hw
    · rw [hhead] at hat
      cases hat
      exact .inl rfl
    · exact .inr ⟨w, hw, hat⟩

theorem mem_candidates :
    c ∈ candidates e start values ↔ ∃ v ∈ values, candidateAt e start v = .ok c := by
  unfold candidates
  rw [List.mem_filterMap]
  constructor
  · rintro ⟨v, hv, h⟩
    refine ⟨v, hv, ?_⟩
    cases hat : candidateAt e start v with
    | error err =>
      rw [hat] at h
      cases h
    | ok c' =>
      rw [hat] at h
      cases h
      rfl
  · rintro ⟨v, hv, h⟩
    exact ⟨v, hv, by rw [h]; rfl⟩

variable {length : ℤ} {used : ℕ} (used' : ℕ)

theorem addedEnd_used {start stop : Temporal}
    (h : addedEnd start length used = .ok stop) : addedEnd start length used' = .ok stop := by
  unfold addedEnd at h ⊢
  cases hadd : addDuration start length with
  | ok stop' =>
    rw [hadd] at h
    exact h
  | error err =>
    rw [hadd] at h
    cases err <;> cases h

variable {master : Event} {candidate : Temporal} {override : Option Event}

theorem instanceTimes_used {times : Temporal × Temporal × Bool × String}
    (h : instanceTimes master start length used override candidate = .ok times) :
    instanceTimes master start length used' override candidate = .ok times := by
  unfold instanceTimes at h ⊢
  cases override with
  | none =>
    obtain ⟨last, hlast, h⟩ := of_bind_eq_ok h
    dsimp only
    rw [addedEnd_used used' hlast]
    exact h
  | some item =>
    dsimp only at h ⊢
    split
    · rename_i hkind
      rw [if_pos hkind] at h
      cases h
    rename_i hkind
    rw [if_neg hkind] at h
    cases hstop : item.stop with
    | some stop =>
      rw [hstop] at h
      exact h
    | none =>
      rw [hstop] at h
      obtain ⟨last, hlast, h⟩ := of_bind_eq_ok h
      dsimp only
      rw [addedEnd_used used' hlast]
      exact h

variable {shown : List CalendarOccurrence} {id : Identity}

theorem instanceOf_used
    (h : instanceOf e master start length used override id candidate = .ok shown) :
    instanceOf e master start length used' override id candidate = .ok shown := by
  unfold instanceOf at h ⊢
  obtain ⟨⟨first, last, cancelled, summary⟩, htimes, h⟩ := of_bind_eq_ok h
  obtain ⟨⟨⟩, hpair, h⟩ := of_bind_eq_ok h
  have hpair' : withUsed used' (validatePair first last) = .ok () := by
    unfold withUsed at hpair ⊢
    split at hpair
    · cases hpair
    · rw [hpair]
  rw [instanceTimes_used used' htimes]
  simp only [bind, Except.bind, hpair']
  exact h

theorem instanceOf_shown
    (h : instanceOf e master start length used override id candidate = .ok shown) :
    shown = [] ∨ ∃ o, shown = [o] ∧ o.recurrenceIdentity = id := by
  unfold instanceOf at h
  obtain ⟨⟨first, last, cancelled, summary⟩, -, h⟩ := of_bind_eq_ok h
  obtain ⟨-, -, h⟩ := of_bind_eq_ok h
  obtain ⟨intersecting, -, h⟩ := of_bind_eq_ok h
  cases intersecting with
  | false =>
    cases h
    exact .inl rfl
  | true =>
    obtain ⟨start', -, h⟩ := of_bind_eq_ok h
    obtain ⟨stop', -, h⟩ := of_bind_eq_ok h
    cases h
    exact .inr ⟨_, rfl, rfl⟩

theorem instanceOf_before (h : instanceOf e master start length used none id candidate = .ok shown)
    (hshown : shown ≠ []) :
    ∃ first upper, instant e candidate = .ok first ∧ e.windowEnd.utc = .ok upper ∧ first < upper := by
  unfold instanceOf instanceTimes at h
  obtain ⟨⟨first', last, cancelled, summary⟩, htimes, h⟩ := of_bind_eq_ok h
  obtain ⟨stop, -, htimes⟩ := of_bind_eq_ok htimes
  cases htimes
  obtain ⟨-, -, h⟩ := of_bind_eq_ok h
  obtain ⟨intersecting, hintersects, h⟩ := of_bind_eq_ok h
  cases intersecting with
  | false =>
    cases h
    exact (hshown rfl).elim
  | true =>
    have hin := call_eq_ok hintersects
    unfold intersects at hin
    obtain ⟨first, hfirst, hin⟩ := of_bind_eq_ok hin
    obtain ⟨last', -, hin⟩ := of_bind_eq_ok hin
    obtain ⟨lower, -, hin⟩ := of_bind_eq_ok hin
    obtain ⟨upper, hupper, hin⟩ := of_bind_eq_ok hin
    refine ⟨first, upper, hfirst, hupper, ?_⟩
    split at hin
    · simp only [pure, Except.pure, Except.ok.injEq, decide_eq_true_eq] at hin
      exact hin.2
    · simp only [pure, Except.pure, Except.ok.injEq, decide_eq_true_eq] at hin
      exact hin.1

theorem lookup_filter_ne {entries : List (Identity × Event)} {id id' : Identity} (hne : id' ≠ id) :
    (entries.filter fun entry => entry.1 != id).lookup id' = entries.lookup id' := by
  induction entries with
  | nil => rfl
  | cons entry rest ih =>
    obtain ⟨k, item⟩ := entry
    rw [List.filter_cons, List.lookup_cons]
    by_cases hk : k = id
    · subst hk
      have hne' : (id' == k) = false := by simpa using hne
      rw [if_neg (by simp), ih, hne']
    · rw [if_pos (by simpa using hk), List.lookup_cons, ih]

structure Instanced (e : Setting) (master : Event) (start : Temporal) (length : ℤ) (unique : List (Identity × Temporal))
    (overrides : List (Identity × Event)) (occurrences : List CalendarOccurrence) : Prop where
  mem : ∀ o, o ∈ occurrences ↔ ∃ id c shown, (id, c) ∈ unique ∧
    instanceOf e master start length 0 (overrides.lookup id) id c = .ok shown ∧ o ∈ shown
  used : ∀ id item, overrides.lookup id = some item → id ∈ unique.map Prod.fst
  once : (occurrences.map CalendarOccurrence.recurrenceIdentity).Nodup
  keys : ∀ o ∈ occurrences, o.recurrenceIdentity ∈ unique.map Prod.fst

variable {occurrences : List CalendarOccurrence}

theorem instances_instanced
    {unique : List (Identity × Temporal)} {overrides : List (Identity × Event)}
    (hnodup : (unique.map Prod.fst).Nodup)
    (h : instances e master start length used unique overrides = .ok occurrences) :
    Instanced e master start length unique overrides occurrences := by
  induction unique generalizing overrides occurrences with
  | nil =>
    unfold instances at h
    split at h
    · rename_i hempty
      cases h
      have hnil := List.isEmpty_iff.mp hempty
      constructor
      · simp
      · intro id item hitem
        rw [hnil] at hitem
        cases hitem
      · exact List.nodup_nil
      · simp
    · cases h
  | cons entry rest ih =>
    obtain ⟨id, candidate⟩ := entry
    obtain ⟨hnew, hrest⟩ := List.nodup_cons.mp hnodup
    unfold instances at h
    obtain ⟨shown, hshown, h⟩ := of_bind_eq_ok h
    obtain ⟨more, hmore, h⟩ := of_bind_eq_ok h
    cases h
    have hi := ih hrest hmore
    have hshown := instanceOf_used 0 hshown
    have hlookup : ∀ id' ∈ rest.map Prod.fst, (overrides.filter fun entry => entry.1 != id).lookup id' = overrides.lookup id' := by
      intro id' hid'
      apply lookup_filter_ne
      rintro rfl
      exact hnew hid'
    have hkeys := instanceOf_shown hshown
    constructor
    · intro o
      rw [List.mem_append, hi.mem]
      constructor
      · rintro (ho | ⟨id', c, shown', hmem, hinstance, ho⟩)
        · exact ⟨id, candidate, shown, List.mem_cons_self, hshown, ho⟩
        refine ⟨id', c, shown', List.mem_cons_of_mem _ hmem, ?_, ho⟩
        rw [← hlookup id' (List.mem_map_of_mem hmem)]
        exact hinstance
      rintro ⟨id', c, shown', hmem, hinstance, ho⟩
      rcases List.mem_cons.mp hmem with heq | hmem
      · cases heq
        rw [hshown] at hinstance
        cases hinstance
        exact .inl ho
      refine .inr ⟨id', c, shown', hmem, ?_, ho⟩
      rw [hlookup id' (List.mem_map_of_mem hmem)]
      exact hinstance
    · intro id' item hitem
      by_cases heq : id' = id
      · rw [heq]
        exact List.mem_cons_self
      apply List.mem_cons_of_mem
      apply hi.used id' item
      rw [lookup_filter_ne heq]
      exact hitem
    · rcases hkeys with rfl | ⟨o, rfl, rfl⟩
      · exact hi.once
      rw [List.singleton_append, List.map_cons]
      refine List.nodup_cons.mpr ⟨?_, hi.once⟩
      intro hmem
      obtain ⟨o', ho', heq⟩ := List.mem_map.mp hmem
      apply hnew
      rw [← heq]
      exact hi.keys o' ho'
    · intro o ho
      rcases List.mem_append.mp ho with ho | ho
      · rcases hkeys with rfl | ⟨o', rfl, hid⟩
        · cases ho
        rw [List.mem_singleton] at ho
        subst ho
        rw [hid]
        exact List.mem_cons_self
      · exact List.mem_cons_of_mem _ (hi.keys o ho)

variable {rule : Rule}

theorem validateRule_eq_ok (h : validateRule rule start = .ok ()) : rule.valid start = true := by
  unfold validateRule at h
  split at h
  · assumption
  · cases h

structure Expanded (e : Setting) (master : Event) (overrides : List Event) (rule : Rule)
    (m : Series e master overrides rule) (occurrences : List CalendarOccurrence) : Prop where
  run : ∃ recurrence collected before after,
    e.rrulestr rule (if rule.has "COUNT" then none else some m.limit) (recurrenceStart m.start).1
        (recurrenceStart m.start).2 = .ok recurrence ∧
      recurrence.values = before ++ after ∧
      List.Forall₂ (fun v c => candidateAt e m.start v = .ok c) before collected ∧
      Stopped e m.start m.bound.1 before after ∧
      Instanced e master m.start m.length (uniqueCandidates (m.exdates.map identity) (collected ++ m.rdates))
        (overrideMap overrides) occurrences

variable {overrides : List Event}

theorem expandSeries_expanded {uidBudget sourceBudget used : ℕ} (hrule : master.component.get "RRULE" = some (.recur rule))
    (h : expandSeries e master overrides uidBudget sourceBudget = .ok (occurrences, used)) :
    ∃ m : Series e master overrides rule, Expanded e master overrides rule m occurrences := by
  unfold expandSeries at h
  cases hstart : master.start with
  | none =>
    rw [hstart] at h
    cases h
  | some start =>
    cases hstop : master.stop with
    | none =>
      rw [hstart, hstop] at h
      cases h
    | some stop =>
      rw [hstart, hstop] at h
      unfold expandFrom at h
      obtain ⟨length, hlength, h⟩ := of_bind_eq_ok h
      obtain ⟨⟨exdates, rdates⟩, hexceptions, h⟩ := of_bind_eq_ok h
      obtain ⟨⟨raw, work⟩, hraw, h⟩ := of_bind_eq_ok h
      obtain ⟨⟨⟩, -, h⟩ := of_bind_eq_ok h
      obtain ⟨found, hfound, h⟩ := of_bind_eq_ok h
      cases h
      unfold rawCandidates at hraw
      rw [hrule] at hraw
      unfold ruleCandidates at hraw
      obtain ⟨⟨⟩, hvalid, hraw⟩ := of_bind_eq_ok hraw
      obtain ⟨upper, hupper, hraw⟩ := of_bind_eq_ok hraw
      obtain ⟨target, htarget, hraw⟩ := of_bind_eq_ok hraw
      obtain ⟨⟨recurrence, target', work'⟩, hbounded, hraw⟩ := of_bind_eq_ok hraw
      obtain ⟨⟨collected, emitted⟩, hcollect, hraw⟩ := of_bind_eq_ok hraw
      cases hraw
      unfold boundedRecurrence at hbounded
      obtain ⟨bound, hbound, hbounded⟩ := of_bind_eq_ok hbounded
      obtain ⟨⟨⟩, -, hbounded⟩ := of_bind_eq_ok hbounded
      dsimp only at hbounded
      cases hrrule : e.rrulestr rule (if rule.has "COUNT" = true then none else some bound.2.1) (recurrenceStart start).1
          (recurrenceStart start).2 with
      | error err =>
        rw [hrrule] at hbounded
        cases hbounded
      | ok recurrence' =>
        rw [hrrule] at hbounded
        cases hbounded
        obtain ⟨before, after, hvalues, hforall, hstopped⟩ := collect_stopped (guarded_eq_ok hcollect)
        exact ⟨⟨start, stop, length, exdates, rdates, target, bound, hstart, hstop, call_eq_ok hlength, hexceptions, hrule,
          validateRule_eq_ok hvalid, ⟨upper, call_eq_ok hupper, htarget⟩, call_eq_ok hbound⟩,
          ⟨recurrence, collected, before, after, hrrule, hvalues, hforall, hstopped,
            instances_instanced (uniqueCandidates_nodup _ _) hfound⟩⟩

variable {l : List ℤ} {R : ℤ → ℤ → Prop} {p : ℤ → Bool}

theorem mem_takeWhile_of_le (hl : l.Pairwise R)
    (hp : ∀ v w, R v w → p w = true → p v = true) {w : ℤ} (hw : w ∈ l) (hpw : p w = true) : w ∈ l.takeWhile p := by
  induction l with
  | nil => cases hw
  | cons v rest ih =>
    obtain ⟨hv, hrest⟩ := List.pairwise_cons.mp hl
    rcases List.mem_cons.mp hw with rfl | hw
    · rw [List.takeWhile_cons, if_pos hpw]
      exact List.mem_cons_self
    · rw [List.takeWhile_cons, if_pos (hp v w (hv w hw) hpw)]
      exact List.mem_cons_of_mem _ (ih hrest hw)

theorem of_mem_takeWhile {w : ℤ} (hw : w ∈ l.takeWhile p) : w ∈ l ∧ p w = true := by
  induction l with
  | nil => cases hw
  | cons v rest ih =>
    rw [List.takeWhile_cons] at hw
    split at hw
    · rename_i hv
      rcases List.mem_cons.mp hw with rfl | hw
      · exact ⟨List.mem_cons_self, hv⟩
      · obtain ⟨hmem, hp⟩ := ih hw
        exact ⟨List.mem_cons_of_mem _ hmem, hp⟩
    · cases hw

theorem RecurrenceSet.spaced (set : RecurrenceSet e) (hvalid : rule.valid start = true)
    (wall : ℤ) : (set.times rule wall).Pairwise fun v w => v + day ≤ w := by
  have hdaily := set.daily rule start wall hvalid
  apply List.Pairwise.imp_of_mem _ (set.ordered rule start wall hvalid)
  intro v w hv hw hlt
  obtain ⟨i, hi⟩ := hdaily v hv
  obtain ⟨j, hj⟩ := hdaily w hw
  have hij : i < j := by
    by_contra hle
    have hmul : day * j ≤ day * i := by
      simp only [day, second]
      omega
    omega
  have hmul : day * (i + 1) ≤ day * j := by
    simp only [day, second]
    omega
  rw [Int.mul_add, Int.mul_one] at hmul
  omega

structure Zoned (e : Setting) (start : Temporal) : Prop where
  display : ∃ zone : ZoneRule, e.display.info = zone.zone
  own : ∀ t, start = .timed t → ∃ zone : ZoneRule, t.zone.info = zone.zone

variable {v : ℤ} {d : LocalDate}

theorem within_date {zone : Option Zone} :
    within (.date d) zone v = true ↔ v ≤ d.ordinal * day := by
  cases zone with
  | none => exact decide_eq_true_iff
  | some zone => exact decide_eq_true_iff

theorem within_instant {u : ℤ} {zone : Zone} {rule : ZoneRule} (hzone : zone.info = rule.zone) :
    within (.instant u) (some zone) v = true ↔ rule.read v ≤ u := by
  unfold ZoneRule.read
  rw [← hzone]
  exact decide_eq_true_iff

variable {v w : ℤ}

theorem within_mono (hzoned : Zoned e start) {bound : Until} (hvw : v + day ≤ w)
    (hw : within bound (recurrenceStart start).1 w = true) : within bound (recurrenceStart start).1 v = true := by
  have hday : (0 : ℤ) < day := by decide
  cases bound with
  | date d =>
    rw [within_date] at hw ⊢
    omega
  | instant u =>
    cases start with
    | date d =>
      have hle : w ≤ u := of_decide_eq_true hw
      apply decide_eq_true
      exact le_trans (by omega) hle
    | timed t =>
      obtain ⟨zone, hzone⟩ := hzoned.own t rfl
      exact (within_instant hzone).mpr (le_trans (zone.read_le hvw) ((within_instant hzone).mp hw))

theorem candidateAt_inj {c c' : Temporal} (hc : candidateAt e start v = .ok c)
    (hc' : candidateAt e start w = .ok c') (h : identity c = identity c') : c = c' := by
  unfold candidateAt at hc hc'
  obtain ⟨normalized, hn, hc⟩ := of_bind_eq_ok hc
  obtain ⟨normalized', hn', hc'⟩ := of_bind_eq_ok hc'
  have hc := call_eq_ok hc
  have hc' := call_eq_ok hc'
  cases start with
  | timed t =>
    cases hc
    cases hc'
    have hzone : normalized.zone = t.zone := by
      change resolved e t.zone v = .ok normalized at hn
      unfold resolved at hn
      split at hn
      · cases hn
        rfl
      · cases hn
    have hzone' : normalized'.zone = t.zone := by
      change resolved e t.zone w = .ok normalized' at hn'
      unfold resolved at hn'
      split at hn'
      · cases hn'
        rfl
      · cases hn'
    cases normalized
    cases normalized'
    cases hzone
    cases hzone'
    cases h
    rfl
  | date d =>
    change (dateOf normalized.wall).map Temporal.date = .ok c at hc
    change (dateOf normalized'.wall).map Temporal.date = .ok c' at hc'
    cases hd : dateOf normalized.wall with
    | error err =>
      rw [hd] at hc
      cases hc
    | ok d₁ =>
      cases hd' : dateOf normalized'.wall with
      | error err =>
        rw [hd'] at hc'
        cases hc'
      | ok d₂ =>
        rw [hd] at hc
        rw [hd'] at hc'
        cases hc
        cases hc'
        cases h
        rfl

variable {zone : ZoneRule} {t : Timed}

theorem normalize_timed (hd : e.dateutil.Documented) (hzone : t.zone.info = zone.zone)
    {normalized : Timed} (h : normalize e (.timed t) v = .ok normalized) :
    ∃ v', normalized = Timed.ofWall t.zone v' ∧
      ((v' = v ∧ occurrence zone.zone v false = some (zone.read v)) ∨ zone.Moved v v') := by
  change resolved e t.zone v = .ok normalized at h
  unfold resolved at h
  rw [hzone] at h
  cases hresolve : resolveLocal e.dateutil zone.zone v with
  | error err =>
    rw [hresolve] at h
    cases h
  | ok v' =>
    rw [hresolve] at h
    cases h
    exact ⟨v', rfl, zone.resolveLocal_cases hd hresolve⟩

theorem candidateAt_timed (hd : e.dateutil.Documented) (hzone : t.zone.info = zone.zone) (h : candidateAt e (.timed t) v = .ok c) :
    ∃ v', c = .timed (Timed.ofWall t.zone v') ∧
      ((v' = v ∧ occurrence zone.zone v false = some (zone.read v)) ∨ zone.Moved v v') := by
  unfold candidateAt at h
  obtain ⟨normalized, hn, h⟩ := of_bind_eq_ok h
  cases h
  obtain ⟨v', rfl, hv'⟩ := normalize_timed hd hzone hn
  exact ⟨v', rfl, hv'⟩

theorem utc_ofWall {zone : Zone} {rule : ZoneRule} (hzone : zone.info = rule.zone) {v u : ℤ}
    (h : (Timed.ofWall zone v).utc = .ok u) : u = rule.read v := by
  unfold Timed.utc Timed.ofWall at h
  dsimp only at h
  rw [hzone] at h
  exact (inYears_eq_ok.mp h).1.symm

theorem candidateAt_date (hv : day ∣ v - d.ordinal * day)
    (h : candidateAt e (.date d) v = .ok c) : ∃ d', c = .date d' ∧ d'.ordinal * day = v := by
  unfold candidateAt at h
  obtain ⟨normalized, hn, h⟩ := of_bind_eq_ok h
  cases hn
  have h := call_eq_ok h
  change (dateOf v).map Temporal.date = .ok c at h
  cases hd' : dateOf v with
  | error err =>
    rw [hd'] at h
    cases h
  | ok d' =>
    rw [hd'] at h
    cases h
    refine ⟨d', rfl, ?_⟩
    have hordinal := ofOrdinal_eq_ok hd'
    obtain ⟨k, hk⟩ := hv
    simp only [day, second] at *
    omega

theorem instant_date (hzone : e.display.info = zone.zone) {u : ℤ}
    (h : instant e (.date d) = .ok u) : u = zone.read (d.ordinal * day) := by
  unfold instant instantOf at h
  rw [hzone] at h
  exact (inYears_eq_ok.mp h).1.symm

theorem le_targetOf {upper target : Instant}
    (h : targetOf e start overrides upper = .ok target) : upper ≤ target := by
  induction overrides generalizing upper with
  | nil =>
    cases h
    exact le_refl _
  | cons item rest ih =>
    unfold targetOf at h
    split at h
    · exact ih h
    obtain ⟨-, -, h⟩ := of_bind_eq_ok h
    obtain ⟨u, -, h⟩ := of_bind_eq_ok h
    exact le_trans (le_max_left _ _) (ih h)

theorem roundUp_eq_ok {target limit : ℤ} (h : roundUp target = .ok limit) :
    target ≤ limit ∧ ∀ u : ℤ, second ∣ u → target ≤ u → limit ≤ u := by
  unfold roundUp at h
  split at h
  · cases h
    exact ⟨le_refl _, fun u _ hu => hu⟩
  rename_i hmod
  have hrest : ¬(target % second : ℤ) = 0 := hmod
  obtain ⟨rfl, -⟩ := inYears_eq_ok.mp h
  simp only [second] at *
  constructor
  · omega
  · rintro u ⟨k, rfl⟩ hu
    omega

variable {bound : Instant × Until × ℕ}

theorem boundOf_timed
    (h : boundOf e rule (.timed t) target = .ok bound) :
    (bound.1 = match untilInstant rule with
      | none => target
      | some u => min target u) ∧
      ∃ limit, bound.2.1 = .instant limit ∧ bound.1 ≤ limit ∧ ∀ u, second ∣ u → bound.1 ≤ u → limit ≤ u := by
  change boundInstant rule t target = .ok bound at h
  unfold boundInstant at h
  obtain ⟨startDay, -, h⟩ := of_bind_eq_ok h
  obtain ⟨shown, -, h⟩ := of_bind_eq_ok h
  obtain ⟨targetDay, -, h⟩ := of_bind_eq_ok h
  obtain ⟨limit, hlimit, h⟩ := of_bind_eq_ok h
  cases h
  exact ⟨rfl, limit, rfl, roundUp_eq_ok hlimit⟩

theorem boundOf_date
    (hzone : e.display.info = zone.zone) (h : boundOf e rule (.date d) target = .ok bound) :
    ∃ targetDay last : LocalDate, targetDay.ordinal = (target + zone.zone.utcOffset target) / day ∧
      last = earlier targetDay (untilDate rule) ∧ bound.2.1 = .date last ∧
      bound.1 = zone.read (last.ordinal * day + (day - 1)) := by
  change boundDays e rule d target = .ok bound at h
  unfold boundDays at h
  obtain ⟨shown, hshown, h⟩ := of_bind_eq_ok h
  obtain ⟨targetDay, htargetDay, h⟩ := of_bind_eq_ok h
  obtain ⟨last, hlast, h⟩ := of_bind_eq_ok h
  cases h
  refine ⟨targetDay, _, ?_, rfl, rfl, utc_ofWall hzone hlast⟩
  rw [ofOrdinal_eq_ok htargetDay]
  unfold Timed.ofInstant at hshown
  rw [hzone] at hshown
  cases hwall : inYears (target + zone.zone.utcOffset target) with
  | error err =>
    rw [hwall] at hshown
    cases hshown
  | ok wall =>
    rw [hwall] at hshown
    cases hshown
    rw [(inYears_eq_ok.mp hwall).1]

theorem earlier_le (d : LocalDate) (bound : Option LocalDate) :
    (earlier d bound).ordinal ≤ d.ordinal ∧ (∀ d', bound = some d' → (earlier d bound).ordinal ≤ d'.ordinal) ∧
      (bound = none → earlier d bound = d) ∧ (earlier d bound = d ∨ bound = some (earlier d bound)) := by
  cases bound with
  | none => simp [earlier]
  | some d' =>
    unfold earlier
    dsimp only
    split
    · refine ⟨by omega, ?_, by simp, .inr rfl⟩
      intro d₁ h
      cases h
      exact le_refl _
    refine ⟨le_refl _, ?_, by simp, .inl rfl⟩
    intro d₁ h
    cases h
    omega

section

variable (h : rule.valid start = true)
include h

theorem valid_count (hcount : rule.has "COUNT" = true) :
    rule.has "UNTIL" = false := by
  unfold Rule.valid at h
  simp only [Bool.and_eq_true, Bool.not_eq_true', hcount, Bool.true_and] at h
  exact h.1.1.1.1.1.1.1.2

theorem valid_until {bound : Atom} {rest : List Atom}
    (hbound : rule.values "UNTIL" = some (bound :: rest)) : untilFits start bound = true := by
  unfold Rule.valid at h
  simp only [Bool.and_eq_true, hbound] at h
  exact h.2

theorem ownUntil_of_count (hcount : rule.has "COUNT" = true) :
    ownUntil rule start = none := by
  have hnone := valid_count h hcount
  unfold Rule.has at hnone
  have hvalues : rule.values "UNTIL" = none := by
    cases hv : rule.values "UNTIL" with
    | none => rfl
    | some values =>
      rw [hv] at hnone
      cases hnone
  cases start with
  | date d =>
    unfold ownUntil untilDate
    rw [hvalues]
    rfl
  | timed t =>
    unfold ownUntil untilInstant
    rw [hvalues]
    rfl

end

theorem untilInstant_second (h : rule.valid (.timed t) = true) {u : Instant}
    (hu : untilInstant rule = some u) : second ∣ u := by
  unfold untilInstant at hu
  split at hu
  · rename_i seconds offset rest hvalues
    have hfits := valid_until h hvalues
    simp only [untilFits, Temporal.isDate, Bool.not_false, Bool.true_and, beq_iff_eq, Option.some.injEq] at hfits
    cases hu
    subst hfits
    exact ⟨seconds, by rw [Int.sub_zero, Int.mul_comm]⟩
  · cases hu

section

variable {rule : Rule} {start : Temporal} {target : ℤ} {bound : Instant × Until × ℕ}

theorem RecurrenceSet.mem_times (set : RecurrenceSet e) {v : ℤ} (h : v ∈ set.unmodified rule start) :
    v ∈ set.times rule (recurrenceStart start).2 := by
  unfold RecurrenceSet.unmodified at h
  split at h
  · exact h
  · exact (of_mem_takeWhile h).1

theorem within_own (hzoned : Zoned e start) (hvalid : rule.valid start = true)
    (hbound : boundOf e rule start target = .ok bound) {own : Until} (hown : ownUntil rule start = some own) {v : ℤ}
    (h : within bound.2.1 (recurrenceStart start).1 v = true) : within own (recurrenceStart start).1 v = true := by
  cases start with
  | date d =>
    obtain ⟨zone, hzone⟩ := hzoned.display
    obtain ⟨targetDay, last, -, hlast, hlimit, -⟩ := boundOf_date hzone hbound
    change (untilDate rule).map Until.date = some own at hown
    obtain ⟨d', hd', rfl⟩ := Option.map_eq_some_iff.mp hown
    have hle := (earlier_le targetDay (untilDate rule)).2.1 d' hd'
    rw [← hlast] at hle
    rw [hlimit, within_date] at h
    rw [within_date]
    simp only [day, second] at h ⊢
    omega
  | timed t =>
    obtain ⟨hfirst, limit, hlimit, -, hround⟩ := boundOf_timed hbound
    change (untilInstant rule).map Until.instant = some own at hown
    obtain ⟨u, hu, rfl⟩ := Option.map_eq_some_iff.mp hown
    rw [hu] at hfirst
    have hle : limit ≤ u := by
      apply hround u (untilInstant_second hvalid hu)
      rw [hfirst]
      exact min_le_right _ _
    rw [hlimit] at h
    obtain ⟨zone, hzone⟩ := hzoned.own t rfl
    exact (within_instant hzone).mpr (le_trans ((within_instant hzone).mp h) hle)

structure Yields (set : RecurrenceSet e) (rule : Rule) (start : Temporal) (limit : Until) (values : List ℤ) : Prop where
  unmodified : ∀ v ∈ values, v ∈ set.unmodified rule start
  rest : ∀ v ∈ set.unmodified rule start, v ∉ values →
    rule.has "COUNT" = false ∧ within limit (recurrenceStart start).1 v = false
  spaced : values.Pairwise fun v w => v + day ≤ w
  bounded : rule.has "COUNT" = false → ∀ v ∈ values, within limit (recurrenceStart start).1 v = true

theorem yields_of_rrulestr (set : RecurrenceSet e) (hzoned : Zoned e start) (hvalid : rule.valid start = true)
    (hbound : boundOf e rule start target = .ok bound) {recurrence : Recurrence}
    (h : e.rrulestr rule (if rule.has "COUNT" then none else some bound.2.1) (recurrenceStart start).1
      (recurrenceStart start).2 = .ok recurrence) : Yields set rule start bound.2.1 recurrence.values := by
  have hspaced := set.spaced hvalid (recurrenceStart start).2
  cases hcount : rule.has "COUNT" with
  | true =>
    rw [hcount, if_pos rfl] at h
    have hvalues := set.counted rule _ _ _ (valid_count hvalid hcount) h
    have hall : set.unmodified rule start = set.times rule (recurrenceStart start).2 := by
      unfold RecurrenceSet.unmodified
      rw [ownUntil_of_count hvalid hcount]
    subst hvalues
    constructor
    case unmodified =>
      intro v hv
      rw [hall]
      exact hv
    case rest =>
      intro v hv hnot
      rw [hall] at hv
      exact (hnot hv).elim
    case spaced => exact hspaced
    case bounded =>
      intro hnone
      rw [hcount] at hnone
      cases hnone
  | false =>
    rw [hcount, if_neg Bool.false_ne_true] at h
    have hvalues := set.bounded rule _ _ _ _ h
    subst hvalues
    have hmono : ∀ (u : Until) (v w : ℤ), v + day ≤ w → within u (recurrenceStart start).1 w = true →
        within u (recurrenceStart start).1 v = true := fun u v w hvw hw => within_mono hzoned hvw hw
    constructor
    case unmodified =>
      intro v hv
      obtain ⟨hmem, hin⟩ := of_mem_takeWhile hv
      unfold RecurrenceSet.unmodified
      cases hown : ownUntil rule start with
      | none => exact hmem
      | some own => exact mem_takeWhile_of_le hspaced (hmono own) hmem (within_own hzoned hvalid hbound hown hin)
    case rest =>
      intro v hv hnot
      refine ⟨hcount, ?_⟩
      cases hin : within bound.2.1 (recurrenceStart start).1 v with
      | false => rfl
      | true => exact (hnot (mem_takeWhile_of_le hspaced (hmono bound.2.1) (set.mem_times hv) hin)).elim
    case spaced => exact hspaced.sublist (List.takeWhile_sublist _)
    case bounded => exact fun _ v hv => (of_mem_takeWhile hv).2

section

variable (hd : e.dateutil.Documented)
include hd

variable (set : RecurrenceSet e)

theorem lt_of_stopped (hzoned : Zoned e start)
    (hvalid : rule.valid start = true) (hbound : boundOf e rule start target = .ok bound) {v w : ℤ} (hvw : v + day ≤ w)
    (hv : v ∈ set.unmodified rule start) (hw : w ∈ set.unmodified rule start) {normalized : Timed}
    (hnormalized : normalize e start v = .ok normalized) {u : ℤ} (hu : normalized.utc = .ok u) (hpast : bound.1 < u)
    {c : Temporal} (hc : candidateAt e start w = .ok c) {first : ℤ} (hfirst : instant e c = .ok first) :
    (target : ℤ) < first := by
  have hdvdv := set.daily rule start _ hvalid v (set.mem_times hv)
  have hdvdw := set.daily rule start _ hvalid w (set.mem_times hw)
  have hdayPos : (0 : ℤ) < day := by decide
  cases start with
  | timed t =>
    obtain ⟨zone, hzone⟩ := hzoned.own t rfl
    obtain ⟨v', rfl, hv'⟩ := normalize_timed hd hzone hnormalized
    obtain ⟨w', rfl, hw'⟩ := candidateAt_timed hd hzone hc
    have hu := utc_ofWall hzone hu
    have hfirst : first = zone.read w' := utc_ofWall hzone hfirst
    have hback : zone.read v' ≤ zone.read v := by
      rcases hv' with ⟨rfl, -⟩ | hmoved
      · exact le_refl _
      · exact hmoved.back
    have hforth : zone.read v ≤ zone.read w' ∧ zone.read w' ≤ zone.read w := by
      rcases hw' with ⟨rfl, -⟩ | hmoved
      · exact ⟨zone.read_le hvw, le_refl _⟩
      · exact ⟨le_of_lt (hmoved.after v hvw), hmoved.back⟩
    obtain ⟨hmin, -⟩ := boundOf_timed hbound
    have hlt : (bound.1 : ℤ) < first := by
      rw [hfirst]
      rw [hu] at hpast
      exact lt_of_lt_of_le hpast (le_trans hback hforth.1)
    cases huntil : untilInstant rule with
    | none =>
      rw [huntil] at hmin
      rw [hmin] at hlt
      exact hlt
    | some last =>
      rw [huntil] at hmin
      have hlast : zone.read w ≤ last := by
        unfold RecurrenceSet.unmodified ownUntil at hw
        rw [huntil] at hw
        exact (within_instant hzone).mp (of_mem_takeWhile hw).2
      rw [hmin] at hlt
      rcases min_lt_iff.mp hlt with hlt | hlt
      · exact hlt
      have hle : first ≤ last := by
        rw [hfirst]
        exact le_trans hforth.2 hlast
      exact absurd hlt (not_lt.mpr hle)
  | date d =>
    obtain ⟨zone, hzone⟩ := hzoned.display
    obtain ⟨targetDay, last, htargetDay, hlast, -, hend⟩ := boundOf_date hzone hbound
    cases hnormalized
    obtain ⟨dw, rfl, hdw⟩ := candidateAt_date hdvdw hc
    have hu := utc_ofWall hzone hu
    have hfirst := instant_date hzone hfirst
    rw [hdw] at hfirst
    rw [hu, hend] at hpast
    change day ∣ v - d.ordinal * day at hdvdv
    change day ∣ w - d.ordinal * day at hdvdw
    have hlow : last.ordinal * day ≤ v := by
      by_contra hlt
      have hle := zone.read_le (v := v) (w := last.ordinal * day + (day - 1)) (by omega)
      exact absurd hpast (not_lt.mpr hle)
    have hsame : last = targetDay := by
      rw [hlast]
      rcases (earlier_le targetDay (untilDate rule)).2.2.2 with heq | hsome
      · exact heq
      rw [← hlast] at hsome
      unfold RecurrenceSet.unmodified ownUntil at hw
      rw [hsome] at hw
      have hin := within_date.mp (of_mem_takeWhile hw).2
      omega
    rw [← hsame] at htargetDay
    have hshown : last.ordinal * day ≤ target + zone.zone.utcOffset target ∧
        target + zone.zone.utcOffset target ≤ last.ordinal * day + (day - 1) := by
      rw [htargetDay]
      simp only [day, second]
      omega
    rw [hfirst]
    by_cases hv : v = last.ordinal * day
    · have hnext := zone.lt_read_next (u := target) (v := v) (by rw [hv] at hpast ⊢; exact hpast) (by
        rw [hv]
        exact hshown.2)
      by_cases hnear : w = v + day
      · rw [hnear]
        exact hnext
      have hfar : v + day + day ≤ w := by
        obtain ⟨i, hi⟩ := hdvdv
        obtain ⟨j, hj⟩ := hdvdw
        simp only [day, second] at *
        omega
      exact lt_of_lt_of_le hnext (zone.read_le hfar)
    · apply zone.lt_read
      have hfar : last.ordinal * day + day ≤ v := by
        obtain ⟨i, hi⟩ := hdvdv
        simp only [day, second] at *
        omega
      have hle := hshown.2
      omega

theorem skipped_of_before (hzoned : Zoned e start)
    (hvalid : rule.valid start = true) (hbound : boundOf e rule start target = .ok bound) {t : Timed}
    (hstart : start = .timed t) {v : ℤ} (hv : v ∈ set.unmodified rule start)
    (hpast : within bound.2.1 (recurrenceStart start).1 v = false) {c : Temporal} (hc : candidateAt e start v = .ok c)
    {first : ℤ} (hfirst : instant e c = .ok first) (hbefore : first < target) : occurrence t.zone.info v false = none := by
  subst hstart
  obtain ⟨zone, hzone⟩ := hzoned.own t rfl
  obtain ⟨v', rfl, hv'⟩ := candidateAt_timed hd hzone hc
  have hfirst : first = zone.read v' := utc_ofWall hzone hfirst
  rw [hzone]
  rcases hv' with ⟨rfl, -⟩ | hmoved
  · obtain ⟨hmin, limit, hlimit, hle, -⟩ := boundOf_timed hbound
    have hlimitv : (limit : ℤ) < zone.read v' := by
      by_contra hnot
      rw [hlimit] at hpast
      change within (.instant limit) (some t.zone) v' = false at hpast
      rw [(within_instant hzone).mpr (not_lt.mp hnot)] at hpast
      cases hpast
    have hboundv : (bound.1 : ℤ) < zone.read v' := lt_of_le_of_lt hle hlimitv
    cases huntil : untilInstant rule with
    | none =>
      rw [huntil] at hmin
      rw [hmin] at hboundv
      rw [hfirst] at hbefore
      exact absurd hboundv (not_lt.mpr (le_of_lt hbefore))
    | some last =>
      rw [huntil] at hmin
      unfold RecurrenceSet.unmodified ownUntil at hv
      rw [huntil] at hv
      have hlast : zone.read v' ≤ last := (within_instant hzone).mp (of_mem_takeWhile hv).2
      rw [hmin] at hboundv
      rcases min_lt_iff.mp hboundv with hlt | hlt
      · rw [hfirst] at hbefore
        exact absurd hlt (not_lt.mpr (le_of_lt hbefore))
      · exact absurd hlt (not_lt.mpr hlast)
  · exact hmoved.skipped

theorem identity_ne (hzoned : Zoned e start)
    (hvalid : rule.valid start = true) {v w : ℤ} (hvw : v + day ≤ w) (hv : v ∈ set.unmodified rule start)
    (hw : w ∈ set.unmodified rule start) (hskipped : ∀ t, start = .timed t → occurrence t.zone.info w false = none)
    {c c' : Temporal} (hc : candidateAt e start v = .ok c) (hc' : candidateAt e start w = .ok c') :
    identity c ≠ identity c' := by
  intro heq
  have hdayPos : (0 : ℤ) < day := by decide
  cases start with
  | timed t =>
    obtain ⟨zone, hzone⟩ := hzoned.own t rfl
    obtain ⟨v', rfl, hv'⟩ := candidateAt_timed hd hzone hc
    obtain ⟨w', rfl, hw'⟩ := candidateAt_timed hd hzone hc'
    have hlater : w < w' := by
      rcases hw' with ⟨-, hshown⟩ | hmoved
      · have hnone := hskipped t rfl
        rw [hzone, hshown] at hnone
        cases hnone
      · exact hmoved.later
    have hnear : v' ≤ v + day := by
      rcases hv' with ⟨rfl, -⟩ | hmoved
      · omega
      · exact hmoved.near
    have hwalls : v' = w' := congrArg (fun id => match id with
      | .timed wall _ => wall
      | .date _ => 0) heq
    omega
  | date d =>
    obtain ⟨dv, rfl, hdv⟩ := candidateAt_date (set.daily rule _ _ hvalid v (set.mem_times hv)) hc
    obtain ⟨dw, rfl, hdw⟩ := candidateAt_date (set.daily rule _ _ hvalid w (set.mem_times hw)) hc'
    have hsame : dv = dw := by
      cases heq
      rfl
    rw [hsame] at hdv
    omega

end

end

theorem candidates_inj (start : Temporal) (values : List ℤ) :
    ∀ c ∈ candidates e start values, ∀ c' ∈ candidates e start values, identity c = identity c' → c = c' := by
  intro c hc c' hc' heq
  obtain ⟨v, -, hv⟩ := mem_candidates.mp hc
  obtain ⟨w, -, hw⟩ := mem_candidates.mp hc'
  exact candidateAt_inj hv hw heq

theorem related_of_pairwise (hl : l.Pairwise R) (hv : v ∈ l) (hw : w ∈ l)
    (hne : v ≠ w) : R v w ∨ R w v := by
  induction l with
  | nil => cases hv
  | cons x rest ih =>
    obtain ⟨hx, hrest⟩ := List.pairwise_cons.mp hl
    rcases List.mem_cons.mp hv with hvx | hv'
    · rcases List.mem_cons.mp hw with hwx | hw'
      · exact (hne (hvx.trans hwx.symm)).elim
      · rw [hvx]
        exact .inl (hx w hw')
    rcases List.mem_cons.mp hw with hwx | hw'
    · rw [hwx]
      exact .inr (hx v hv')
    · exact ih hrest hv' hw'

variable {values before after : List ℤ}

theorem collected_of_shown (hd : e.dateutil.Documented) (set : RecurrenceSet e) (m : Series e master overrides rule) (hzoned : Zoned e m.start)
    (hyields : Yields set rule m.start m.limit values) (hvalues : values = before ++ after)
    (hstopped : Stopped e m.start m.bound.1 before after) (hv : v ∈ set.unmodified rule m.start)
    (hnot : v ∉ before) (hc : candidateAt e m.start v = .ok c)
    (hex : identity c ∉ m.exdates.map identity) (hrdates : identity c ∉ m.rdates.map identity)
    (hinstance : instanceOf e master m.start m.length 0 none (identity c) c = .ok shown) (hshown : shown ≠ []) :
    rule.has "COUNT" = false ∧ m.Lost set v := by
  obtain ⟨first, upper, hfirst, hupper, hbefore⟩ := instanceOf_before hinstance hshown
  obtain ⟨upper', hupper', htarget⟩ := m.wanted
  rw [hupper] at hupper'
  cases hupper'
  have hstarts : (first : ℤ) < m.target := lt_of_lt_of_le hbefore (le_targetOf htarget)
  by_cases hin : v ∈ values
  · exfalso
    have hafter : v ∈ after := by
      rw [hvalues] at hin
      exact (List.mem_append.mp hin).resolve_left hnot
    rcases hstopped with rfl | ⟨v₀, normalized, u, hlast, hnormalized, hu, hpast⟩
    · cases hafter
    have hmem : v₀ ∈ before := List.mem_of_getLast? hlast
    have hspaced := hyields.spaced
    rw [hvalues] at hspaced
    have hfar := (List.pairwise_append.mp hspaced).2.2 v₀ hmem v hafter
    have hv₀ : v₀ ∈ set.unmodified rule m.start := by
      apply hyields.unmodified
      rw [hvalues]
      exact List.mem_append_left _ hmem
    have hlt := lt_of_stopped hd set hzoned m.valid m.bounds hfar hv₀ hv hnormalized hu hpast hc hfirst
    exact absurd hlt (not_lt.mpr (le_of_lt hstarts))
  · obtain ⟨hcount, hpast⟩ := hyields.rest v hv hin
    refine ⟨hcount, hv, hpast, ?_, c, shown, hc, hex, hrdates, hinstance, hshown⟩
    unfold Series.Skipped
    cases hstart : m.start with
    | date d => trivial
    | timed t => exact skipped_of_before hd set hzoned m.valid m.bounds hstart hv hpast hc hfirst hstarts

theorem not_collected_of_lost (hd : e.dateutil.Documented) (set : RecurrenceSet e) (m : Series e master overrides rule) (hzoned : Zoned e m.start)
    (hyields : Yields set rule m.start m.limit values) (hvalues : values = before ++ after)
    (hcount : rule.has "COUNT" = false) (hlost : m.Lost set v)
    (hc : candidateAt e m.start v = .ok c) {v₀ : ℤ} (hv₀ : v₀ ∈ before) {c₀ : Temporal}
    (hc₀ : candidateAt e m.start v₀ = .ok c₀) : identity c₀ ≠ identity c := by
  obtain ⟨hv, hpast, hskipped, -⟩ := hlost
  have hmem : v₀ ∈ values := by
    rw [hvalues]
    exact List.mem_append_left _ hv₀
  have hin := hyields.bounded hcount v₀ hmem
  have hne : v₀ ≠ v := by
    rintro rfl
    rw [show within m.limit (recurrenceStart m.start).1 v₀ = true from hin] at hpast
    cases hpast
  have hfar : v₀ + day ≤ v := by
    rcases related_of_pairwise (set.spaced m.valid _) (set.mem_times (hyields.unmodified v₀ hmem)) (set.mem_times hv) hne with
      h | h
    · exact h
    · rw [within_mono hzoned h hin] at hpast
      cases hpast
  apply identity_ne hd set hzoned m.valid hfar (hyields.unmodified v₀ hmem) hv _ hc₀ hc
  intro t hstart
  unfold Series.Skipped at hskipped
  rw [hstart] at hskipped
  exact hskipped

end

/-- The expansion up to the bound is that of the whole recurrence set exactly if the rule has a COUNT or its UNTIL leaves no
skipped time out that is resolved back into the window. -/
theorem expansion_exact (e : Setting) (hd : e.dateutil.Documented) (set : RecurrenceSet e) (master : Event)
    (overrides : List Event) (rule : Rule) (uidBudget sourceBudget used : ℕ) (occurrences : List CalendarOccurrence)
    (hrule : master.component.get "RRULE" = some (.recur rule))
    (hzoned : ∀ start, master.start = some start → Zoned e start)
    (h : expandSeries e master overrides uidBudget sourceBudget = .ok (occurrences, used)) :
    ∃ m : Series e master overrides rule,
      m.Exact set occurrences ↔ rule.has "COUNT" = true ∨ ∀ v, ¬m.Lost set v := by
  obtain ⟨m, ⟨recurrence, collected, before, after, hrrule, hvalues, hforall, hstopped, hinstanced⟩⟩ :=
    expandSeries_expanded hrule h
  have hzoned := hzoned m.start m.starts
  have hyields := yields_of_rrulestr set hzoned m.valid m.bounds hrrule
  have hmem : ∀ c, c ∈ collected ↔ ∃ v ∈ before, candidateAt e m.start v = .ok c := fun c => mem_of_forall₂ hforall
  have hcollected : ∀ c ∈ collected, c ∈ candidates e m.start (set.unmodified rule m.start) := by
    intro c hc
    obtain ⟨v, hv, hat⟩ := (hmem c).mp hc
    apply mem_candidates.mpr
    refine ⟨v, hyields.unmodified v ?_, hat⟩
    rw [hvalues]
    exact List.mem_append_left _ hv
  have hinj := candidates_inj (e := e) m.start (set.unmodified rule m.start)
  have hinj' : ∀ c ∈ collected, ∀ c' ∈ collected, identity c = identity c' → c = c' :=
    fun c hc c' hc' => hinj c (hcollected c hc) c' (hcollected c' hc')
  -- an identity that is not looked up among the candidates has no override
  have hlookup : ∀ id, id ∉ m.rdates.map identity → (∀ c ∈ collected, identity c ≠ id) →
      (overrideMap overrides).lookup id = none := by
    intro id hrdates hnone
    cases hitem : (overrideMap overrides).lookup id with
    | none => rfl
    | some item =>
      have hkey := (mem_keys_uniqueCandidates.mp (hinstanced.used id item hitem)).2
      rw [List.map_append, List.mem_append] at hkey
      obtain ⟨c, hc, heq⟩ := List.mem_map.mp (hkey.resolve_right hrdates)
      exact (hnone c hc heq).elim
  refine ⟨m, ?_, ?_⟩
  · intro hexact
    cases hcount : rule.has "COUNT" with
    | true => exact .inl rfl
    | false =>
      right
      intro v hlost
      obtain ⟨hv, -, -, c, shown, hc, hex, hrdates, hinstance, hshown⟩ := id hlost
      have hfresh : ∀ c₀ ∈ collected, identity c₀ ≠ identity c := by
        intro c₀ hc₀
        obtain ⟨v₀, hv₀, hat⟩ := (hmem c₀).mp hc₀
        exact not_collected_of_lost hd set m hzoned hyields hvalues hcount hlost hc hv₀ hat
      obtain ⟨o, hone, hid⟩ := (instanceOf_shown hinstance).resolve_left hshown
      have hexpected : m.Expected set o := by
        refine ⟨identity c, c, shown, ?_, ?_, by simp [hone]⟩
        · rw [mem_uniqueCandidates_append, mem_uniqueCandidates_of_inj hinj]
          exact .inr ⟨hrdates, rfl, hex, mem_candidates.mpr ⟨v, hv, hc⟩⟩
        unfold Series.shown
        rw [hlookup _ hrdates hfresh]
        exact hinstance
      have hkey := hinstanced.keys o ((hexact.same o).mpr hexpected)
      rw [hid] at hkey
      have hids := (mem_keys_uniqueCandidates.mp hkey).2
      rw [List.map_append, List.mem_append] at hids
      obtain ⟨c₀, hc₀, heq⟩ := List.mem_map.mp (hids.resolve_right hrdates)
      exact hfresh c₀ hc₀ heq
  · intro hnone
    refine ⟨hinstanced.once, ?_⟩
    intro o
    rw [hinstanced.mem]
    constructor
    · rintro ⟨id, c, shown, hunique, hinstance, ho⟩
      refine ⟨id, c, shown, ?_, hinstance, ho⟩
      rw [mem_uniqueCandidates_append, mem_uniqueCandidates_of_inj hinj'] at hunique
      rw [mem_uniqueCandidates_append, mem_uniqueCandidates_of_inj hinj]
      rcases hunique with hunique | ⟨hrdates, hid, hex, hc⟩
      · exact .inl hunique
      · exact .inr ⟨hrdates, hid, hex, hcollected c hc⟩
    · rintro ⟨id, c, shown, hunique, hinstance, ho⟩
      refine ⟨id, c, shown, ?_, hinstance, ho⟩
      rw [mem_uniqueCandidates_append, mem_uniqueCandidates_of_inj hinj] at hunique
      rw [mem_uniqueCandidates_append, mem_uniqueCandidates_of_inj hinj']
      rcases hunique with hunique | ⟨hrdates, hid, hex, hc⟩
      · exact .inl hunique
      refine .inr ⟨hrdates, hid, hex, ?_⟩
      by_contra hnot
      subst hid
      obtain ⟨v, hv, hat⟩ := mem_candidates.mp hc
      have hfresh : ∀ c₀ ∈ collected, identity c₀ ≠ identity c := by
        intro c₀ hc₀ heq
        rw [hinj c₀ (hcollected c₀ hc₀) c hc heq] at hc₀
        exact hnot hc₀
      unfold Series.shown at hinstance
      rw [hlookup _ hrdates hfresh] at hinstance
      have hbefore : v ∉ before := fun hmemv => hnot ((hmem c).mpr ⟨v, hmemv, hat⟩)
      obtain ⟨hcount, hlost⟩ := collected_of_shown hd set m hzoned hyields hvalues hstopped hv hbefore hat hex hrdates
        hinstance (List.ne_nil_of_mem ho)
      rcases hnone with htrue | hnone
      · rw [hcount] at htrue
        cases htrue
      · exact hnone v hlost

/-! A daily event at half past two in New York, where the clock went from two to three on 2024-03-10. -/

namespace ExpansionSample

def hour : ℤ := 3600 * second

def spring : ℤ := 19792 * day + 7 * hour

def newYork : ZoneRule where
  before := -5 * hour
  transitions := [(spring, -4 * hour)]
  bounded := by decide +kernel
  steady := ⟨by decide, by decide, ⟨3600, by decide⟩, by decide, by decide, by simp, trivial⟩
  inCalendar := by decide +kernel

def zone : Zone := ⟨"America/New_York", newYork.zone⟩

/-- Every day from `wall` on, to the end of the calendar or as far as `n` goes -/
def everyDay : ℕ → ℤ → List ℤ
  | 0, _ => []
  | n + 1, wall => if maxWall < wall then [] else wall :: everyDay n (wall + day)

def times (_ : Rule) (wall : ℤ) : List ℤ := everyDay 4000000 wall

def rrulestr (rule : Rule) (limit : Option Until) (zone : Option Zone) (wall : ℤ) : Except Failure Recurrence :=
  .ok ⟨match limit with
    | none => times rule wall
    | some limit => (times rule wall).takeWhile (within limit zone), none⟩

def setting (windowEnd : ℤ) : Setting where
  dateutil := GapSample.dateutil
  zones _ := .ok newYork.zone
  rrulestr := rrulestr
  display := zone
  windowStart := ⟨19792 * day, 0⟩
  windowEnd := ⟨windowEnd, 0⟩
  sourceId := "source"
  rejectFloating := false

theorem everyDay_spec (n : ℕ) (wall : ℤ) :
    (everyDay n wall).Pairwise (· < ·) ∧ ∀ v ∈ everyDay n wall, wall ≤ v ∧ day ∣ v - wall := by
  have hday : (0 : ℤ) < day := by decide
  induction n generalizing wall with
  | zero => simp [everyDay]
  | succ n ih =>
    unfold everyDay
    split
    · simp
    obtain ⟨hordered, hdaily⟩ := ih (wall + day)
    constructor
    · refine List.pairwise_cons.mpr ⟨?_, hordered⟩
      intro v hv
      have hle := (hdaily v hv).1
      omega
    intro v hv
    rcases List.mem_cons.mp hv with rfl | hv
    · exact ⟨le_refl _, by simp⟩
    obtain ⟨hle, k, hk⟩ := hdaily v hv
    refine ⟨by omega, k + 1, ?_⟩
    rw [Int.mul_add, Int.mul_one]
    omega

def set (windowEnd : ℤ) : RecurrenceSet (setting windowEnd) where
  times := times
  ordered _ _ wall _ := (everyDay_spec 4000000 wall).1
  daily _ _ wall _ v hv := ((everyDay_spec 4000000 wall).2 v hv).2
  counted := by
    intro rule zone wall r _ h
    cases h
    rfl
  bounded := by
    intro rule limit zone wall r h
    cases h
    rfl

def rule : Rule := ⟨[("FREQ", [.text "DAILY"]), ("UNTIL", [.datetime (19793 * 86400) (some 0)])]⟩

def start : Temporal := .timed (Timed.ofWall zone (19791 * day + 2 * hour + 30 * 60 * second))

def component : Component where
  own := [("UID", .other), ("RRULE", .recur rule)]
  nested := []
  uid := .ok (some "reset")
  sequence := .ok 0
  stamp := .ok none
  summary := .ok ""
  status := .ok ""
  ical := ""

def master : Event := ⟨component, "reset", none, some start, some start, "reset", false, 0, none⟩

theorem zoned (windowEnd : ℤ) (start' : Temporal) (h : master.start = some start') : Zoned (setting windowEnd) start' where
  display := ⟨newYork, rfl⟩
  own := by
    intro t ht
    cases h
    cases ht
    exact ⟨newYork, rfl⟩

def returned : Except Fault (List CalendarOccurrence × ℕ) → Option ℕ
  | .ok (occurrences, _) => some occurrences.length
  | .error _ => none

theorem of_returned {x : Except Fault (List CalendarOccurrence × ℕ)} {n : ℕ} (h : returned x = some n) :
    ∃ occurrences used, x = .ok (occurrences, used) ∧ occurrences.length = n := by
  cases x with
  | error err => cases h
  | ok result => exact ⟨result.1, result.2, rfl, Option.some.inj h⟩

def moved : Temporal := .timed (Timed.ofWall zone (19792 * day + 3 * hour))

def early : Setting := setting (spring + 15 * 60 * second)

theorem moved_candidate : candidateAt early start (19792 * day + 2 * hour + 30 * 60 * second) = .ok moved := by
  have hresolve : (resolveLocal early.dateutil newYork.zone (19792 * day + 2 * hour + 30 * 60 * second)).toOption =
      some (19792 * day + 3 * hour) := by decide +kernel
  have hok : resolveLocal early.dateutil newYork.zone (19792 * day + 2 * hour + 30 * 60 * second) =
      .ok (19792 * day + 3 * hour) := by
    revert hresolve
    generalize resolveLocal early.dateutil newYork.zone (19792 * day + 2 * hour + 30 * 60 * second) = x
    intro h
    cases x with
    | error err => cases h
    | ok v => rw [Option.some.inj h]
  change (do
    let normalized ← resolved early zone (19792 * day + 2 * hour + 30 * 60 * second)
    call (candidateOf start normalized)) = .ok moved
  unfold resolved
  rw [show zone.info = newYork.zone from rfl, hok]
  rfl

def series : Series early master [] rule where
  start := start
  stop := start
  length := 0
  exdates := []
  rdates := []
  target := spring + 15 * 60 * second
  bound := (spring + 15 * 60 * second, .instant (spring + 15 * 60 * second), 2)
  starts := rfl
  stops := rfl
  lasts := by rfl
  excepts := by rfl
  ruled := by rfl
  valid := by decide +kernel
  wanted := ⟨spring + 15 * 60 * second, by rfl, rfl⟩
  bounds := by rfl

def present : Except Fault (List CalendarOccurrence) → Bool
  | .ok shown => !shown.isEmpty
  | .error _ => false

theorem of_present {x : Except Fault (List CalendarOccurrence)} (h : present x = true) : ∃ shown o, x = .ok shown ∧ o ∈ shown := by
  cases x with
  | error err => cases h
  | ok shown =>
    cases shown with
    | nil => cases h
    | cons o rest => exact ⟨_, o, rfl, List.mem_cons_self⟩

end ExpansionSample

open ExpansionSample in
/-- Until a quarter to four the resolved time is within the bound. -/
theorem expansion_exact_late : ∃ occurrences used,
    expandSeries (setting (spring + 45 * 60 * second)) master [] 10000 40000 = .ok (occurrences, used) ∧
      ∃ m : Series (setting (spring + 45 * 60 * second)) master [] rule,
        m.Exact (set _) occurrences ↔ rule.has "COUNT" = true ∨ ∀ v, ¬m.Lost (set _) v := by
  obtain ⟨occurrences, used, h, -⟩ := of_returned
    (show returned (expandSeries (setting (spring + 45 * 60 * second)) master [] 10000 40000) = some 1 by decide +kernel)
  exact ⟨occurrences, used, h, expansion_exact _ GapSample.documented (set _) master [] rule 10000 40000 used occurrences
    (by rfl) (ExpansionSample.zoned _) h⟩

open ExpansionSample in
/-- The time of the 10th is resolved to 03:00, but it is read as 03:30, past the end of a window until 03:15: it is lost. -/
theorem resolved_time_lost : ∃ (m : Series early master [] rule) (occurrences : List CalendarOccurrence) (used : ℕ),
    expandSeries early master [] 10000 40000 = .ok (occurrences, used) ∧ ¬m.Exact (set _) occurrences := by
  obtain ⟨occurrences, used, h, hlength⟩ := of_returned
    (show returned (expandSeries early master [] 10000 40000) = some 0 by decide +kernel)
  refine ⟨series, occurrences, used, h, ?_⟩
  intro hexact
  have hv : (19792 * day + 2 * hour + 30 * 60 * second) ∈ (set (spring + 15 * 60 * second)).unmodified rule start := by
    decide +kernel
  have hmem : moved ∈ candidates early start ((set (spring + 15 * 60 * second)).unmodified rule start) :=
    mem_candidates.mpr ⟨_, hv, moved_candidate⟩
  obtain ⟨shown, o, hshown, ho⟩ := of_present
    (show present (series.shown (identity moved) moved) = true by decide +kernel)
  have hexpected : series.Expected (set _) o := by
    refine ⟨identity moved, moved, shown, ?_, hshown, ho⟩
    rw [mem_uniqueCandidates_append, mem_uniqueCandidates_of_inj (candidates_inj _ _)]
    exact .inr ⟨by simp [series], rfl, by simp [series], hmem⟩
  have hin := (hexact.same o).mpr hexpected
  rw [List.eq_nil_of_length_eq_zero hlength] at hin
  cases hin

end GameLink.Ff14.Ics

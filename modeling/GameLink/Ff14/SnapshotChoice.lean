import GameLink.Ff14.SnapshotReads

namespace GameLink.Ff14

open Foundation Contracts Digest

theorem mapM_option {α β : Type} {f : α → Option β} {l : List α} {out : List β} (h : l.mapM f = some out) :
    (∀ b ∈ out, ∃ a ∈ l, f a = some b) ∧ ∀ a ∈ l, ∃ b ∈ out, f a = some b := by
  induction l generalizing out with
  | nil =>
    cases h
    simp
  | cons a rest ih =>
    simp only [List.mapM_cons, Option.bind_eq_bind, Option.bind_eq_some_iff, Option.pure_def, Option.some.injEq] at h
    obtain ⟨b, hb, tail, ht, rfl⟩ := h
    obtain ⟨hout, hin⟩ := ih ht
    constructor
    · intro c hc
      cases hc with
      | head => exact ⟨a, by simp, hb⟩
      | tail _ hc =>
        obtain ⟨x, hx, hxc⟩ := hout c hc
        exact ⟨x, by simp [hx], hxc⟩
    · intro c hc
      cases hc with
      | head => exact ⟨b, by simp, hb⟩
      | tail _ hc =>
        obtain ⟨x, hx, hxc⟩ := hin c hc
        exact ⟨x, by simp [hx], hxc⟩

theorem mapM_option_returns {α β : Type} {f : α → Option β} {l : List α} (h : ∀ a ∈ l, (f a).isSome) :
    ∃ out, l.mapM f = some out := by
  induction l with
  | nil => exact ⟨[], rfl⟩
  | cons a rest ih =>
    obtain ⟨b, hb⟩ := Option.isSome_iff_exists.mp (h a (by simp))
    obtain ⟨tail, ht⟩ := ih fun c hc => h c (by simp [hc])
    exact ⟨b :: tail, by simp [List.mapM_cons, hb, ht]⟩

section

variable {ω : Type} (parse : String → String → ParseOptions → Option (ParsedFeed ω)) (options : ReadOptions)

def StoredCandidate.parsed (c : StoredCandidate) : Option (ParsedFeed ω) :=
  parse c.feed.raw c.spec.sourceId options.toParseOptions

def StoredCandidate.parsesComplete (c : StoredCandidate) : Prop :=
  ∃ parsed, c.parsed parse options = some parsed ∧ parsed.completeness = .complete

def StoredCandidate.qualifies (now : Instant) (c : StoredCandidate) : Prop :=
  c.inComplete = true ∧ c.parsesComplete parse options ∧
    (options.rejectFloating = true → now - c.feed.fetchedAt ≤ maxReminderAge)

attribute [local instance] intOrder

def StoredCandidate.rank (c : StoredCandidate) : ℤ ×ₗ Bool :=
  toLex (c.feed.fetchedAt, (c.spec.sourceId = primarySource : Bool))

def StoredCandidate.newestComplete (candidates : List StoredCandidate) (c : StoredCandidate) : Prop :=
  c ∈ candidates ∧ c.inComplete = true ∧ ∀ d ∈ candidates, d.inComplete = true → d.rank ≤ c.rank

def CompleteWins (now : Instant) (candidates : List StoredCandidate)
    (answer : Option (CalendarSourceSnapshot ω)) : Prop :=
  (∃ c ∈ candidates, c.qualifies parse options now) → ∃ c ∈ candidates, c.qualifies parse options now ∧
      (∀ d ∈ candidates, d.qualifies parse options now → d.rank ≤ c.rank) ∧
      ∃ parsed snapshot, c.parsed parse options = some parsed ∧ answer = some snapshot ∧
        snapshot.completeness = .complete ∧ snapshot.sourceId = some c.spec.sourceId ∧
        snapshot.sourceVersion = some c.feed.version ∧ snapshot.fetchedAt = some c.feed.fetchedAt ∧
        snapshot.occurrences = parsed.occurrences

def NewestComplete (now : Instant) (candidates : List StoredCandidate) : Prop :=
  (∃ c ∈ candidates, c.qualifies parse options now) → (∀ c ∈ candidates, (c.parsed parse options).isSome) ∧
      ∀ c : StoredCandidate, c.newestComplete candidates → c.parsesComplete parse options

end

theorem Choice.key_le {ω : Type} {a b : Choice ω} (ha : a.candidate.inComplete = true)
    (hb : b.candidate.inComplete = true) : a.key ≤ b.key ↔ a.candidate.rank ≤ b.candidate.rank := by
  unfold Choice.key StoredCandidate.rank
  simp only [ha, hb, if_true, Prod.Lex.toLex_le_toLex, lt_self_iff_false, true_and, false_or]

theorem Choice.inComplete_of_le {ω : Type} {a b : Choice ω} (ha : a.candidate.inComplete = true) (h : a.key ≤ b.key) :
    b.candidate.inComplete = true := by
  unfold Choice.key at h
  rw [ha, Prod.Lex.toLex_le_toLex] at h
  cases hb : b.candidate.inComplete with
  | true => rfl
  | false =>
    rw [hb] at h
    simp at h
    exact absurd h (by decide)

section

variable [Hashing]

variable {records : String → Option FeedRecord} {v : CalendarSourceSpec × FeedRecord}

theorem storedValue_source {region sourceId : String} (h : storedValue region sourceId records = some v) :
    v.1.sourceId = sourceId := by
  unfold storedValue at h
  simp only [Option.bind_eq_bind, Option.bind_eq_some_iff, Option.ite_none_right_eq_some, Option.some.injEq] at h
  obtain ⟨spec, hspec, record, -, -, rfl⟩ := h
  unfold calendarSourceSpec at hspec
  grind

theorem storedValues_source {region : String}
    {v w : CalendarSourceSpec × FeedRecord} (hv : v ∈ storedValues region records) (hw : w ∈ storedValues region records)
    (h : (v.1.sourceId = primarySource : Bool) = (w.1.sourceId = primarySource : Bool)) : v = w := by
  unfold storedValues at hv hw
  simp only [List.mem_filterMap, List.mem_cons, List.not_mem_nil, or_false] at hv hw
  obtain ⟨i, hi, hv⟩ := hv
  obtain ⟨j, hj, hw⟩ := hw
  have hij : i = j := by
    rw [storedValue_source hv, storedValue_source hw] at h
    have hne : fallback ≠ primarySource := by decide
    rcases hi with rfl | rfl
    · rcases hj with rfl | rfl
      · rfl
      · simp [hne] at h
    rcases hj with rfl | rfl
    · simp [hne] at h
    · rfl
  rw [hij, hw] at hv
  exact (Option.some.inj hv).symm

variable {c : StoredCandidate}

theorem mem_candidatesOf (h : c ∈ candidatesOf v)
    (hc : c.inComplete = true) : ∃ feed, validFeed v.2.complete = some feed ∧ c = ⟨v.1, true, feed, v.2.lastStatus⟩ := by
  unfold candidatesOf at h
  simp only [List.mem_append, Option.mem_toList, Option.map_eq_some_iff] at h
  rcases h with ⟨feed, hfeed, rfl⟩ | ⟨feed, -, rfl⟩
  · exact ⟨feed, hfeed, rfl⟩
  · cases hc

variable {c d : StoredCandidate}

theorem rank_injective {region : String}
    (hc : c ∈ storedCandidates (storedValues region records)) (hd : d ∈ storedCandidates (storedValues region records))
    (hcs : c.inComplete = true) (hds : d.inComplete = true) (h : c.rank = d.rank) : c = d := by
  unfold storedCandidates at hc hd
  obtain ⟨v, hv, hc⟩ := List.mem_flatMap.mp hc
  obtain ⟨w, hw, hd⟩ := List.mem_flatMap.mp hd
  obtain ⟨f, hf, rfl⟩ := mem_candidatesOf hc hcs
  obtain ⟨g, hg, rfl⟩ := mem_candidatesOf hd hds
  unfold StoredCandidate.rank at h
  have hflag := (Prod.mk.injEq .. ▸ toLex.injective h).2
  have hvw : v = w := storedValues_source hv hw hflag
  subst hvw
  rw [hf] at hg
  rw [Option.some.inj hg]

theorem readRecords_stored (region : String) (manual coldSync limited : Bool) (before after : String → Option FeedRecord) :
    ∃ records, (readRecords region manual coldSync limited before after).1 = storedValues region records := by
  unfold readRecords
  cases manual with
  | true => exact ⟨after, rfl⟩
  | false =>
    simp only [Bool.false_or, Bool.false_eq_true, if_false]
    split
    · exact ⟨after, rfl⟩
    · exact ⟨before, rfl⟩

variable {ω : Type} (parse : String → String → ParseOptions → Option (ParsedFeed ω)) (region : String)
  (options : ReadOptions)

variable {now : Instant}

theorem readValues_newest {values : List (CalendarSourceSpec × FeedRecord)} {limited : Bool}
    {answer : CalendarSourceSnapshot ω} (h : readValues parse region options values limited now = some answer) (hc : c ∈ storedCandidates values) (hs : c.inComplete = true) :
    ∃ w parsed, w.newestComplete (storedCandidates values) ∧ w.parsed parse options = some parsed ∧
      answer = snapshotOf region options values limited now w parsed := by
  unfold readValues at h
  simp only [Option.bind_eq_bind, Option.bind_eq_some_iff] at h
  obtain ⟨choices, hchoices, h⟩ := h
  obtain ⟨hout, hin⟩ := mapM_option hchoices
  have hof : ∀ choice ∈ choices, choice.candidate ∈ storedCandidates values ∧
      choice.candidate.parsed parse options = some choice.parsed ∧
      choice.snapshot = snapshotOf region options values limited now choice.candidate choice.parsed := by
    intro choice hchoice
    obtain ⟨d, hd, he⟩ := hout choice hchoice
    unfold choiceOf at he
    obtain ⟨parsed, hparsed, rfl⟩ := Option.map_eq_some_iff.mp he
    exact ⟨hd, hparsed, rfl⟩
  have hchosen : ∀ d ∈ storedCandidates values, ∃ choice ∈ choices, choice.candidate = d := by
    intro d hd
    obtain ⟨choice, hchoice, he⟩ := hin d hd
    unfold choiceOf at he
    obtain ⟨parsed, -, rfl⟩ := Option.map_eq_some_iff.mp he
    exact ⟨_, hchoice, rfl⟩
  cases hmax : choices.argmax Choice.key with
  | none =>
    obtain ⟨choice, hchoice, -⟩ := hchosen c hc
    rw [List.argmax_eq_none.mp hmax] at hchoice
    cases hchoice
  | some w =>
    rw [hmax] at h
    obtain rfl := Option.some.inj h
    obtain ⟨hmem, hparsed, hsnapshot⟩ := hof w (List.argmax_mem hmax)
    have hle : ∀ choice ∈ choices, choice.key ≤ w.key := fun choice hchoice => List.le_of_mem_argmax hchoice hmax
    have hw : w.candidate.inComplete = true := by
      obtain ⟨choice, hchoice, rfl⟩ := hchosen c hc
      exact Choice.inComplete_of_le hs (hle choice hchoice)
    refine ⟨w.candidate, w.parsed, ⟨hmem, hw, ?_⟩, hparsed, hsnapshot⟩
    intro d hd hds
    obtain ⟨choice, hchoice, rfl⟩ := hchosen d hd
    exact (Choice.key_le hds hw).mp (hle choice hchoice)

theorem readValues_parses {values : List (CalendarSourceSpec × FeedRecord)} {limited : Bool} :
    (∃ answer, readValues parse region options values limited now = some answer) ↔
      ∀ c ∈ storedCandidates values, (c.parsed parse options).isSome := by
  constructor
  · intro ⟨answer, h⟩ c hc
    unfold readValues at h
    simp only [Option.bind_eq_bind, Option.bind_eq_some_iff] at h
    obtain ⟨choices, hchoices, -⟩ := h
    obtain ⟨choice, -, he⟩ := (mapM_option hchoices).2 c hc
    unfold choiceOf at he
    obtain ⟨parsed, hparsed, -⟩ := Option.map_eq_some_iff.mp he
    rw [StoredCandidate.parsed, hparsed]
    rfl
  · intro h
    have hsome : ∀ c ∈ storedCandidates values, (choiceOf parse region options values limited now c).isSome := by
      intro c hc
      unfold choiceOf
      rw [Option.isSome_map]
      exact h c hc
    obtain ⟨choices, hchoices⟩ := mapM_option_returns hsome
    unfold readValues
    rw [hchoices]
    simp only [Option.bind_eq_bind, Option.bind_some]
    split
    · exact ⟨_, rfl⟩
    · exact ⟨_, rfl⟩

omit [Hashing] in
theorem statusOf_complete {parsed : ParsedFeed ω} : statusOf options now c parsed = .complete ↔
      c.inComplete = true ∧ parsed.completeness = .complete ∧
        (options.rejectFloating = true → now - c.feed.fetchedAt ≤ maxReminderAge) := by
  have hage : maxReminderAge < feedAge now c.feed.fetchedAt ↔ ¬now - c.feed.fetchedAt ≤ maxReminderAge := by
    rw [feedAge, lt_max_iff, not_le]
    constructor
    · rintro (h | h)
      · exact absurd h (by decide)
      · exact h
    · exact .inr
  unfold statusOf
  simp only [hage]
  grind

omit [Hashing] in
theorem le_of_rank (h : c.rank ≤ d.rank) : c.feed.fetchedAt ≤ d.feed.fetchedAt := by
  unfold StoredCandidate.rank at h
  rw [Prod.Lex.toLex_le_toLex] at h
  rcases h with h | h
  · exact le_of_lt h
  · exact le_of_eq h.1

/-- Complete data wins just when the newest feed of the complete slots is complete for the window that is read. -/
theorem complete_wins_iff (manual coldSync limited : Bool) (before after : String → Option FeedRecord) (now : Instant) :
    CompleteWins parse options now
        (storedCandidates (readRecords region manual coldSync limited before after).1)
        (readSnapshot parse region options manual coldSync limited before after now) ↔
      NewestComplete parse options now
        (storedCandidates (readRecords region manual coldSync limited before after).1) := by
  obtain ⟨records, hrecords⟩ := readRecords_stored region manual coldSync limited before after
  unfold readSnapshot
  dsimp only
  generalize (readRecords region manual coldSync limited before after).2 = lim
  rw [hrecords]
  generalize hvalues : storedValues region records = values
  constructor
  · intro h hq
    obtain ⟨c, hc, hcq, -, parsed, snapshot, -, hanswer, hstatus, -⟩ := h hq
    refine ⟨(readValues_parses parse region options).mp ⟨snapshot, hanswer⟩, ?_⟩
    intro e he
    obtain ⟨w, found, hw, hfound, hshown⟩ := readValues_newest parse region options hanswer hc hcq.1
    have hrank : e.rank = w.rank := le_antisymm (hw.2.2 e he.1 he.2.1) (he.2.2 w hw.1 hw.2.1)
    have hew : e = w := by
      subst hvalues
      exact rank_injective he.1 hw.1 he.2.1 hw.2.1 hrank
    rw [hshown] at hstatus
    rw [hew]
    exact ⟨found, hfound, ((statusOf_complete options).mp hstatus).2.1⟩
  · intro h hq
    obtain ⟨hparses, hnewest⟩ := h hq
    obtain ⟨answer, hanswer⟩ : ∃ answer, readValues parse region options values lim now = some answer :=
      (readValues_parses parse region options).mpr hparses
    obtain ⟨c, hc, hcq⟩ := hq
    obtain ⟨w, found, hw, hfound, hshown⟩ := readValues_newest parse region options hanswer hc hcq.1
    obtain ⟨parsed, hparsed, hcomplete⟩ := hnewest w hw
    rw [hfound] at hparsed
    obtain rfl := Option.some.inj hparsed
    have hage : options.rejectFloating = true → now - w.feed.fetchedAt ≤ maxReminderAge := by
      intro hr
      have hle := le_of_rank (hw.2.2 c hc hcq.1)
      exact le_trans (sub_le_sub_left hle now) (hcq.2.2 hr)
    refine ⟨w, hw.1, ⟨hw.2.1, ⟨found, hfound, hcomplete⟩, hage⟩, ?_, found, answer, hfound, hanswer, ?_⟩
    · intro d hd hdq
      exact hw.2.2 d hd hdq.1
    · rw [hshown]
      exact ⟨(statusOf_complete options).mpr ⟨hw.2.1, hcomplete, hage⟩, rfl, rfl, rfl, rfl⟩

end

/-! An older primary without events, and a newer fallback whose event has no timezone. -/

namespace FloatingSample

def emptyFeed : String := "BEGIN:VCALENDAR\r\nVERSION:2.0\r\nEND:VCALENDAR\r\n"

def floatingFeed : String :=
  "BEGIN:VCALENDAR\r\nVERSION:2.0\r\nBEGIN:VEVENT\r\nUID:raid\r\nDTSTART:20300102T200000\r\nEND:VEVENT\r\nEND:VCALENDAR\r\n"

def primarySpec : CalendarSourceSpec :=
  ⟨primarySource, "cn_google", "https://calendar.google.com/calendar/ical/up88drvlnnh2t77hbpqq8v33i2cngfh7%40import.calendar.google.com/public/basic.ics"⟩

def fallbackSpec : CalendarSourceSpec :=
  ⟨fallback, "cn_icloud", "https://p66-caldav.icloud.com/published/2/MTAyMTk3MTMxMjExMDIxOXsjasy7WUO0EcKVz7qGEuVjjTlRkgd6WOZM171uxP_u-QM51M24lHzRlAQir-oodDRRTzZeusSLbw0snkZoqI4"⟩

@[reducible]
def hashing : Hashing :=
  ⟨fun text =>
    if text = primarySpec.url then "66c3f3cb4166afea14accc20b0e2ee2d7fcf86ab6d6ecaa0e9212271d0848943"
    else if text = fallbackSpec.url then "3dd54c221e834096f1f8ffbb8dcb8c3f3821bc68d775e8154e236a5552d8b31f"
    else if text = emptyFeed then "67a73b3cd2232e1743d87c55ebfbed281f1f071e20ad9ac7086732e481d0c3a1"
    else if text = floatingFeed then "6e58bc4e41732c74deebd1a3b4f6f38c34d3d23ac10bdbf2b9de4a49c5fd5c26" else ""⟩

attribute [local instance] hashing

/-- `parse_ics` on the two feeds: the event of the second is floating. An occurrence is shown by its uid. -/
def parse (raw _ : String) (options : ParseOptions) : Option (ParsedFeed String) :=
  if raw = floatingFeed then
    some (if options.rejectFloating then ⟨.partialResult, [], ["FLOATING_TIME_UNSUPPORTED"]⟩
      else ⟨.complete, ["raid"], []⟩)
  else some ⟨.complete, [], []⟩

def record (spec : CalendarSourceSpec) (lastStatus : String) (fetchedAt : Instant) (raw : String) : FeedRecord :=
  (SnapshotValue.feeds { SnapshotValue.empty with
      region := some "cn"
      sourceId := some spec.sourceId
      urlFingerprint := some (urlFingerprint spec)
      lastStatus := some lastStatus
      complete := some ⟨raw, fetchedAt, Hashing.sha256 raw⟩ })

def records (key : String) : Option FeedRecord :=
  if key = sourceKey "cn" primarySpec then some (record primarySpec "failed" 0 emptyFeed)
  else if key = sourceKey "cn" fallbackSpec then some (record fallbackSpec "complete" (21600 * second) floatingFeed)
  else none

def options : ReadOptions := ⟨⟨0, 7 * day, "Asia/Shanghai", true⟩, 21600⟩

def answer : Option (CalendarSourceSnapshot String) :=
  readSnapshot parse "cn" options false false false records records (21601 * second)

def candidate : StoredCandidate := ⟨primarySpec, true, ⟨emptyFeed, 0, Hashing.sha256 emptyFeed⟩, some "failed"⟩

def partly : {answer : Option (CalendarSourceSnapshot String) //
    answer.map (fun s => s.completeness) = some .partialResult} := ⟨answer, by decide +kernel⟩

end FloatingSample

attribute [local instance] FloatingSample.hashing

open FloatingSample in
/-- The primary qualifies, and yet the partial reading of the fallback is returned. -/
theorem newer_floating_feed_wins : ¬CompleteWins parse options (21601 * second)
    (storedCandidates (readRecords "cn" false false false records records).1) answer := by
  intro h
  have hmem : candidate ∈ storedCandidates (readRecords "cn" false false false records records).1 := by decide +kernel
  have hcomplete : candidate.parsesComplete parse options := ⟨⟨.complete, [], []⟩, by decide +kernel, rfl⟩
  have hq : candidate.qualifies parse options (21601 * second) := ⟨rfl, hcomplete, by decide⟩
  obtain ⟨c, -, -, -, parsed, snapshot, -, hanswer, hstatus, -⟩ := h ⟨candidate, hmem, hq⟩
  have hpartial : answer.map (fun s => s.completeness) = some .partialResult := partly.property
  rw [hanswer, Option.map_some, hstatus] at hpartial
  cases hpartial

end GameLink.Ff14

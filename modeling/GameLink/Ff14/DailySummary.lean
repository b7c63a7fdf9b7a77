import GameLink.Foundation.Runs
import GameLink.Ff14.Document

namespace GameLink.Ff14

open Foundation Contracts Digest

/-! What the evaluator reads and remembers. -/

theorem parseEmittedDates_of_nodup {dates : List LocalDate} (hnodup : dates.Nodup)
    (hshort : dates.length ≤ maxRememberedDates) : parseEmittedDates dates = dates := by
  have hfold : ∀ rest seen : List LocalDate, (seen ++ rest).Nodup →
      rest.foldl (fun seen d => if d ∈ seen then seen else seen ++ [d]) seen = seen ++ rest := by
    intro rest
    induction rest with
    | nil => intro seen _; rw [List.append_nil, List.foldl_nil]
    | cons d rest ih =>
      intro seen h
      have hd : d ∉ seen := fun hmem => List.disjoint_of_nodup_append h hmem List.mem_cons_self
      rw [List.foldl_cons, if_neg hd, ih (seen ++ [d]) (by rwa [List.append_assoc, List.singleton_append]),
        List.append_assoc, List.singleton_append]
  unfold parseEmittedDates
  rw [hfold dates [] (by rwa [List.nil_append]), List.nil_append, rtake_of_length_le hshort]

def accepted (zones : String → Option ZoneInfo) (subscription : SubscriptionView) (observation : CalendarObservation) :
    Option Inputs :=
  if observation.completeness = .complete then (readInputs zones subscription observation).toOption else none

structure Ready (dateutil : Dateutil) (inputs : Inputs) (prior : SummaryState) (m : Moment) (baseline : LocalDate) :
    Prop where
  begun : baseline.ordinal ≤ m.today.ordinal
  due : m.isDue = true
  notLast : lastEventDate prior ≠ some m.today
  covering : coversWindow dateutil inputs.zone inputs.snapshot m.today = .ok true
  notRemembered : m.today ∉ parseEmittedDates prior.emittedLocalDates

section

variable [Hashing] {zones : String → Option ZoneInfo} {dateutil : Dateutil} {decision : EvaluationDecision}

theorem evaluateSchedule_cases {revision : ℕ} {collectedAt : Instant} {inputs : Inputs} {prior : SummaryState}
    {m : Moment} {baseline : LocalDate}
    (h : evaluateSchedule dateutil revision collectedAt inputs prior m baseline = .ok decision) :
    (¬ Ready dateutil inputs prior m baseline ∧
      decision = .quiet (keptState revision inputs.settings prior baseline)) ∨
    (Ready dateutil inputs prior m baseline ∧ ∃ document,
      buildCalendarDocument dateutil inputs.zone inputs.settings.timezone inputs.snapshot m.today dailyWindowDays
        collectedAt = .ok document ∧ decision = emit revision inputs prior baseline m.today document) := by
  unfold evaluateSchedule at h
  dsimp only at h
  split at h
  · rename_i hearly
    left
    refine ⟨fun hr => ?_, (Except.ok.inj h).symm⟩
    have hbegun := hr.begun
    rw [hr.due] at hearly
    simp only [Bool.not_true, Bool.false_eq_true, or_false] at hearly
    omega
  · rename_i hearly
    simp only [Bool.not_eq_eq_eq_not, Bool.not_true, not_or, not_lt, Bool.not_eq_false] at hearly
    split at h
    · rename_i hlast
      exact .inl ⟨fun hr => hr.notLast hlast, (Except.ok.inj h).symm⟩
    rename_i hlast
    split at h
    · cases h
    · rename_i hcovers
      refine .inl ⟨fun hr => ?_, (Except.ok.inj h).symm⟩
      rw [hr.covering] at hcovers
      cases hcovers
    rename_i hcovers
    split at h
    · rename_i hmem
      exact .inl ⟨fun hr => hr.notRemembered hmem, (Except.ok.inj h).symm⟩
    rename_i hmem
    split at h
    · cases h
    · rename_i document hdocument
      exact .inr ⟨⟨hearly.1, hearly.2, hlast, hcovers, hmem⟩, document, hdocument, (Except.ok.inj h).symm⟩

theorem evaluate_cases {subscription : SubscriptionView} {observation : CalendarObservation}
    {previousState : Option SummaryState}
    (h : evaluate dateutil zones subscription observation previousState = .ok decision) :
    (accepted zones subscription observation = none ∧ decision = .quiet (previousState.getD .empty)) ∨
    (∃ inputs m, accepted zones subscription observation = some inputs ∧
      moment dateutil inputs.zone inputs.dueTime observation.collectedAt = .ok m ∧
      ((sameSchedule subscription.revision inputs.settings (previousState.getD .empty) = false ∧
        ∃ baseline, newBaseline m = .ok baseline ∧
          decision = .quiet (keptState subscription.revision inputs.settings (previousState.getD .empty) baseline)) ∨
      (sameSchedule subscription.revision inputs.settings (previousState.getD .empty) = true ∧
        ∃ baseline, (∀ d, (previousState.getD .empty).baselineLocalDate = some d → baseline = d) ∧
          evaluateSchedule dateutil subscription.revision observation.collectedAt inputs (previousState.getD .empty) m
            baseline = .ok decision))) := by
  unfold evaluate at h
  unfold accepted
  dsimp only at h
  split at h
  · rename_i hcompleteness
    rw [if_neg hcompleteness]
    exact .inl ⟨rfl, (Except.ok.inj h).symm⟩
  rename_i hcompleteness
  rw [if_pos (not_not.mp hcompleteness)]
  cases hread : readInputs zones subscription observation with
  | error e =>
    rw [hread] at h
    left
    refine ⟨rfl, ?_⟩
    cases e
    all_goals
      first
      | exact (Except.ok.inj h).symm
      | cases h
  | ok inputs =>
    rw [hread] at h
    right
    refine ⟨inputs, ?_⟩
    unfold evaluateInputs at h
    dsimp only at h
    split at h
    · cases h
    rename_i m hm
    refine ⟨m, rfl, hm, ?_⟩
    split at h
    · rename_i hsame
      right
      refine ⟨hsame, ?_⟩
      split at h
      · rename_i baseline hbaseline
        refine ⟨baseline, ?_, h⟩
        intro d hd
        rw [hbaseline] at hd
        exact Option.some.inj hd
      rename_i hbaseline
      split at h
      · cases h
      rename_i baseline _
      refine ⟨baseline, ?_, h⟩
      intro d hd
      rw [hbaseline] at hd
      cases hd
    · rename_i hsame
      left
      refine ⟨by simpa using hsame, ?_⟩
      split at h
      · cases h
      · rename_i baseline hbaseline
        exact ⟨baseline, hbaseline, (Except.ok.inj h).symm⟩

end

/-! Runs of evaluations that hand on the returned state. -/

structure Evaluation where
  subscription : SubscriptionView
  observation : CalendarObservation
  decision : EvaluationDecision

def Evaluation.emitted (e : Evaluation) : Option LocalDate :=
  if e.decision.triggered then e.decision.displayData.map fun document => document.localDate else none

structure SummaryCall where
  subscription : SubscriptionView
  observation : CalendarObservation

structure SummaryRun where
  state : Option SummaryState
  log : List Evaluation

def SummaryRun.prior (run : SummaryRun) : SummaryState := run.state.getD .empty

def emittedDates (log : List Evaluation) : List LocalDate := log.filterMap Evaluation.emitted

section

variable (zones : String → Option ZoneInfo) (dateutil : Dateutil)

def Evaluation.firstBaseline (e : Evaluation) : Option LocalDate :=
  match accepted zones e.subscription e.observation with
  | none => none
  | some inputs =>
    match moment dateutil inputs.zone inputs.dueTime e.observation.collectedAt with
    | .ok m => (newBaseline m).toOption
    | .error _ => none

def baselineOf (log : List Evaluation) (revision : ℕ) : Option LocalDate :=
  log.findSome? fun e => if e.subscription.revision = revision then e.firstBaseline zones dateutil else none

structure Ripe (log : List Evaluation) (call : SummaryCall) (inputs : Inputs) (m : Moment) : Prop where
  accepted : accepted zones call.subscription call.observation = some inputs
  moment : moment dateutil inputs.zone inputs.dueTime call.observation.collectedAt = .ok m
  due : m.isDue = true
  begun : ∃ baseline, baselineOf zones dateutil log call.subscription.revision = some baseline ∧
    baseline.ordinal ≤ m.today.ordinal
  covering : coversWindow dateutil inputs.zone inputs.snapshot m.today = .ok true
  fresh : m.today ∉ emittedDates log

end

section

variable {zones : String → Option ZoneInfo} {dateutil : Dateutil}

variable {observation : CalendarObservation} {subscription : SubscriptionView} {inputs : Inputs}

theorem accepted_cases (h : accepted zones subscription observation = some inputs) :
    observation.completeness = .complete ∧ readInputs zones subscription observation = .ok inputs := by
  unfold accepted at h
  split at h
  · rename_i hc
    cases hread : readInputs zones subscription observation with
    | error e => rw [hread] at h; cases h
    | ok i =>
      rw [hread] at h
      cases h
      exact ⟨hc, rfl⟩
  · cases h

theorem readInputs_eq_ok (h : readInputs zones subscription observation = .ok inputs) :
    subscriptionSettings zones subscription = .ok inputs.settings ∧
    validateCollectionKey observation inputs.settings.region = .ok () ∧
    completePayload observation inputs.settings.region = .ok inputs.snapshot ∧
    loadTimezone zones inputs.settings.timezone = .ok inputs.zone ∧
    parseLocalTime inputs.settings.time = .ok inputs.dueTime := by
  unfold readInputs at h
  simp only [bind_eq_ok] at h
  obtain ⟨settings, hsettings, _, hkey, snapshot, hsnapshot, zone, hzone, dueTime, htime, h⟩ := h
  cases h
  exact ⟨hsettings, hkey, hsnapshot, hzone, htime⟩

variable {payload : CalendarPayload}

theorem payloadWindow_eq_ok {window : Instant × Instant}
    (h : payloadWindow payload = .ok window) : ∃ first last, payload.windowStart = .aware first ∧
      payload.windowEnd = .aware last ∧ window = (first.instant, last.instant) := by
  unfold payloadWindow at h
  split at h
  · rename_i first last hfirst hlast
    split at h
    · cases h
    · exact ⟨first, last, hfirst, hlast, (Except.ok.inj h).symm⟩
  · cases h

theorem payloadFetchedAt_eq_ok {collectedAt : Instant} {fetched : Option Aware}
    (h : payloadFetchedAt payload collectedAt = .ok fetched) : ∀ t ∈ payload.sourceFetchedAt, ∃ fetched,
      t = .aware fetched ∧ 0 ≤ collectedAt - fetched.instant ∧ collectedAt - fetched.instant ≤ 2 * day := by
  unfold payloadFetchedAt at h
  intro t ht
  rw [Option.mem_def] at ht
  rw [ht] at h
  cases t with
  | aware fetched =>
    dsimp only at h
    split at h
    · rename_i hfresh
      exact ⟨fetched, rfl, hfresh⟩
    · cases h
  | date d => cases h
  | naive wall => cases h
  | invalid => cases h

theorem completePayload_eq_ok {region : String} {snapshot : CalendarSnapshot}
    (h : completePayload observation region = .ok snapshot) :
    observation.payload.region = some region ∧ observation.payload.completeness = some "complete" ∧
    payloadWindow observation.payload = .ok (snapshot.windowStart, snapshot.windowEnd) ∧
    payloadFetchedAt observation.payload observation.collectedAt = .ok snapshot.sourceFetchedAt := by
  unfold completePayload at h
  dsimp only at h
  split at h
  · cases h
  split at h
  · cases h
  rename_i hheader
  simp only [not_or, not_not] at hheader
  simp only [bind_eq_ok] at h
  obtain ⟨spec, -, occurrences, -, window, hwindow, fetchedAt, hfetched, _, -, h⟩ := h
  cases h
  exact ⟨hheader.2.1, hheader.2.2, hwindow, hfetched⟩

theorem settings_eq {s s' : SubscriptionView} {o o' : CalendarObservation} {inputs inputs' : Inputs}
    (hfilters : s.filters = s'.filters) (h : accepted zones s o = some inputs)
    (h' : accepted zones s' o' = some inputs') : inputs.settings = inputs'.settings := by
  have hs := (readInputs_eq_ok (accepted_cases h).2).1
  have hs' := (readInputs_eq_ok (accepted_cases h').2).1
  have heq : subscriptionSettings zones s = subscriptionSettings zones s' := by
    unfold subscriptionSettings
    rw [hfilters]
  rw [heq, hs'] at hs
  exact (Except.ok.inj hs).symm

theorem loadTimezone_eq_ok {name : String} {zone : ZoneInfo} (h : loadTimezone zones name = .ok zone) :
    zones name = some zone := by
  unfold loadTimezone at h
  split at h
  · cases h
  cases hz : zones name with
  | none => rw [hz] at h; cases h
  | some z =>
    rw [hz] at h
    rw [Except.ok.inj h]

theorem today_near (hzones : ∀ name zone, zones name = some zone → ZoneInfoBounded zone) {m : Moment}
    (h : accepted zones subscription observation = some inputs)
    (hm : moment dateutil inputs.zone inputs.dueTime observation.collectedAt = .ok m) :
    m.today.ordinal + 1 ≥ observation.collectedAt / day ∧ m.today.ordinal ≤ observation.collectedAt / day + 1 := by
  have hzone := hzones _ _ (loadTimezone_eq_ok (readInputs_eq_ok (accepted_cases h).2).2.2.2.1)
  unfold moment at hm
  simp only [bind_eq_ok] at hm
  obtain ⟨wall, hwall, today, htoday, dueAt, -, now, -, hm⟩ := hm
  cases hm
  exact localDate_near hzone hwall htoday

variable {log : List Evaluation}

theorem baselineOf_append {e : Evaluation} {revision : ℕ} :
    baselineOf zones dateutil (log ++ [e]) revision = (baselineOf zones dateutil log revision).or
      (if e.subscription.revision = revision then e.firstBaseline zones dateutil else none) := by
  unfold baselineOf
  rw [List.findSome?_append]
  congr 1
  simp only [List.findSome?_cons, List.findSome?_nil]
  cases (if e.subscription.revision = revision then e.firstBaseline zones dateutil else none) with
  | none => rfl
  | some d => rfl

theorem baselineOf_cases {revision : ℕ} {baseline : LocalDate}
    (h : baselineOf zones dateutil log revision = some baseline) :
    ∃ e ∈ log, e.subscription.revision = revision ∧ accepted zones e.subscription e.observation ≠ none := by
  obtain ⟨e, he, hsome⟩ := List.exists_of_findSome?_eq_some h
  split at hsome
  · rename_i hrevision
    refine ⟨e, he, hrevision, ?_⟩
    intro hnone
    unfold Evaluation.firstBaseline at hsome
    rw [hnone] at hsome
    cases hsome
  · cases hsome

theorem emittedDates_append (log : List Evaluation) (e : Evaluation) :
    emittedDates (log ++ [e]) = emittedDates log ++ e.emitted.toList := by
  unfold emittedDates
  rw [List.filterMap_append]
  cases h : e.emitted with
  | none => rw [List.filterMap_cons_none h]; rfl
  | some d => rw [List.filterMap_cons_some h]; rfl

theorem ordinal_injective : LocalDate.ordinal.Injective := fun _ _ h => LocalDate.ext h

theorem emitted_quiet {e : Evaluation} {state : SummaryState} (h : e.decision = .quiet state) : e.emitted = none := by
  unfold Evaluation.emitted
  rw [h]
  rfl

end

variable [Hashing]

section

variable (zones : String → Option ZoneInfo) (dateutil : Dateutil)

def summarySystem : System SummaryRun SummaryCall where
  start run := run = ⟨none, []⟩
  allowed run call := ∀ e ∈ run.log, e.observation.collectedAt ≤ call.observation.collectedAt ∧
    e.subscription.revision ≤ call.subscription.revision ∧
    (e.subscription.revision = call.subscription.revision → e.subscription.filters = call.subscription.filters)
  next run call :=
    match evaluate dateutil zones call.subscription call.observation run.state with
    | .ok decision => ⟨some decision.state, run.log ++ [⟨call.subscription, call.observation, decision⟩]⟩
    | .error _ => run

instance (run : SummaryRun) (call : SummaryCall) : Decidable ((summarySystem zones dateutil).allowed run call) :=
  inferInstanceAs (Decidable (∀ e ∈ run.log, _ ∧ _ ∧ (_ → _)))

structure Recorded (run : SummaryRun) : Prop where
  emitted : run.prior.emittedLocalDates = (emittedDates run.log).rtake maxRememberedDates
  last : run.prior.lastEventLocalDate = (emittedDates run.log).getLast?
  nodup : (emittedDates run.log).Nodup
  advancing : Advancing LocalDate.ordinal 2 (emittedDates run.log)
  near : ∀ d ∈ emittedDates run.log, ∃ e ∈ run.log, d.ordinal ≤ e.observation.collectedAt / day + 1
  scheduled : ∀ revision, run.prior.subscriptionRevision = some revision →
    (∃ e ∈ run.log, e.subscription.revision = revision ∧ ∃ inputs,
      accepted zones e.subscription e.observation = some inputs ∧
      run.prior.scheduleFingerprint = some (scheduleFingerprint inputs.settings)) ∧
    (∃ baseline, run.prior.baselineLocalDate = some baseline ∧ baselineOf zones dateutil run.log revision = some baseline)
  settled : ∀ e ∈ run.log, accepted zones e.subscription e.observation ≠ none →
    ∃ revision, run.prior.subscriptionRevision = some revision ∧ e.subscription.revision ≤ revision

end

variable {zones : String → Option ZoneInfo} {dateutil : Dateutil}

variable {run : SummaryRun}

theorem Recorded.parsed (hr : Recorded zones dateutil run) :
    parseEmittedDates run.prior.emittedLocalDates = (emittedDates run.log).rtake maxRememberedDates := by
  rw [hr.emitted]
  exact parseEmittedDates_of_nodup ((rtake_sublist _ _).nodup hr.nodup) (length_rtake_le _ _)

theorem Recorded.lastEvent (hr : Recorded zones dateutil run) :
    lastEventDate run.prior = (emittedDates run.log).getLast? := by
  unfold lastEventDate
  rw [hr.last, hr.parsed]
  cases h : (emittedDates run.log).getLast? with
  | some d => rfl
  | none =>
    rw [List.getLast?_eq_none_iff.mp h]
    rfl

theorem Recorded.baseline_of_same {revision : ℕ} {settings : Settings}
    (hr : Recorded zones dateutil run) (h : sameSchedule revision settings run.prior = true) :
    ∃ baseline, run.prior.baselineLocalDate = some baseline ∧
      baselineOf zones dateutil run.log revision = some baseline := by
  unfold sameSchedule at h
  rw [Bool.and_eq_true, decide_eq_true_eq] at h
  exact (hr.scheduled _ h.1).2

variable {inputs : Inputs} {call : SummaryCall} {baseline : LocalDate}

theorem Recorded.same_of_baseline
    (hr : Recorded zones dateutil run) (hallowed : (summarySystem zones dateutil).allowed run call)
    (h : accepted zones call.subscription call.observation = some inputs)
    (hbaseline : baselineOf zones dateutil run.log call.subscription.revision = some baseline) :
    sameSchedule call.subscription.revision inputs.settings run.prior = true := by
  obtain ⟨e, he, hrevision, haccepted⟩ := baselineOf_cases hbaseline
  obtain ⟨revision, hprior, hle⟩ := hr.settled e he haccepted
  obtain ⟨⟨e', he', hrevision', inputs', haccepted', hfingerprint⟩, -⟩ := hr.scheduled revision hprior
  obtain ⟨-, hle', hsame⟩ := hallowed e' he'
  have heq : revision = call.subscription.revision := by omega
  subst heq
  unfold sameSchedule
  rw [hprior, hfingerprint, settings_eq (hsame hrevision') haccepted' h]
  simp

section

variable (hzones : ∀ name zone, zones name = some zone → ZoneInfoBounded zone)
include hzones

variable {m : Moment}

theorem Recorded.today_advances (hr : Recorded zones dateutil run)
    (hallowed : (summarySystem zones dateutil).allowed run call)
    (h : accepted zones call.subscription call.observation = some inputs)
    (hm : moment dateutil inputs.zone inputs.dueTime call.observation.collectedAt = .ok m) :
    ∀ d ∈ emittedDates run.log, d.ordinal ≤ m.today.ordinal + (2 : ℕ) := by
  intro d hd
  obtain ⟨e, he, hnear⟩ := hr.near d hd
  have hcollected := (hallowed e he).1
  have htoday := (today_near hzones h hm).1
  have hdays := Int.ediv_le_ediv (show (0 : ℤ) < day by decide) hcollected
  omega

theorem Recorded.remembers (hr : Recorded zones dateutil run)
    (hallowed : (summarySystem zones dateutil).allowed run call)
    (h : accepted zones call.subscription call.observation = some inputs)
    (hm : moment dateutil inputs.zone inputs.dueTime call.observation.collectedAt = .ok m) :
    m.today ∈ parseEmittedDates run.prior.emittedLocalDates ↔ m.today ∈ emittedDates run.log := by
  rw [hr.parsed]
  exact mem_rtake_iff ordinal_injective (by decide) hr.nodup hr.advancing (hr.today_advances hzones hallowed h hm)

theorem Recorded.ready_iff
    (hr : Recorded zones dateutil run) (hallowed : (summarySystem zones dateutil).allowed run call)
    (h : accepted zones call.subscription call.observation = some inputs)
    (hm : moment dateutil inputs.zone inputs.dueTime call.observation.collectedAt = .ok m)
    (hbaseline : baselineOf zones dateutil run.log call.subscription.revision = some baseline) :
    Ready dateutil inputs run.prior m baseline ↔ Ripe zones dateutil run.log call inputs m := by
  have hremembers := hr.remembers hzones hallowed h hm
  constructor
  · intro hready
    exact ⟨h, hm, hready.due, ⟨baseline, hbaseline, hready.begun⟩, hready.covering,
      fun hmem => hready.notRemembered (hremembers.mpr hmem)⟩
  intro hripe
  obtain ⟨baseline', hbaseline', hbegun⟩ := hripe.begun
  rw [hbaseline] at hbaseline'
  cases hbaseline'
  refine ⟨hbegun, hripe.due, ?_, hripe.covering, fun hmem => hripe.fresh (hremembers.mp hmem)⟩
  rw [hr.lastEvent]
  exact fun hlast => hripe.fresh (List.mem_of_getLast? hlast)

end

variable {e : Evaluation}

section

variable (hr : Recorded zones dateutil run)
include hr

theorem recorded_accepted
    (hallowed : (summarySystem zones dateutil).allowed run ⟨e.subscription, e.observation⟩)
    (h : accepted zones e.subscription e.observation = some inputs)
    (hbaseline : baselineOf zones dateutil (run.log ++ [e]) e.subscription.revision = some baseline)
    (hemitted : ∀ d, e.emitted = some d → d ∉ emittedDates run.log ∧
      (∀ a ∈ emittedDates run.log, a.ordinal ≤ d.ordinal + (2 : ℕ)) ∧
      d.ordinal ≤ e.observation.collectedAt / day + 1) :
    Recorded zones dateutil ⟨some ⟨some e.subscription.revision, some (scheduleFingerprint inputs.settings),
      some baseline, (emittedDates (run.log ++ [e])).getLast?,
      (emittedDates (run.log ++ [e])).rtake maxRememberedDates⟩, run.log ++ [e]⟩ := by
  have hdates := emittedDates_append run.log e
  constructor
  case emitted => rfl
  case last => rfl
  case nodup =>
    rw [hdates]
    cases he : e.emitted with
    | none => simpa using hr.nodup
    | some d =>
      rw [Option.toList_some, List.nodup_append']
      exact ⟨hr.nodup, List.nodup_singleton d, List.disjoint_singleton.mpr (hemitted d he).1⟩
  case advancing =>
    rw [hdates]
    cases he : e.emitted with
    | none => simpa using hr.advancing
    | some d =>
      rw [Option.toList_some]
      apply List.pairwise_append.mpr
      refine ⟨hr.advancing, List.pairwise_singleton _ _, ?_⟩
      intro a ha b hb
      rw [List.mem_singleton.mp hb]
      exact (hemitted d he).2.1 a ha
  case near =>
    intro d hd
    rw [hdates, List.mem_append] at hd
    cases hd with
    | inl hd =>
      obtain ⟨e', he', hnear⟩ := hr.near d hd
      exact ⟨e', List.mem_append_left _ he', hnear⟩
    | inr hd => exact ⟨e, by simp, (hemitted d (Option.mem_toList.mp hd)).2.2⟩
  case scheduled =>
    intro revision hrevision
    cases hrevision
    exact ⟨⟨e, by simp, rfl, inputs, h, rfl⟩, baseline, rfl, hbaseline⟩
  case settled =>
    intro e' he' _
    refine ⟨e.subscription.revision, rfl, ?_⟩
    rw [List.mem_append, List.mem_singleton] at he'
    cases he' with
    | inl he' => exact (hallowed e' he').2.1
    | inr he' => rw [he']

theorem recorded_refused
    (h : accepted zones e.subscription e.observation = none) (hemitted : e.emitted = none) :
    Recorded zones dateutil ⟨some run.prior, run.log ++ [e]⟩ := by
  have hdates : emittedDates (run.log ++ [e]) = emittedDates run.log := by
    rw [emittedDates_append, hemitted, Option.toList_none, List.append_nil]
  constructor
  case emitted => rw [hdates]; exact hr.emitted
  case last => rw [hdates]; exact hr.last
  case nodup => rw [hdates]; exact hr.nodup
  case advancing => rw [hdates]; exact hr.advancing
  case near =>
    intro d hd
    rw [hdates] at hd
    obtain ⟨e', he', hnear⟩ := hr.near d hd
    exact ⟨e', List.mem_append_left _ he', hnear⟩
  case scheduled =>
    intro revision hrevision
    obtain ⟨⟨e', he', hfound⟩, baseline, hprior, hbaseline⟩ := hr.scheduled revision hrevision
    refine ⟨⟨e', List.mem_append_left _ he', hfound⟩, baseline, hprior, ?_⟩
    rw [baselineOf_append, hbaseline]
    rfl
  case settled =>
    intro e' he' haccepted
    rw [List.mem_append, List.mem_singleton] at he'
    cases he' with
    | inl he' => exact hr.settled e' he' haccepted
    | inr he' => rw [he'] at haccepted; exact absurd h haccepted

theorem Recorded.quiet_state
    (hemitted : e.emitted = none) (revision : ℕ) (settings : Settings) (baseline : LocalDate) :
    keptState revision settings run.prior baseline = ⟨some revision, some (scheduleFingerprint settings),
      some baseline, (emittedDates (run.log ++ [e])).getLast?,
      (emittedDates (run.log ++ [e])).rtake maxRememberedDates⟩ := by
  unfold keptState
  rw [emittedDates_append, hemitted, Option.toList_none, List.append_nil, hr.lastEvent, hr.parsed]

end

theorem Recorded.emit_state {baseline today : LocalDate}
    {document : CalendarDocument} (hr : Recorded zones dateutil run) (hemitted : e.emitted = some today)
    (hfresh : today ∉ parseEmittedDates run.prior.emittedLocalDates) (revision : ℕ) :
    (emit revision inputs run.prior baseline today document).state =
      ⟨some revision, some (scheduleFingerprint inputs.settings), some baseline,
        (emittedDates (run.log ++ [e])).getLast?, (emittedDates (run.log ++ [e])).rtake maxRememberedDates⟩ := by
  unfold emit rememberDate
  rw [if_neg hfresh, emittedDates_append, hemitted, Option.toList_some, List.getLast?_concat, hr.parsed,
    rtake_append_singleton]

end GameLink.Ff14

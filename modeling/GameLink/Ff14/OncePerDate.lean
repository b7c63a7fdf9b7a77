import GameLink.Ff14.DailySummary

namespace GameLink.Ff14

open Foundation Contracts Digest

/-! One summary for each local date. -/

variable {log : List Evaluation}

theorem ripe_unique {zones : String → Option ZoneInfo} {dateutil : Dateutil}
    {call : SummaryCall} {inputs inputs' : Inputs} {m m' : Moment}
    (h : accepted zones call.subscription call.observation = some inputs)
    (hm : moment dateutil inputs.zone inputs.dueTime call.observation.collectedAt = .ok m)
    (hripe : Ripe zones dateutil log call inputs' m') : inputs' = inputs ∧ m' = m := by
  have haccepted := hripe.accepted
  rw [h] at haccepted
  cases haccepted
  have hmoment := hripe.moment
  rw [hm] at hmoment
  cases hmoment
  exact ⟨rfl, rfl⟩

structure Kept (zones : String → Option ZoneInfo) (dateutil : Dateutil) (log : List Evaluation) (e : Evaluation) :
    Prop where
  quiet : e.decision.triggered = false
  unripe : ∀ inputs m, ¬ Ripe zones dateutil log ⟨e.subscription, e.observation⟩ inputs m

structure Emitted (zones : String → Option ZoneInfo) (dateutil : Dateutil) (log : List Evaluation) (e : Evaluation)
    (inputs : Inputs) (m : Moment) : Prop where
  ripe : Ripe zones dateutil log ⟨e.subscription, e.observation⟩ inputs m
  triggered : e.decision.triggered = true
  emitted : e.emitted = some m.today
  eventKey : e.decision.eventKey = some ("ff14.calendar.daily." ++ m.today.isoformat)

structure Founded (zones : String → Option ZoneInfo) (dateutil : Dateutil) (log : List Evaluation) (e : Evaluation)
    (inputs : Inputs) (today : LocalDate) : Prop where
  settings : subscriptionSettings zones e.subscription = .ok inputs.settings
  zone : zones inputs.settings.timezone = some inputs.zone
  dueTime : parseLocalTime inputs.settings.time = .ok inputs.dueTime
  localDate : ∃ wall, toZone inputs.zone e.observation.collectedAt = .ok wall ∧ dateOf wall = .ok today
  due : ∃ dueAt, localDueInstant dateutil today inputs.dueTime inputs.zone = .ok dueAt ∧
    dueAt ≤ e.observation.collectedAt
  begun : ∃ baseline, baselineOf zones dateutil log e.subscription.revision = some baseline ∧
    baseline.ordinal ≤ today.ordinal
  complete : e.observation.completeness = .complete ∧ e.observation.payload.completeness = some "complete"
  keyed : validateCollectionKey e.observation inputs.settings.region = .ok ()
  matching : e.observation.payload.region = some inputs.settings.region
  fresh : ∀ t ∈ e.observation.payload.sourceFetchedAt, ∃ fetched, t = .aware fetched ∧
    0 ≤ e.observation.collectedAt - fetched.instant ∧ e.observation.collectedAt - fetched.instant ≤ 2 * day
  covering : ∃ first last lastDay windowStart windowEnd, e.observation.payload.windowStart = .aware first ∧
    e.observation.payload.windowEnd = .aware last ∧ addDays today dailyWindowDays = .ok lastDay ∧
    midnightInstant dateutil today inputs.zone = .ok windowStart ∧
    midnightInstant dateutil lastDay inputs.zone = .ok windowEnd ∧
    first.instant ≤ windowStart ∧ windowEnd ≤ last.instant

theorem Emitted.founded {zones : String → Option ZoneInfo} {dateutil : Dateutil} {e : Evaluation} {inputs : Inputs} {m : Moment}
    (h : Emitted zones dateutil log e inputs m) : Founded zones dateutil log e inputs m.today := by
  have hripe := h.ripe
  obtain ⟨hcomplete, hread⟩ := accepted_cases hripe.accepted
  obtain ⟨hsettings, hkey, hsnapshot, hzone, htime⟩ := readInputs_eq_ok hread
  obtain ⟨hregion, hstatus, hwindow, hfetched⟩ := completePayload_eq_ok hsnapshot
  have hmoment := hripe.moment
  unfold moment at hmoment
  simp only [bind_eq_ok] at hmoment
  obtain ⟨wall, hwall, today, htoday, dueAt, hdueAt, now, hnow, hm⟩ := hmoment
  cases hm
  have hcovering := hripe.covering
  unfold coversWindow at hcovering
  simp only [bind_eq_ok] at hcovering
  obtain ⟨windowStart, hstart, lastDay, hlast, windowEnd, hend, hcovers⟩ := hcovering
  have hdue := hripe.due
  obtain ⟨hnow, -⟩ := inYears_eq_ok.mp hnow
  refine ⟨hsettings, loadTimezone_eq_ok hzone, htime, ⟨wall, hwall, htoday⟩, ⟨dueAt, hdueAt, ?_⟩, hripe.begun,
    ⟨hcomplete, hstatus⟩, hkey, hregion, payloadFetchedAt_eq_ok hfetched, ?_⟩
  · rw [hnow]
    exact of_decide_eq_true hdue
  obtain ⟨first, last, hfirst, hstop, heq⟩ := payloadWindow_eq_ok hwindow
  have hcovers := Except.ok.inj hcovers
  unfold covers at hcovers
  rw [Bool.and_eq_true, decide_eq_true_eq, decide_eq_true_eq] at hcovers
  obtain ⟨hfirsts, hlasts⟩ := Prod.mk.inj heq
  rw [hfirsts, hlasts] at hcovers
  exact ⟨first, last, lastDay, windowStart, windowEnd, hfirst, hstop, hlast, hstart, hend, hcovers.1, hcovers.2⟩

section

variable [Hashing] {zones : String → Option ZoneInfo} {dateutil : Dateutil} {inputs : Inputs}

variable {document : CalendarDocument} {prior : SummaryState}

theorem emit_emitted {e : Evaluation} {baseline today : LocalDate} {revision : ℕ} (hdate : document.localDate = today)
    (h : e.decision = emit revision inputs prior baseline today document) : e.emitted = some today := by
  unfold Evaluation.emitted
  rw [h, ← hdate]
  rfl

variable {run : SummaryRun}

theorem evaluation_step (hzones : ∀ name zone, zones name = some zone → ZoneInfoBounded zone)
    {e : Evaluation} (hr : Recorded zones dateutil run)
    (hallowed : (summarySystem zones dateutil).allowed run ⟨e.subscription, e.observation⟩)
    (h : evaluate dateutil zones e.subscription e.observation run.state = .ok e.decision) :
    Recorded zones dateutil ⟨some e.decision.state, run.log ++ [e]⟩ ∧
      (Kept zones dateutil run.log e ∨ ∃ inputs m, Emitted zones dateutil run.log e inputs m) := by
  have hdone := evaluate_cases h
  cases hdone with
  | inl hrefused =>
    obtain ⟨hnone, hdecision⟩ := hrefused
    rw [hdecision]
    refine ⟨recorded_refused hr hnone (emitted_quiet hdecision), .inl ⟨by rw [hdecision]; rfl, ?_⟩⟩
    intro inputs m hripe
    have haccepted := hripe.accepted
    rw [hnone] at haccepted
    cases haccepted
  | inr hdone =>
    obtain ⟨inputs, m, haccepted, hm, hdone⟩ := hdone
    cases hdone with
    | inl hfirst =>
      obtain ⟨hother, baseline, hbaseline, hdecision⟩ := hfirst
      have hnone : baselineOf zones dateutil run.log e.subscription.revision = none := by
        cases hb : baselineOf zones dateutil run.log e.subscription.revision with
        | none => rfl
        | some b =>
          have hsame := hr.same_of_baseline hallowed haccepted hb
          rw [show run.state.getD .empty = run.prior from rfl, hsame] at hother
          cases hother
      have hemitted := emitted_quiet hdecision
      have hnew : baselineOf zones dateutil (run.log ++ [e]) e.subscription.revision = some baseline := by
        rw [baselineOf_append, hnone, if_pos rfl, Option.none_or]
        unfold Evaluation.firstBaseline
        rw [haccepted]
        dsimp only
        rw [hm]
        dsimp only
        rw [hbaseline]
        rfl
      constructor
      · rw [hdecision]
        change Recorded zones dateutil ⟨some (keptState e.subscription.revision inputs.settings run.prior baseline), _⟩
        rw [hr.quiet_state hemitted]
        apply recorded_accepted hr hallowed haccepted hnew
        intro d hd
        rw [hemitted] at hd
        cases hd
      · left
        refine ⟨by rw [hdecision]; rfl, ?_⟩
        intro inputs' m' hripe
        obtain ⟨b, hb, -⟩ := hripe.begun
        rw [hnone] at hb
        cases hb
    | inr hschedule =>
      obtain ⟨hother, baseline, hbaseline, hdecision⟩ := hschedule
      obtain ⟨baseline', hprior, hbase⟩ := hr.baseline_of_same hother
      have heq := hbaseline baseline' hprior
      subst heq
      have hready := hr.ready_iff hzones hallowed haccepted hm hbase
      have hkept : baselineOf zones dateutil (run.log ++ [e]) e.subscription.revision = some baseline := by
        rw [baselineOf_append, hbase]
        rfl
      cases evaluateSchedule_cases hdecision with
      | inl hquiet =>
        obtain ⟨hnot, hdecision⟩ := hquiet
        have hemitted := emitted_quiet hdecision
        constructor
        · rw [hdecision]
          change Recorded zones dateutil
            ⟨some (keptState e.subscription.revision inputs.settings run.prior baseline), _⟩
          rw [hr.quiet_state hemitted]
          apply recorded_accepted hr hallowed haccepted hkept
          intro d hd
          rw [hemitted] at hd
          cases hd
        · left
          refine ⟨by rw [hdecision]; rfl, ?_⟩
          intro inputs' m' hripe
          obtain ⟨rfl, rfl⟩ := ripe_unique haccepted hm hripe
          exact hnot (hready.mpr hripe)
      | inr hemit =>
        obtain ⟨hyes, document, hdocument, hdecision⟩ := hemit
        have hripe := hready.mp hyes
        have hemitted := emit_emitted (document_localDate hdocument) hdecision
        constructor
        · rw [hdecision]
          change Recorded zones dateutil
            ⟨some (emit e.subscription.revision inputs run.prior baseline m.today document).state, _⟩
          rw [hr.emit_state hemitted hyes.notRemembered]
          apply recorded_accepted hr hallowed haccepted hkept
          intro d hd
          rw [hemitted] at hd
          cases hd
          exact ⟨hripe.fresh, hr.today_advances hzones hallowed haccepted hm, (today_near hzones haccepted hm).2⟩
        · exact .inr ⟨inputs, m, hripe, by rw [hdecision]; rfl, hemitted, by rw [hdecision]; rfl⟩

theorem recorded_start : Recorded zones dateutil ⟨none, []⟩ := by
  constructor
  case emitted => rfl
  case last => rfl
  case nodup => exact .nil
  case advancing => exact .nil
  case near => intro d hd; cases hd
  case scheduled => intro revision h; cases h
  case settled => intro e he; cases he

theorem next_cases (zones : String → Option ZoneInfo) (dateutil : Dateutil) (run : SummaryRun) (call : SummaryCall) :
    (summarySystem zones dateutil).next run call = run ∨ ∃ e : Evaluation, call = ⟨e.subscription, e.observation⟩ ∧
      evaluate dateutil zones e.subscription e.observation run.state = .ok e.decision ∧
      (summarySystem zones dateutil).next run call = ⟨some e.decision.state, run.log ++ [e]⟩ := by
  unfold summarySystem
  dsimp only
  cases h : evaluate dateutil zones call.subscription call.observation run.state with
  | error e => exact .inl rfl
  | ok decision => exact .inr ⟨⟨call.subscription, call.observation, decision⟩, rfl, h, rfl⟩

structure Accounted (zones : String → Option ZoneInfo) (dateutil : Dateutil) (run : SummaryRun) : Prop where
  recorded : Recorded zones dateutil run
  each : ∀ pre e post, run.log = pre ++ e :: post →
    Kept zones dateutil pre e ∨ ∃ inputs m, Emitted zones dateutil pre e inputs m

theorem accounted (hzones : ∀ name zone, zones name = some zone → ZoneInfoBounded zone)
    (h : (summarySystem zones dateutil).Reachable run) : Accounted zones dateutil run := by
  refine h.invariant ?_ ?_
  · rintro s rfl
    refine ⟨recorded_start, ?_⟩
    intro pre e post hlog
    cases pre <;> cases hlog
  intro s call hs hallowed
  cases next_cases zones dateutil s call with
  | inl hsame => rwa [hsame]
  | inr hreturned =>
    obtain ⟨e, rfl, hevaluate, hnext⟩ := hreturned
    obtain ⟨hrecorded, hdid⟩ := evaluation_step hzones hs.recorded hallowed hevaluate
    rw [hnext]
    refine ⟨hrecorded, ?_⟩
    intro pre e' post hlog
    cases append_singleton_cases hlog with
    | inl hnew =>
      obtain ⟨rfl, rfl, -⟩ := hnew
      exact hdid
    | inr hold =>
      obtain ⟨post', -, hlog⟩ := hold
      exact hs.each pre e' post' hlog

theorem evaluateSchedule_ready {revision : ℕ} {collectedAt : Instant}
    {m : Moment} {baseline : LocalDate}
    (h : Ready dateutil inputs prior m baseline)
    (hdocument : buildCalendarDocument dateutil inputs.zone inputs.settings.timezone inputs.snapshot m.today
      dailyWindowDays collectedAt = .ok document) :
    evaluateSchedule dateutil revision collectedAt inputs prior m baseline =
      .ok (emit revision inputs prior baseline m.today document) := by
  have hbegun := h.begun
  unfold evaluateSchedule
  dsimp only
  rw [h.due, if_neg (by simp only [Bool.not_true, Bool.false_eq_true, or_false]; omega), if_neg h.notLast, h.covering]
  dsimp only
  rw [if_neg h.notRemembered, hdocument]

theorem ripe_returns (hzones : ∀ name zone, zones name = some zone → ZoneInfoBounded zone)
    {call : SummaryCall} {m : Moment} (hr : Recorded zones dateutil run)
    (hallowed : (summarySystem zones dateutil).allowed run call)
    (hripe : Ripe zones dateutil run.log call inputs m)
    (hfetched : ∀ t ∈ inputs.snapshot.sourceFetchedAt, ∃ w, toZone inputs.zone t.instant = .ok w)
    (hshown : ∀ raw ∈ inputs.snapshot.occurrences, ∀ item, asDisplayOccurrence raw = .ok item →
      Displayable dateutil inputs.zone item.span) :
    ∃ decision, evaluate dateutil zones call.subscription call.observation run.state = .ok decision := by
  obtain ⟨hcomplete, hread⟩ := accepted_cases hripe.accepted
  obtain ⟨baseline, hbaseline, -⟩ := hripe.begun
  obtain ⟨localNow, hnow⟩ : ∃ w, toZone inputs.zone call.observation.collectedAt = .ok w := by
    have hmoment := hripe.moment
    unfold moment at hmoment
    simp only [bind_eq_ok] at hmoment
    obtain ⟨w, hw, -⟩ := hmoment
    exact ⟨w, hw⟩
  obtain ⟨document, hdocument⟩ := buildCalendarDocument_returns inputs.settings.timezone hripe.covering hnow hfetched
    hshown
  have hready := (hr.ready_iff hzones hallowed hripe.accepted hripe.moment hbaseline).mpr hripe
  have hsame := hr.same_of_baseline hallowed hripe.accepted hbaseline
  obtain ⟨baseline', hprior, hbase⟩ := hr.baseline_of_same hsame
  rw [hbaseline] at hbase
  cases hbase
  refine ⟨emit call.subscription.revision inputs run.prior baseline m.today document, ?_⟩
  unfold evaluate
  dsimp only
  rw [if_neg (not_not.mpr hcomplete), hread]
  dsimp only [evaluateInputs]
  rw [hripe.moment]
  dsimp only
  rw [show run.state.getD .empty = run.prior from rfl, if_pos hsame, hprior]
  exact evaluateSchedule_ready hready hdocument

/-- In runs that hand on the returned state, each local date is emitted at most once and only when due, and once
when an accepted and covering evaluation follows its due instant. -/
theorem one_summary_per_local_date (hzones : ∀ name zone, zones name = some zone → ZoneInfoBounded zone)
    {run : SummaryRun} (h : (summarySystem zones dateutil).Reachable run) :
    (emittedDates run.log).Nodup ∧
    (∀ pre e post, run.log = pre ++ e :: post → e.decision.triggered = true → ∃ inputs today,
      e.emitted = some today ∧ e.decision.eventKey = some ("ff14.calendar.daily." ++ today.isoformat) ∧
      Founded zones dateutil pre e inputs today) ∧ ∀ call inputs m, (summarySystem zones dateutil).allowed run call →
      Ripe zones dateutil run.log call inputs m →
      (∀ decision, evaluate dateutil zones call.subscription call.observation run.state = .ok decision →
        decision.triggered = true ∧ decision.displayData.map (fun document => document.localDate) = some m.today) ∧
      ((∀ t ∈ inputs.snapshot.sourceFetchedAt, ∃ w, toZone inputs.zone t.instant = .ok w) →
        (∀ raw ∈ inputs.snapshot.occurrences, ∀ item, asDisplayOccurrence raw = .ok item →
          Displayable dateutil inputs.zone item.span) →
        ∃ decision, evaluate dateutil zones call.subscription call.observation run.state = .ok decision) := by
  have haccounted := accounted hzones h
  refine ⟨haccounted.recorded.nodup, ?_, ?_⟩
  · intro pre e post hlog htriggered
    cases haccounted.each pre e post hlog with
    | inl hkept =>
      rw [hkept.quiet] at htriggered
      cases htriggered
    | inr hemitted =>
      obtain ⟨inputs, m, hemitted⟩ := hemitted
      exact ⟨inputs, m.today, hemitted.emitted, hemitted.eventKey, hemitted.founded⟩
  · intro call inputs m hallowed hripe
    refine ⟨?_, fun hfetched hshown => ripe_returns hzones haccounted.recorded hallowed hripe hfetched hshown⟩
    intro decision hdecision
    obtain ⟨-, hdid⟩ := evaluation_step (e := ⟨call.subscription, call.observation, decision⟩) hzones
      haccounted.recorded hallowed hdecision
    cases hdid with
    | inl hkept => exact absurd hripe (hkept.unripe inputs m)
    | inr hemitted =>
      obtain ⟨inputs', m', hemitted⟩ := hemitted
      obtain ⟨rfl, rfl⟩ := ripe_unique hripe.accepted hripe.moment hemitted.ripe
      refine ⟨hemitted.triggered, ?_⟩
      have hdate := hemitted.emitted
      unfold Evaluation.emitted at hdate
      rwa [if_pos hemitted.triggered] at hdate

end

/-! A schedule in UTC, due at eight. -/

namespace Sample

@[reducible]
def hashing : Hashing :=
  ⟨fun text => if text = "cn\x00UTC\x0008:00" then "cb77d617ee4545b6debff1488ed2e9101c6888b8f1239a2f5775bf07d2684752" else ""⟩

attribute [local instance] hashing

def utc : ZoneInfo := ⟨fun _ => 0, fun _ _ => 0⟩

def zones (name : String) : Option ZoneInfo := if name = "UTC" then some utc else none

def dateutil : Dateutil where
  datetimeExists zone wall := .ok (occurrence zone wall false).isSome
  resolveImaginary _ wall := .ok wall

def subscription : SubscriptionView :=
  ⟨1, .obj [("kind", .str "daily_summary"), ("region", .str "cn"), ("timezone", .str "UTC"), ("time", .str "08:00")]⟩

def key : CollectionKey :=
  ⟨"yomihime/ff14", "ff14.calendar.collect", 1, "ff14_calendar_primary", .obj [("region", .str "cn")],
    ⟨.public, none, none⟩⟩

def firstDate : LocalDate := ⟨19783, by decide +kernel⟩

def clock (dayOffset hour : ℤ) : Instant := (19783 + dayOffset) * day + hour * 60 * minute

def payload : CalendarPayload where
  schemaVersion := some 1
  region := some "cn"
  completeness := some "complete"
  sourceId := some "ff14_calendar_primary"
  sourceVariant := some "cn_google"
  sourceUrl := some "https://calendar.google.com/calendar/ical/up88drvlnnh2t77hbpqq8v33i2cngfh7%40import.calendar.google.com/public/basic.ics"
  sourceVersion := some "e3b0c44298fc1c149afbf4c8996fb92427ae41e4649b934ca495991b7852b855"
  occurrences := some []
  windowStart := .aware ⟨clock (-1) 0, 0⟩
  windowEnd := .aware ⟨clock 31 0, 0⟩
  sourceFetchedAt := none

def observation (collectedAt : Instant) : CalendarObservation := ⟨key, 1, collectedAt, .complete, payload⟩

def opening : SummaryRun :=
  (summarySystem zones dateutil).next ⟨none, []⟩ ⟨subscription, observation (clock 0 7)⟩

theorem bounded : ∀ name zone, zones name = some zone → ZoneInfoBounded zone := by
  intro name zone h
  unfold zones at h
  split at h
  · cases h
    intro t
    change -day < 0 ∧ 0 < day
    decide
  · cases h

theorem reachable_opening : (summarySystem zones dateutil).Reachable opening := by
  apply (System.Reachable.of_start (S := summarySystem zones dateutil) rfl).next
  intro e he
  cases he

def morning : SummaryRun := (summarySystem zones dateutil).next opening ⟨subscription, observation (clock 0 9)⟩

theorem reachable_morning : (summarySystem zones dateutil).Reachable morning :=
  reachable_opening.next _ (by decide +kernel)

def nextMorning : SummaryCall := ⟨subscription, observation (clock 1 7)⟩

end Sample

attribute [local instance] Sample.hashing

open Sample in
theorem one_summary_per_local_date_first_morning :
    emittedDates morning.log = [firstDate] ∧ (emittedDates morning.log).Nodup :=
  ⟨by decide +kernel, (one_summary_per_local_date bounded reachable_morning).1⟩

open Sample in
/-- The first evaluation after a missed date covers it and emits nothing. -/
theorem next_morning_emits_nothing :
    (summarySystem zones dateutil).Reachable opening ∧ (summarySystem zones dateutil).allowed opening nextMorning ∧
    baselineOf zones dateutil opening.log nextMorning.subscription.revision = some firstDate ∧
    firstDate ∉ emittedDates opening.log ∧ localDueInstant dateutil firstDate 480 utc = .ok (clock 0 8) ∧
    (∀ e ∈ opening.log, e.observation.collectedAt < clock 0 8) ∧ clock 0 8 ≤ nextMorning.observation.collectedAt ∧
    ((accepted zones nextMorning.subscription nextMorning.observation).any fun inputs =>
      (coversWindow dateutil inputs.zone inputs.snapshot firstDate).toOption = some true) = true ∧
    (evaluate dateutil zones nextMorning.subscription nextMorning.observation opening.state).toOption.map
      (fun decision => decision.triggered) = some false := by
  refine ⟨reachable_opening, ?_, ?_, ?_, rfl, ?_, ?_, ?_, ?_⟩
  all_goals decide +kernel

end GameLink.Ff14

import GameLink.Digest.Calendar
import GameLink.Digest.Windows
import GameLink.Foundation.Runs

namespace GameLink.Digest

open Foundation Work Contracts Store


variable [Hashing]

def windowIdentity (profile : DigestScheduleProfile) (recipient : ConversationRef) (d : LocalDate) : Json :=
  .obj [("profile", .obj [("timezone", .str profile.timezoneName), ("time", .str profile.localTime),
       ("duration", .int profile.windowDurationSeconds), ("fold", .str profile.foldPolicy.value),
       ("gap", .str profile.gapPolicy.value), ("revision", .int profile.policyRevision)]),
    ("recipient", .arr [.str recipient.adapterId, .str recipient.kind.value, .str recipient.conversationId,
      .str recipient.deliveryRoute]), ("local_date", .str d.isoformat)]

def digestWindowId (profile : DigestScheduleProfile) (recipient : ConversationRef) (d : LocalDate) : String :=
  "digest:v1:" ++ Hashing.sha256 (windowIdentity profile recipient d).dumpsAscii

def windowAt (profile : DigestScheduleProfile) (recipient : ConversationRef) (d : LocalDate) (due : Instant) :
    DigestWindow where
  windowId := digestWindowId profile recipient d
  timezoneName := profile.timezoneName
  localScheduleKey := d.isoformat
  utcStart := due - profile.windowDurationSeconds * second
  utcEnd := due
  dueAt := due
  foldPolicy := profile.foldPolicy
  gapPolicy := profile.gapPolicy
  policyRevision := profile.policyRevision
  scheduleProfile := some profile
  scheduleRecipient := some recipient

def spanWindows (zones : String → ZoneInfo) (profile : DigestScheduleProfile) (recipient : ConversationRef)
    (dates : List LocalDate) : List DigestWindow :=
  dates.filterMap fun d => (boundary zones profile d).map (windowAt profile recipient d)

def activeSchedule (record : SubscriptionRecord) : Except Failure DigestScheduleProfile :=
  match record.digestSchedule with
  | some profile =>
    if record.status ≠ .active ∨ record.notificationMode ≠ "digest" then
      .error (.candidateRejected "subscription is not an active digest schedule")
    else .ok profile
  | none => .error (.candidateRejected "subscription is not an active digest schedule")

def digestWindowForDate (zones : String → ZoneInfo) (record : SubscriptionRecord) (d : LocalDate) :
    Except Failure (Option DigestWindow) := do
  let profile ← activeSchedule record
  let due ← resolveLocalBoundary zones d profile
  pure (due.map (windowAt profile record.recipient d))

/-- `SQLiteDigestWindowRepository.create`: a window that is stored already has to be the same. -/
def createWindow (window : DigestWindow) : StoreWork Unit := do
  let s ← read
  match s.windows.get window.windowId with
  | some row => raiseIf (row.window ≠ window) .uniqueConstraintViolation
  | none =>
    write fun s => { s with windows := (s.windows.insert ⟨window.windowId, window.dueAt, window⟩).getD s.windows }

/-! `create_digest_windows_page`. `current` is the answer of `_current_digest_record` for a candidate, first and then
again at the write of each date's window. -/

variable (zones : String → ZoneInfo) (current : SubscriptionRecord → Option LocalDate → Option SubscriptionRecord)

def createForDates (candidate record : SubscriptionRecord) : List LocalDate → StoreWork Unit
  | [] => pure ()
  | d :: rest => do
    let profile ← orRaise record.digestSchedule (.candidateRejected "subscription has no digest schedule")
    let s ← read
    if (s.windows.get (digestWindowId profile record.recipient d)).isSome then createForDates candidate record rest
    else do
      let window ← ofExcept (digestWindowForDate zones record d)
      match window with
      | none => createForDates candidate record rest
      | some window =>
        -- The authority of the candidate is checked again at the write; a change ends its page.
        if current candidate (some d) ≠ some record then pure ()
        else do
          createWindow window
          createForDates candidate record rest

def currentDates (record : SubscriptionRecord) (now : Instant) (lookback : ℕ) : Except Failure (List LocalDate) :=
  match record.digestSchedule with
  | none => .error .typeError
  | some profile =>
    let today := (now + (zones profile.timezoneName).utcOffset now) / day
    ((List.range (lookback + 2)).map fun i => today + (i - lookback)).mapM LocalDate.ofOrdinal

def createForCandidate (now : Instant) (lookback : ℕ) (localDates : Option (List LocalDate))
    (candidate : SubscriptionRecord) : StoreWork Unit :=
  match current candidate none with
  | none => pure ()
  | some record => do
    let dates ← ofExcept (match localDates with
      | some dates => .ok dates
      | none => currentDates zones record now lookback)
    createForDates zones current candidate record dates

def passRejected : Failure → StoreWork Unit
  | .candidateRejected _ => pure ()
  | e => raise e

def createDigestWindowsPage (now : SubscriptionRecord → Instant) (lookback : ℕ) (localDates : Option (List LocalDate)) :
    List SubscriptionRecord → StoreWork Unit
  | [] => pure ()
  | candidate :: rest => do
    rescue (createForCandidate zones current (now candidate) lookback localDates candidate) passRejected
    createDigestWindowsPage now lookback localDates rest

/-! Every window of a schedule that is stored is the window of a local date. -/

def Scheduled (s : Database) : Prop :=
  ∀ row ∈ s.windows.rows, row.window.scheduleProfile ≠ none → ∃ profile recipient d b,
    resolveLocalBoundary zones d profile = .ok (some b) ∧ row.window = windowAt profile recipient d b

variable {zones current} {w : DigestWindow}

theorem digestWindowForDate_scheduled {record : SubscriptionRecord} {d : LocalDate}
    (h : digestWindowForDate zones record d = .ok (some w)) : ∃ profile recipient d b,
      resolveLocalBoundary zones d profile = .ok (some b) ∧ w = windowAt profile recipient d b := by
  simp only [digestWindowForDate, bind, Except.bind] at h
  split at h
  · cases h
  rename_i profile _
  cases hdue : resolveLocalBoundary zones d profile with
  | error e =>
    rw [hdue] at h
    cases h
  | ok due =>
    rw [hdue] at h
    obtain ⟨b, rfl, hw⟩ := Option.map_eq_some_iff.mp (Except.ok.inj h)
    exact ⟨profile, record.recipient, d, b, hdue, hw.symm⟩

theorem createWindow_keeps (hw : ∃ profile recipient d b,
    resolveLocalBoundary zones d profile = .ok (some b) ∧ w = windowAt profile recipient d b) :
    Keeps (Scheduled zones) (createWindow w) := by
  refine .bind .read fun s => ?_
  split
  · exact .raiseIf
  refine .write fun s hs row hrow hschedule => ?_
  dsimp only at hrow
  cases hinsert : s.windows.insert ⟨w.windowId, w.dueAt, w⟩ with
  | none =>
    rw [hinsert] at hrow
    exact hs row hrow hschedule
  | some t =>
    rw [hinsert, Option.getD_some, Table.rows_of_insert hinsert] at hrow
    rcases List.mem_append.mp hrow with hrow | hrow
    · exact hs row hrow hschedule
    · rw [List.mem_singleton.mp hrow]
      exact hw

theorem createForDates_keeps (candidate record : SubscriptionRecord) (dates : List LocalDate) :
    Keeps (Scheduled zones) (createForDates zones current candidate record dates) := by
  induction dates with
  | nil => exact .pure
  | cons d rest ih =>
    refine .bind .orRaise fun profile => .bind .read fun s => ?_
    split
    · exact ih
    refine .bind_ofExcept fun window hwindow => ?_
    cases window with
    | none => exact ih
    | some w =>
      dsimp only
      split
      · exact .pure
      · exact .bind (createWindow_keeps (digestWindowForDate_scheduled hwindow)) fun _ => ih

theorem createForCandidate_keeps (now : Instant) (lookback : ℕ) (localDates : Option (List LocalDate))
    (candidate : SubscriptionRecord) :
    Keeps (Scheduled zones) (createForCandidate zones current now lookback localDates candidate) := by
  unfold createForCandidate
  split
  · exact .pure
  · exact .bind .ofExcept fun dates => createForDates_keeps candidate _ dates

theorem createDigestWindowsPage_keeps (now : SubscriptionRecord → Instant) (lookback : ℕ)
    (localDates : Option (List LocalDate)) (candidates : List SubscriptionRecord) :
    Keeps (Scheduled zones) (createDigestWindowsPage zones current now lookback localDates candidates) := by
  induction candidates with
  | nil => exact .pure
  | cons candidate rest ih =>
    refine .bind (.rescue (createForCandidate_keeps (now candidate) lookback localDates candidate) fun e => ?_) fun _ => ih
    cases e with
    | candidateRejected text => exact .pure
    | _ => exact .raise

/-! A page stores the window of each of its dates that is not stored yet. -/

variable {u : UnitOfWork Database Failure}

theorem createWindow_gives (hfree : u.store.windows.get w.windowId = none) :
    ∃ u', (createWindow w).Gives u () u' ∧ u'.store.windows.rows = u.store.windows.rows ++ [⟨w.windowId, w.dueAt, w⟩] := by
  cases hinsert : u.store.windows.insert ⟨w.windowId, w.dueAt, w⟩ with
  | none =>
    obtain ⟨row, hrow⟩ := Table.insert_eq_none.mp hinsert
    rw [hfree] at hrow
    cases hrow
  | some t =>
    refine ⟨{ u with store := { u.store with windows := t } }, ?_, Table.rows_of_insert hinsert⟩
    unfold createWindow
    simp only [gives_bind, gives_read]
    refine ⟨_, _, ⟨rfl, rfl⟩, ?_⟩
    rw [hfree]
    simp only [gives_write, hinsert, Option.getD_some]

variable {candidate record : SubscriptionRecord} {profile : DigestScheduleProfile}

theorem digestWindowForDate_eq (hschedule : activeSchedule record = .ok profile) {d : LocalDate} {due : Option Instant}
    (hdue : resolveLocalBoundary zones d profile = .ok due) :
    digestWindowForDate zones record d = .ok (due.map (windowAt profile record.recipient d)) := by
  simp only [digestWindowForDate, hschedule, hdue, bind, Except.bind, pure, Except.pure]

omit [Hashing] in
theorem digestSchedule_of_active (h : activeSchedule record = .ok profile) : record.digestSchedule = some profile := by
  unfold activeSchedule at h
  split at h
  · rename_i p hp
    split at h
    · cases h
    · rw [hp, Except.ok.inj h]
  · cases h

def windowRow (w : DigestWindow) : WindowRow := ⟨w.windowId, w.dueAt, w⟩

theorem createForDates_passed (hschedule : activeSchedule record = .ok profile) {d : LocalDate} {dates : List LocalDate}
    (hfree : u.store.windows.get (digestWindowId profile record.recipient d) = none)
    (h : ((ofExcept (digestWindowForDate zones record d) >>= fun window =>
      match window with
      | none => createForDates zones current candidate record dates
      | some window =>
        if current candidate (some d) ≠ some record then pure ()
        else createWindow window >>= fun _ => createForDates zones current candidate record dates) : StoreWork Unit).Gives
          u () u') : (createForDates zones current candidate record (d :: dates)).Gives u () u' := by
  simp only [createForDates, gives_bind, gives_orRaise, gives_read]
  refine ⟨profile, u, ⟨digestSchedule_of_active hschedule, rfl⟩, u.store, u, ⟨rfl, rfl⟩, ?_⟩
  rw [if_neg (by rw [hfree]; rintro ⟨⟩)]
  exact h

theorem createForDates_stores (hschedule : activeSchedule record = .ok profile)
    (hcurrent : ∀ d, current candidate (some d) = some record) {dates : List LocalDate}
    (hdue : ∀ d ∈ dates, ∃ due, resolveLocalBoundary zones d profile = .ok due)
    (hids : (dates.map (digestWindowId profile record.recipient)).Nodup)
    (hfree : ∀ d ∈ dates, u.store.windows.get (digestWindowId profile record.recipient d) = none) :
    ∃ u', (createForDates zones current candidate record dates).Gives u () u' ∧ u'.store.windows.rows =
      u.store.windows.rows ++ (spanWindows zones profile record.recipient dates).map windowRow := by
  induction dates generalizing u with
  | nil => exact ⟨u, gives_pure.mpr ⟨rfl, rfl⟩, (List.append_nil _).symm⟩
  | cons d rest ih =>
    obtain ⟨hnew, hids⟩ := List.nodup_cons.mp hids
    have hrest := fun e he => hdue e (List.mem_cons_of_mem d he)
    obtain ⟨due, hd⟩ := hdue d List.mem_cons_self
    have hfirst := hfree d List.mem_cons_self
    have hboundary : boundary zones profile d = due := by
      unfold boundary
      rw [hd]
    cases due with
    | none =>
      obtain ⟨u', hg, hrows⟩ := ih hrest hids fun e he => hfree e (List.mem_cons_of_mem d he)
      refine ⟨u', createForDates_passed hschedule hfirst (gives_bind.mpr ⟨none, u,
        gives_ofExcept.mpr ⟨digestWindowForDate_eq hschedule hd, rfl⟩, hg⟩), ?_⟩
      rw [hrows]
      unfold spanWindows
      rw [List.filterMap_cons_none (by rw [hboundary]; rfl)]
    | some due =>
      obtain ⟨v, hcreate, hcreated⟩ := createWindow_gives (w := windowAt profile record.recipient d due) hfirst
      have hfree' : ∀ e ∈ rest, v.store.windows.get (digestWindowId profile record.recipient e) = none := by
        intro e he
        rw [Table.get_eq_none, hcreated]
        intro row hrow
        rcases List.mem_append.mp hrow with hrow | hrow
        · exact Table.get_eq_none.mp (hfree e (List.mem_cons_of_mem d he)) row hrow
        · rw [List.mem_singleton.mp hrow]
          exact fun hsame => hnew (List.mem_map.mpr ⟨e, he, hsame.symm⟩)
      obtain ⟨u', hg, hrows⟩ := ih hrest hids hfree'
      refine ⟨u', createForDates_passed hschedule hfirst (gives_bind.mpr ⟨_, u,
        gives_ofExcept.mpr ⟨digestWindowForDate_eq hschedule hd, rfl⟩, ?_⟩), ?_⟩
      · simp only [Option.map_some, hcurrent, ne_eq, not_true, if_false, gives_bind]
        exact ⟨(), v, hcreate, hg⟩
      rw [hrows, hcreated, List.append_assoc]
      unfold spanWindows
      rw [List.filterMap_cons_some (by rw [hboundary]; rfl)]
      rfl

/-! The pages of a run, one after another. -/

inductive WindowAction where
  | page (current : SubscriptionRecord → Option LocalDate → Option SubscriptionRecord)
      (now : SubscriptionRecord → Instant) (lookback : ℕ) (localDates : Option (List LocalDate))
      (candidates : List SubscriptionRecord)
  /-- Any other writer: it stores no window of a schedule. -/
  | elsewhere (s : Database)

variable (zones)

def windowPages : System Database WindowAction where
  start s := ∀ row ∈ s.windows.rows, row.window.scheduleProfile = none
  allowed s
    | .page .. => True
    | .elsewhere t => ∀ row ∈ t.windows.rows, row.window.scheduleProfile ≠ none → row ∈ s.windows.rows
  next s
    | .page current now lookback localDates candidates =>
      (createDigestWindowsPage zones current now lookback localDates candidates ⟨s, []⟩).2.store
    | .elsewhere t => t

variable {zones}

theorem windowPages_scheduled {s : Database} (h : (windowPages zones).Reachable s) : Scheduled zones s := by
  refine System.Reachable.invariant (S := windowPages zones) ?_ (fun s a hs ha => ?_) h
  · exact fun s hs row hrow hschedule => absurd (hs row hrow) hschedule
  cases a with
  | page current now lookback localDates candidates =>
    exact createDigestWindowsPage_keeps now lookback localDates candidates ⟨s, []⟩ hs
  | elsewhere t => exact fun row hrow hschedule => hs row (ha row hrow hschedule) hschedule

end GameLink.Digest

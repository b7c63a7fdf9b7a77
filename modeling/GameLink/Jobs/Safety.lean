import GameLink.Jobs.History

namespace GameLink.Jobs

open Foundation Work

structure Kept (limits : Limits) (h h' : JobHistory) : Prop where
  sound : Sound limits h'.store
  accounted : Accounted h'
  advances : Advances h.store h'.store

variable {sha256 : String → String} {limits : Limits} {h : JobHistory} {s : JobStore}

theorem Edited.kept {p : DurableJob → Bool} {f : DurableJob → DurableJob} (he : Edited p f h.store s)
    (hs : Sound limits h.store) (ha : Accounted h)
    (hp : ∀ r ∈ h.store.jobs.rows, p r = true → TokenAgrees r → Settles r (f r))
    (hrev : ∀ r, (f r).revision = r.revision + 1) (hbytes : ∀ r, (f r).resultBytes = r.resultBytes) :
    Kept limits h ⟨s, h.accounted⟩ :=
  ⟨he.sound hs hp, he.accounted hbytes ha, he.advances hrev⟩

theorem active_of_queued {r : DurableJob} (h : r.status = .queued) : r.active = true := by
  simp [DurableJob.active, JobStatus.active, h]

theorem recover_kept {now : String} (hs : Sound limits h.store) (ha : Accounted h) {gs}
    (hg : (recover now).Gives ⟨h.store, []⟩ () ⟨s, gs⟩) : Kept limits h ⟨s, h.accounted⟩ := by
  refine (recover_gives hg).kept hs ha ?_ (fun _ => rfl) (fun _ => rfl)
  intro r _ _ _
  exact ⟨rfl, by simp [DurableJob.active, JobStatus.active], rfl, fun _ => by simp [TokenAgrees]⟩

theorem rejectQueued_kept {jobId code now : String} (hs : Sound limits h.store) (ha : Accounted h) {gs}
    (hg : (rejectQueued jobId code now).Gives ⟨h.store, []⟩ () ⟨s, gs⟩) : Kept limits h ⟨s, h.accounted⟩ := by
  refine (rejectQueued_gives hg).kept hs ha ?_ (fun _ => rfl) (fun _ => rfl)
  intro r _ hp ht
  have hq : r.status = .queued := of_decide_eq_true (Bool.and_eq_true_iff.mp hp).2
  refine ⟨rfl, by simp [DurableJob.active, JobStatus.active], rfl, fun _ => ?_⟩
  simpa [TokenAgrees, hq] using ht

variable {jobId token now : String} {check : Check}

theorem claim_kept {revision : ℕ} {x : Option DurableJob} (hs : Sound limits h.store) (ha : Accounted h) {gs}
    (hg : (claim jobId revision token now check).Gives ⟨h.store, []⟩ x ⟨s, gs⟩) :
    Kept limits h ⟨s, h.accounted⟩ := by
  refine (claim_gives hg).1.kept hs ha ?_ (fun _ => rfl) (fun _ => rfl)
  intro r _ hp _
  have hq : r.status = .queued := by
    simp only [claimable, Bool.and_eq_true, decide_eq_true_eq] at hp
    exact hp.1.1.2
  exact ⟨rfl, fun _ => active_of_queued hq, rfl, fun _ => by simp [TokenAgrees]⟩

theorem update_kept {progress : Json} {checkpoint : Option Json} (hs : Sound limits h.store) (ha : Accounted h) {gs}
    (hg : (update jobId token progress checkpoint now check).Gives ⟨h.store, []⟩ () ⟨s, gs⟩) :
    Kept limits h ⟨s, h.accounted⟩ := by
  obtain ⟨-, newProgress, newCheckpoint, he⟩ := update_gives hg
  refine he.kept hs ha ?_ (fun _ => rfl) (fun _ => rfl)
  intro r _ _ _
  exact ⟨rfl, id, rfl, id⟩

theorem finish_kept {status : JobStatus} {summary : Json} {error : Option String}
    {check : Option Check} (hs : Sound limits h.store) (ha : Accounted h)
    (hstatus : status ∈ [.succeeded, .failed, .interrupted]) {gs}
    (hg : (finish jobId token status summary error now check).Gives ⟨h.store, []⟩ () ⟨s, gs⟩) :
    Kept limits h ⟨s, h.accounted⟩ := by
  obtain ⟨newSummary, he⟩ := finish_gives hg
  refine he.kept hs ha ?_ (fun _ => rfl) (fun _ => rfl)
  intro r _ _ _
  simp only [List.mem_cons, List.not_mem_nil, or_false] at hstatus
  rcases hstatus with rfl | rfl | rfl
  all_goals
    exact ⟨rfl, by simp [DurableJob.active, JobStatus.active], rfl, fun _ => by simp [TokenAgrees]⟩

theorem publish_kept {entries : List Json} {limit : ℤ} (hs : Sound limits h.store) (ha : Accounted h) {gs}
    (hg : (publish jobId token entries now check limit).Gives ⟨h.store, []⟩ () ⟨s, gs⟩) :
    Kept limits h ⟨s, Function.update h.accounted jobId
      (h.accounted jobId ++ [JobAction.publishedSize entries])⟩ := by
  obtain ⟨-, encoded, size, progress, results, hpub, hrows, he⟩ := publish_gives hg
  refine ⟨he.sound (hs.published hrows) fun r _ _ _ => ⟨rfl, id, rfl, id⟩, ?_, ?_⟩
  · intro id row' hrow'
    rw [he.get] at hrow'
    obtain ⟨row, hrow, rfl⟩ := Option.map_eq_some_iff.mp hrow'
    have hold := ha id row hrow
    have hkey : row.jobId = id := Table.key_of_get hrow
    have hsize : JobAction.publishedSize entries = size := by simp [JobAction.publishedSize, hpub]
    by_cases hid : id = jobId
    · subst hid
      simp [hkey, hold, hsize]
    dsimp only
    rw [hkey, Function.update_of_ne hid]
    simpa [hid] using hold
  · exact he.advances fun _ => rfl

theorem account_submit_of_some (q : Submission) (freshId : String) (check : Check) {id : String} {row : DurableJob}
    (hrow : h.store.jobs.get id = some row) :
    (JobAction.submit q freshId check).account h id = h.accounted id := by
  simp only [JobAction.account]
  split
  · rename_i hfresh
    have hne : id ≠ freshId := by
      rintro rfl
      cases hfresh.symm.trans hrow
    rw [Function.update_of_ne hne]
  · rfl

theorem submit_kept {q : Submission} {freshId : String} {x : DurableJob}
    (hs : Sound limits h.store) (ha : Accounted h) (hq : q.maxQueued ≤ limits.maxQueued)
    (hm : q.maxActive ≤ limits.maxActive q.module q.handler) {gs}
    (hg : (submit sha256 q freshId check).Gives ⟨h.store, []⟩ x ⟨s, gs⟩) :
    Kept limits h ⟨s, (JobAction.submit q freshId check).account h⟩ := by
  obtain ⟨t, ht, requests, rfl⟩ := submit_gives hg
  dsimp only at ht
  rcases ht with rfl | hc
  · refine ⟨hs.requests requests, ?_, advances_of_get_eq fun id row row' hr hr' => ?_⟩
    · intro id row hrow
      have hold : h.store.jobs.get id = some row := hrow
      exact (ha id row hold).trans (congrArg List.sum (account_submit_of_some q freshId check hold).symm)
    · exact Option.some.inj (hr'.symm.trans hr)
  have hsound := (hc.sound hs hq hm).requests requests
  obtain ⟨raw, digest, jobs, -, -, hi, -, rfl⟩ := hc
  have hfresh : h.store.jobs.get freshId = none := Table.get_of_insert hi
  refine ⟨hsound, ?_, advances_of_get_eq fun id row row' hr hr' => ?_⟩
  · intro id row hrow
    rw [Table.get_insert hi] at hrow
    split at hrow
    · rename_i hid
      obtain rfl : freshId = id := hid
      obtain rfl := Option.some.inj hrow
      simp [JobAction.account, hfresh, Submission.newJob]
    · exact (ha id row hrow).trans (congrArg List.sum (account_submit_of_some q freshId check hrow).symm)
  · have hne : freshId ≠ id := by
      rintro rfl
      rw [hfresh] at hr
      cases hr
    have hkey : (q.newJob raw digest freshId).jobId ≠ id := hne
    rw [Table.get_insert hi, if_neg hkey] at hr'
    exact Option.some.inj (hr'.symm.trans hr)

theorem change_kept {c : Change} {x : DurableJob} (hs : Sound limits h.store) (ha : Accounted h)
    (hq : c.maxQueued ≤ limits.maxQueued)
    (hm : ∀ row, h.store.jobs.get c.jobId = some row → c.maxActive ≤ limits.maxActive row.moduleId row.handlerId)
    {gs} (hg : (change c check).Gives ⟨h.store, []⟩ x ⟨s, gs⟩) :
    Kept limits h ⟨s, (JobAction.change c check).account h⟩ := by
  rcases change_gives hg with ⟨hretry, hr⟩ | ⟨hretry, hc⟩ | ⟨hretry, rfl⟩
  · have hsound := hr.sound hs hq hm
    obtain ⟨row, -, -, -, -, -, he⟩ := hr
    refine ⟨hsound, ?_, he.advances fun _ => rfl⟩
    intro id row' hrow'
    rw [he.get] at hrow'
    obtain ⟨r, hrow, rfl⟩ := Option.map_eq_some_iff.mp hrow'
    have hkey : r.jobId = id := Table.key_of_get hrow
    rw [JobAction.account, if_pos hretry]
    by_cases hid : id = c.jobId
    · subst hid
      simp [hkey]
    dsimp only
    rw [Function.update_of_ne hid, hkey]
    simpa [hid] using ha id r hrow
  · obtain ⟨row, -, -, he⟩ := hc
    rw [JobAction.account, if_neg (by simp [hretry])]
    refine he.kept hs ha ?_ (fun _ => rfl) (fun _ => rfl)
    intro r _ _ _
    exact ⟨rfl, by simp [DurableJob.active, JobStatus.active], rfl, fun _ => by simp [TokenAgrees]⟩
  · rw [JobAction.account, if_neg (by simp [hretry])]
    exact ⟨hs, ha, advances_of_get_eq fun id row row' hr hr' => Option.some.inj (hr'.symm.trans hr)⟩

theorem expire_kept {now : String} {n : ℕ} (hs : Sound limits h.store) (ha : Accounted h) {gs}
    (hg : (expire now).Gives ⟨h.store, []⟩ n ⟨s, gs⟩) : Kept limits h ⟨s, h.accounted⟩ := by
  obtain ⟨p, requests, hs'⟩ := expire_gives hg
  dsimp only at hs'
  subst hs'
  have hold : ∀ id row, (h.store.jobs.delete p).get id = some row → h.store.jobs.get id = some row := by
    intro id row hrow
    rw [Table.get_delete] at hrow
    exact (Option.filter_eq_some_iff.mp hrow).1
  refine ⟨((hs.deleteJobs p).deleteResults fun id => decide (id ∈ (h.store.jobs.rows.filter p).map DurableJob.jobId)).requests requests, ?_, ?_⟩
  · exact fun id row hrow => ha id row (hold id row hrow)
  · refine advances_of_get_eq fun id row row' hr hr' => ?_
    exact Option.some.inj ((hold id row' hr').symm.trans hr)

theorem run_kept {a : JobAction} {x : Unit} (hs : Sound limits h.store) (ha : Accounted h)
    (hp : a.promised limits h) (ho : a.run sha256 h.store = (.ok x, s)) : Kept limits h ⟨s, a.account h⟩ := by
  obtain ⟨gs, hg, -⟩ := transaction_ok.mp ho
  cases a with
  | recover now => exact recover_kept hs ha hg
  | submit q freshId check =>
    simp only [JobAction.body, gives_bind, gives_pure] at hg
    obtain ⟨row, _, hg, -, rfl⟩ := hg
    exact submit_kept hs ha hp.1 hp.2 hg
  | rejectQueued jobId code now => exact rejectQueued_kept hs ha hg
  | claim jobId revision token now check =>
    simp only [JobAction.body, gives_bind, gives_pure] at hg
    obtain ⟨row, _, hg, -, rfl⟩ := hg
    exact claim_kept hs ha hg
  | update jobId token progress checkpoint now check => exact update_kept hs ha hg
  | publish jobId token entries now check maxResultBytes => exact publish_kept hs ha hg
  | finish jobId token status summary error now check => exact finish_kept hs ha hp hg
  | change c check =>
    simp only [JobAction.body, gives_bind, gives_pure] at hg
    obtain ⟨row, _, hg, -, rfl⟩ := hg
    exact change_kept hs ha hp.1 hp.2 hg
  | expire now =>
    simp only [JobAction.body, gives_bind, gives_pure] at hg
    obtain ⟨n, _, hg, -, rfl⟩ := hg
    exact expire_kept hs ha hg
  | provision principal =>
    simp only [JobAction.body, gives_write, UnitOfWork.mk.injEq] at hg
    obtain ⟨rfl, -⟩ := hg
    refine ⟨⟨hs.activeInputs, hs.queued, hs.handlers, hs.tokens, hs.sequences⟩, ha, ?_⟩
    exact advances_of_get_eq fun id row row' hr hr' => Option.some.inj (hr'.symm.trans hr)

theorem reachable_sound (hr : (jobSystem sha256 limits).Reachable h) : Sound limits h.store ∧ Accounted h := by
  refine hr.invariant (P := fun h => Sound limits h.store ∧ Accounted h) ?_ ?_
  · rintro h ⟨hjobs, -, hresults⟩
    refine ⟨⟨?_, ?_, ?_, ?_, ?_⟩, ?_⟩
    · rw [hjobs]
      exact List.nodup_nil
    · rw [JobStore.activeCount, hjobs]
      exact Nat.zero_le _
    · intro owner module handler
      rw [JobStore.handlerActive, hjobs]
      exact Nat.zero_le _
    · intro r hr
      rw [hjobs] at hr
      cases hr
    · intro jobId
      simp [JobStore.sequences, JobStore.resultCount, Table.matching, hresults, Table.empty]
    · intro jobId row hrow
      rw [hjobs] at hrow
      cases hrow
  · rintro h a ⟨hs, ha⟩ hp
    change Sound limits (h.next sha256 a).store ∧ Accounted (h.next sha256 a)
    rcases transaction_cases (a.body sha256) h.store with ⟨x, s, ho⟩ | ⟨e, he⟩
    · rw [next_of_ok ho]
      have hk := run_kept hs ha hp ho
      exact ⟨hk.sound, hk.accounted⟩
    · rw [next_of_error he]
      exact ⟨hs, ha⟩

structure DurableJobInvariant (sha256 : String → String) (limits : Limits) (h : JobHistory) : Prop where
  oneActiveInput : ∀ r ∈ h.store.jobs.rows, ∀ r' ∈ h.store.jobs.rows, r.active = true → r'.active = true →
    r.activeInput = r'.activeInput → r = r'
  queued : h.store.activeCount ≤ limits.maxQueued
  handlers : ∀ owner module handler, h.store.handlerActive owner module handler ≤ limits.maxActive module handler
  tokens : ∀ r ∈ h.store.jobs.rows, r.runToken.isSome = true ↔ r.status = .running
  sequences : ∀ jobId, h.store.sequences jobId = List.range (h.store.resultCount jobId)
  resultBytes : ∀ jobId row, h.store.jobs.get jobId = some row → row.resultBytes = (h.accounted jobId).sum
  revisions : ∀ a : JobAction, a.promised limits h → ∀ jobId row row', h.store.jobs.get jobId = some row →
    (h.next sha256 a).store.jobs.get jobId = some row' → row' = row ∨ row.revision < row'.revision
  raises : ∀ (a : JobAction) e s, a.run sha256 h.store = (.error e, s) → s = h.store

theorem durable_jobs_invariant (hr : (jobSystem sha256 limits).Reachable h) :
    DurableJobInvariant sha256 limits h := by
  obtain ⟨hs, ha⟩ := reachable_sound hr
  refine ⟨?_, hs.queued, hs.handlers, hs.tokens, hs.sequences, ha, ?_, fun a e s he => transaction_error he⟩
  · intro r hr r' hr' hact hact' hinput
    exact List.inj_on_of_nodup_map hs.activeInputs (List.mem_filter.mpr ⟨hr, hact⟩)
      (List.mem_filter.mpr ⟨hr', hact'⟩) hinput
  intro a hp
  rcases transaction_cases (a.body sha256) h.store with ⟨x, s, ho⟩ | ⟨e, he⟩
  · rw [next_of_ok ho]
    exact (run_kept hs ha hp ho).advances
  · rw [next_of_error he]
    exact fun jobId row row' hrow hrow' => .inl (Option.some.inj (hrow'.symm.trans hrow))

def openCheck : Check := ⟨.ok (), none⟩

def oneSubmission : Submission where
  owner := "p"
  module := "m"
  handler := "h"
  declarationDigest := "d"
  parameters := .obj [("a", .int 1)]
  requestKey := some "k"
  now := "2024-01-01T00:00:00+00:00"
  expiresAt := "2024-01-08T00:00:00+00:00"
  maxActive := 1
  maxQueued := 2

def oneDigest (_ : String) : String := "1dbe2ccab81e165af38fb9c6476a68797f7aa818df962ffe8c2874fec5cd5c75"

def oneRun : JobHistory :=
  (((JobHistory.next oneDigest ⟨⟨["p"], .empty, .empty, .empty⟩, fun _ => []⟩
    (.submit oneSubmission "j" openCheck)).next oneDigest
    (.claim "j" 1 "t" "2024-01-02T00:00:00+00:00" openCheck)).next oneDigest
    (.publish "j" "t" [.obj [("x", .int 5)], .obj []] "2024-01-03T00:00:00+00:00" openCheck 1000))

theorem durable_jobs_invariant_one_run :
    oneRun.store.activeCount = 1 ∧ oneRun.store.sequences "j" = [0, 1] ∧ oneRun.accounted "j" = [9] ∧
      DurableJobInvariant oneDigest ⟨2, fun _ _ => 1⟩ oneRun := by
  refine ⟨by decide, by decide, by decide, durable_jobs_invariant ?_⟩
  have hstart : (jobSystem oneDigest ⟨2, fun _ _ => 1⟩).Reachable
      ⟨⟨["p"], .empty, .empty, .empty⟩, fun _ => []⟩ := .of_start ⟨rfl, rfl, rfl⟩
  have hsubmit := hstart.next (.submit oneSubmission "j" openCheck) ⟨le_rfl, le_rfl⟩
  have hclaim := hsubmit.next (.claim "j" 1 "t" "2024-01-02T00:00:00+00:00" openCheck) trivial
  refine hclaim.next
    (.publish "j" "t" [.obj [("x", .int 5)], .obj []] "2024-01-03T00:00:00+00:00" openCheck 1000) ?_
  intro entry he resource text hr
  simp only [List.mem_cons, List.not_mem_nil, or_false] at he
  rcases he with rfl | rfl
  · cases hr
  · cases hr

end GameLink.Jobs

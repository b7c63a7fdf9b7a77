import GameLink.Jobs.Repository

namespace GameLink.Jobs

open Foundation Work

variable {u u' : UnitOfWork JobStore JobFailure}

variable {x : Unit} {r : DurableJob}

theorem insertJob_gives : (insertJob r).Gives u x u' ↔
    r.checks = true ∧ r.ownerId ∈ u.store.principals ∧ ∃ jobs, u.store.jobs.insert r = some jobs ∧
      (activeInputs jobs.rows).Nodup ∧ u' = { u with store := { u.store with jobs := jobs } } := by
  simp [insertJob, and_assoc]

theorem updateJobs_gives {p : DurableJob → Bool} {f : DurableJob → DurableJob} {hf : ∀ r, (f r).jobId = r.jobId}
    {n : ℕ} : (updateJobs p f hf).Gives u n u' ↔ (u.store.jobs.update p f hf).rows.all DurableJob.checks = true ∧
      (activeInputs (u.store.jobs.update p f hf).rows).Nodup ∧ n = u.store.jobs.matching p ∧
        u' = { u with store := { u.store with jobs := u.store.jobs.update p f hf } } := by
  simp [updateJobs, and_assoc, @eq_comm _ _ u']

theorem insertRequest_gives {r : JobRequestRow} : (insertRequest r).Gives u x u' ↔
    u.store.jobs.get r.jobId ≠ none ∧ ∃ requests, u.store.requests.insert r = some requests ∧
      u' = { u with store := { u.store with requests := requests } } := by
  simp [insertRequest]

theorem insertResult_gives {r : JobResultRow} : (insertResult r).Gives u x u' ↔
    u.store.jobs.get r.jobId ≠ none ∧ ∃ results, u.store.results.insert r = some results ∧
      u' = { u with store := { u.store with results := results } } := by
  simp [insertResult]

variable {row : DurableJob}

theorem owned_gives {owner module jobId : String} : (owned owner module jobId).Gives u row u' ↔
    (u.store.jobs.get jobId = some row ∧ row.ownerId = owner ∧ row.moduleId = module) ∧ u = u' := by
  simp [owned, Option.filter_eq_some_iff, and_assoc]

theorem running_gives {jobId token : String} : (running jobId token).Gives u row u' ↔
    (u.store.jobs.get jobId = some row ∧ row.status = .running ∧ row.runToken = some token) ∧ u = u' := by
  simp [running, Option.filter_eq_some_iff, and_assoc]

/-- The rows `p` selects are rewritten by `f`, under the unique index; nothing else is written. -/
def Edited (p : DurableJob → Bool) (f : DurableJob → DurableJob) (s s' : JobStore) : Prop :=
  ∃ hf : ∀ r, (f r).jobId = r.jobId,
    (activeInputs (s.jobs.update p f hf).rows).Nodup ∧ s' = { s with jobs := s.jobs.update p f hf }

theorem recover_gives {now : String} (h : (recover now).Gives u x u') : Edited (fun r => r.status = .running)
      (fun r => { r with
        status := .interrupted, revision := r.revision + 1, runToken := none,
        errorCode := some "process_interrupted", updatedAt := now }) u.store u'.store := by
  simp only [recover, gives_bind, updateJobs_gives, gives_pure] at h
  obtain ⟨n, v, ⟨-, hn, -, rfl⟩, -, rfl⟩ := h
  exact ⟨_, hn, rfl⟩

theorem rejectQueued_gives {jobId code now : String} (h : (rejectQueued jobId code now).Gives u x u') :
    Edited (fun r => r.jobId = jobId && r.status = .queued)
      (fun r => { r with
        status := .failed, errorCode := some code, revision := r.revision + 1, updatedAt := now })
      u.store u'.store := by
  simp only [rejectQueued, gives_bind, updateJobs_gives, gives_pure] at h
  obtain ⟨n, v, ⟨-, hn, -, rfl⟩, -, rfl⟩ := h
  exact ⟨_, hn, rfl⟩

def claimable (jobId : String) (revision : ℕ) (now : String) (r : DurableJob) : Bool :=
  r.jobId = jobId && r.status = .queued && r.revision = revision && now < r.expiresAt

variable {revision : ℕ} {jobId now : String}

theorem jobId_of_claimable
    (h : claimable jobId revision now r = true) : r.jobId = jobId := by
  simp only [claimable, Bool.and_eq_true, decide_eq_true_eq] at h
  exact h.1.1.1

theorem matching_claimable {s : JobStore} (hr : r ∈ s.jobs.rows)
    (h : claimable jobId revision now r = true) : s.jobs.matching (claimable jobId revision now) = 1 := by
  have hsplit : claimable jobId revision now = fun r =>
      decide (r.jobId = jobId) && (decide (r.status = .queued) && decide (r.revision = revision) &&
        decide (now < r.expiresAt)) := by
    funext r
    simp [claimable, Bool.and_assoc]
  have hkey := jobId_of_claimable h
  rw [hsplit] at h ⊢
  apply (s.jobs.matching_eq_one jobId _).mpr
  exact ⟨r, Table.get_eq_some.mpr ⟨hr, hkey⟩, (Bool.and_eq_true_iff.mp h).2⟩

variable {jobId token now : String} {check : Check}

theorem claim_gives {x : Option DurableJob} (h : (claim jobId revision token now check).Gives u x u') :
    Edited (claimable jobId revision now)
        (fun r => { r with
          status := .running, revision := r.revision + 1, runToken := some token, updatedAt := now })
        u.store u'.store ∧ ((x = none ∧ u.store.jobs.matching (claimable jobId revision now) ≠ 1) ∨
        (x = u'.store.jobs.get jobId ∧ u.store.jobs.matching (claimable jobId revision now) = 1)) := by
  simp only [claim, gives_bind, gives_ofExcept, updateJobs_gives, gives_ite, gives_pure, gives_read,
    gives_addCommitGuard] at h
  obtain ⟨_, _, ⟨-, rfl⟩, n, v, ⟨-, hn, hcount, rfl⟩, ⟨hne, rfl, rfl⟩ | ⟨hone, _, _, rfl, _, _, ⟨rfl, rfl⟩, rfl, rfl⟩⟩ := h
  · exact ⟨⟨_, hn, rfl⟩, .inl ⟨rfl, fun h => hne (hcount.trans h)⟩⟩
  · exact ⟨⟨_, hn, rfl⟩, .inr ⟨rfl, hcount.symm.trans (not_not.mp hone)⟩⟩

def Held (jobId token : String) (s : JobStore) : Prop :=
  ∃ row, s.jobs.get jobId = some row ∧ row.status = .running ∧ row.runToken = some token

theorem update_gives {progress : Json} {checkpoint : Option Json} (h : (update jobId token progress checkpoint now check).Gives u x u') :
    Held jobId token u.store ∧ ∃ newProgress newCheckpoint, Edited (fun r => r.jobId = jobId && r.runToken = some token)
      (fun r => { r with
        progress := newProgress, checkpoint := newCheckpoint, revision := r.revision + 1, updatedAt := now })
      u.store u'.store := by
  simp only [update, gives_bind, gives_ofExcept, updateJobs_gives, running_gives, gives_read,
    gives_addCommitGuard] at h
  obtain ⟨_, _, ⟨-, rfl⟩, _, _, ⟨-, rfl⟩, _, _, ⟨-, rfl⟩, row, _, ⟨hrow, rfl⟩, _, _, ⟨rfl, rfl⟩, _, _, ⟨-, rfl⟩,
    n, v, ⟨-, hn, -, rfl⟩, rfl⟩ := h
  exact ⟨⟨row, hrow⟩, _, _, _, hn, rfl⟩

theorem finish_gives {status : JobStatus} {summary : Json} {error : Option String}
    {check : Option Check} (h : (finish jobId token status summary error now check).Gives u x u') :
    ∃ newSummary, Edited (fun r => r.jobId = jobId && r.status = .running && r.runToken = some token)
      (fun r => { r with
        status := status, summary := newSummary, errorCode := error, runToken := none,
        revision := r.revision + 1, updatedAt := now }) u.store u'.store := by
  cases check with
  | none =>
    simp only [finish, callCheck, fenceCheck, gives_bind, gives_ofExcept, updateJobs_gives, gives_read,
      gives_pure] at h
    obtain ⟨_, _, ⟨-, rfl⟩, _, _, ⟨-, rfl⟩, _, _, ⟨rfl, rfl⟩, _, _, ⟨-, rfl⟩, n, v, ⟨-, hn, -, rfl⟩, -, rfl⟩ := h
    exact ⟨_, _, hn, rfl⟩
  | some check =>
    simp only [finish, callCheck, fenceCheck, gives_bind, gives_ofExcept, updateJobs_gives, gives_read,
      gives_addCommitGuard] at h
    obtain ⟨_, _, ⟨-, rfl⟩, _, _, ⟨-, rfl⟩, _, _, ⟨rfl, rfl⟩, _, _, ⟨-, rfl⟩, n, v, ⟨-, hn, -, rfl⟩, rfl⟩ := h
    exact ⟨_, _, hn, rfl⟩

theorem insertResults_gives {jobId : String} {sequence : ℕ} {encoded : List Json}
    (h : (insertResults jobId sequence encoded).Gives u x u') :
    ∃ results, u'.store = { u.store with results := results } ∧ results.rows = u.store.results.rows ++
        encoded.zipIdx.map fun e => ⟨jobId, sequence + e.2, e.1⟩ := by
  induction encoded generalizing u sequence with
  | nil =>
    simp only [insertResults, gives_pure] at h
    obtain ⟨-, rfl⟩ := h
    exact ⟨_, rfl, by simp⟩
  | cons raw rest ih =>
    simp only [insertResults, gives_bind, insertResult_gives] at h
    obtain ⟨_, v, ⟨-, results, hr, rfl⟩, h⟩ := h
    obtain ⟨results', hs, hrows⟩ := ih h
    refine ⟨results', hs, ?_⟩
    have hshift : rest.zipIdx.map (fun e => (⟨jobId, sequence + 1 + e.2, e.1⟩ : JobResultRow)) =
        (rest.zipIdx 1).map fun e => ⟨jobId, sequence + e.2, e.1⟩ := by
      rw [List.zipIdx_succ]
      simp [List.map_map, Function.comp_def, Nat.add_assoc, Nat.add_comm 1]
    rw [hrows, hshift, Table.rows_of_insert hr]
    simp [List.zipIdx_cons]

theorem publish_gives {entries : List Json} {limit : ℤ}
    (h : (publish jobId token entries now check limit).Gives u x u') :
    Held jobId token u.store ∧ ∃ encoded size progress results, publication entries = .ok (encoded, size) ∧
      results.rows = u.store.results.rows ++
        encoded.zipIdx.map (fun e => ⟨jobId, u.store.nextSequence jobId + e.2, e.1⟩) ∧
      Edited (fun r => r.jobId = jobId)
        (fun r => { r with
          resultBytes := r.resultBytes + size, progress := progress, revision := r.revision + 1,
          updatedAt := now }) { u.store with results := results } u'.store := by
  simp only [publish, gives_bind, gives_ofExcept, updateJobs_gives, running_gives, gives_read, gives_raiseIf,
    gives_addCommitGuard] at h
  obtain ⟨⟨encoded, size⟩, _, ⟨hp, rfl⟩, _, _, ⟨-, rfl⟩, row, _, ⟨hrow, rfl⟩, _, _, ⟨-, rfl⟩, _, _, ⟨rfl, rfl⟩,
    _, v, hi, progress, _, ⟨-, rfl⟩, n, w, ⟨-, hn, -, rfl⟩, rfl⟩ := h
  obtain ⟨results, hs, hrows⟩ := insertResults_gives hi
  refine ⟨⟨row, hrow⟩, encoded, size, progress, results, hp, hrows, ?_⟩
  rw [← hs]
  exact ⟨_, hn, rfl⟩

variable {q : Submission}

theorem previous_gives {digest : String} {x : Option DurableJob} (h : (q.previous digest).Gives u x u') : u = u' := by
  unfold Submission.previous at h
  split at h
  · exact (gives_pure.mp h).2
  simp only [gives_bind, gives_read] at h
  obtain ⟨s, _, ⟨-, rfl⟩, h⟩ := h
  split at h
  · exact (gives_pure.mp h).2
  simp only [gives_bind, gives_raiseIf, owned_gives, gives_pure] at h
  obtain ⟨_, _, ⟨-, rfl⟩, _, _, ⟨-, rfl⟩, -, rfl⟩ := h
  rfl

theorem rememberRequest_gives {digest jobId : String} (h : (q.rememberRequest digest jobId).Gives u x u') :
    ∃ requests, u'.store = { u.store with requests := requests } := by
  unfold Submission.rememberRequest at h
  split at h
  · rw [(gives_pure.mp h).2]
    exact ⟨_, rfl⟩
  · obtain ⟨-, requests, -, rfl⟩ := insertRequest_gives.mp h
    exact ⟨requests, rfl⟩

def Created (q : Submission) (freshId : String) (s s' : JobStore) : Prop :=
  ∃ raw digest jobs, s.handlerActive q.owner q.module q.handler < q.maxActive ∧ s.activeCount < q.maxQueued ∧
    s.jobs.insert (q.newJob raw digest freshId) = some jobs ∧ (activeInputs jobs.rows).Nodup ∧
    s' = { s with jobs := jobs }

theorem obtainJob_gives {raw : Json} {digest freshId jobId : String}
    (h : (q.obtainJob raw digest freshId).Gives u jobId u') :
    u'.store = u.store ∨ Created q freshId u.store u'.store := by
  simp only [Submission.obtainJob, gives_bind, gives_read] at h
  obtain ⟨_, _, ⟨rfl, rfl⟩, h⟩ := h
  split at h
  · exact .inl (by rw [(gives_pure.mp h).2])
  simp only [gives_bind, gives_raiseIf, insertJob_gives, gives_pure] at h
  obtain ⟨_, _, ⟨hc, rfl⟩, _, _, ⟨-, -, jobs, hi, hn, rfl⟩, -, rfl⟩ := h
  obtain ⟨hm, hq⟩ := not_or.mp hc
  exact .inr ⟨raw, digest, jobs, by omega, by omega, hi, hn, rfl⟩

theorem submit_gives {sha256 : String → String} {freshId : String}
    {x : DurableJob} (h : (submit sha256 q freshId check).Gives u x u') :
    ∃ s, (s = u.store ∨ Created q freshId u.store s) ∧ ∃ requests, u'.store = { s with requests := requests } := by
  simp only [submit, gives_bind, gives_ofExcept] at h
  obtain ⟨raw, _, ⟨-, rfl⟩, _, _, ⟨-, rfl⟩, previous, v, hv, h⟩ := h
  cases previous_gives hv
  cases previous with
  | some row =>
    obtain ⟨-, rfl⟩ := gives_pure.mp h
    exact ⟨_, .inl rfl, _, rfl⟩
  | none =>
    simp only [gives_bind, gives_addCommitGuard, owned_gives] at h
    obtain ⟨jobId, v, hv, _, w, hw, _, _, rfl, -, rfl⟩ := h
    obtain ⟨requests, hr⟩ := rememberRequest_gives hw
    exact ⟨v.store, obtainJob_gives hv, requests, hr⟩

def Retried (c : Change) (s s' : JobStore) : Prop :=
  ∃ row, s.jobs.get c.jobId = some row ∧ row.active = false ∧
    s.handlerActive row.ownerId row.moduleId row.handlerId < c.maxActive ∧ s.activeCount < c.maxQueued ∧
    row.moduleId = c.module ∧ Edited (fun r => r.jobId = c.jobId)
      (fun r => { r with
        status := .queued, progress := .obj [], checkpoint := .obj [], summary := .obj [], errorCode := none,
        resultBytes := 0, runToken := none, revision := r.revision + 1, attempt := r.attempt + 1,
        updatedAt := c.now })
      { s with results := s.results.delete fun r => r.jobId = c.jobId } s'

def Cancelled (c : Change) (s s' : JobStore) : Prop :=
  ∃ row, s.jobs.get c.jobId = some row ∧ row.active = true ∧ Edited (fun r => r.jobId = c.jobId)
      (fun r => { r with
        status := .cancelled, runToken := none, revision := r.revision + 1, updatedAt := c.now }) s s'

theorem change_gives {c : Change} {x : DurableJob} (h : (change c check).Gives u x u') :
    (c.retry = true ∧ Retried c u.store u'.store) ∨ (c.retry = false ∧ Cancelled c u.store u'.store) ∨
      (c.retry = false ∧ u'.store = u.store) := by
  simp only [change, gives_bind, gives_ofExcept, owned_gives, gives_raiseIf, gives_addCommitGuard] at h
  obtain ⟨_, _, ⟨-, rfl⟩, row, _, ⟨⟨hrow, -, hm⟩, rfl⟩, _, _, ⟨-, rfl⟩, _, v, hv, _, _, rfl, -, rfl⟩ := h
  have hid : row.jobId = c.jobId := Table.key_of_get hrow
  unfold Change.apply at hv
  rw [gives_ite, gives_ite] at hv
  rcases hv with ⟨hr, hv⟩ | ⟨hr, ⟨ha, hv⟩ | ⟨-, hv⟩⟩
  · simp only [retryJob, hid, gives_bind, gives_raiseIf, gives_read, gives_write, updateJobs_gives, gives_pure] at hv
    obtain ⟨_, _, ⟨hs, rfl⟩, _, _, ⟨rfl, rfl⟩, _, _, ⟨hc, rfl⟩, _, _, ⟨-, rfl⟩, _, _, rfl, n, w, ⟨-, hn, -, rfl⟩,
      -, rfl⟩ := hv
    obtain ⟨hma, hmq⟩ := not_or.mp hc
    refine .inl ⟨hr, row, hrow, ?_, by omega, by omega, hm, _, hn, rfl⟩
    have hstatus : row.status ∈ [.interrupted, .failed, .cancelled] := by
      by_contra hne
      exact hs (.inl hne)
    unfold DurableJob.active JobStatus.active
    simp only [List.mem_cons, List.not_mem_nil, or_false] at hstatus
    rcases hstatus with h | h | h <;> rw [h] <;> rfl
  · simp only [cancelJob, hid, gives_bind, updateJobs_gives, gives_pure] at hv
    obtain ⟨n, w, ⟨-, hn, -, rfl⟩, -, rfl⟩ := hv
    exact .inr (.inl ⟨by simpa using hr, row, hrow, ha, _, hn, rfl⟩)
  · obtain ⟨-, rfl⟩ := gives_pure.mp hv
    exact .inr (.inr ⟨by simpa using hr, rfl⟩)

theorem expire_gives {now : String} {n : ℕ} (h : (expire now).Gives u n u') : ∃ p requests, u'.store = { u.store with
      jobs := u.store.jobs.delete p, requests := requests,
      results := u.store.results.delete fun r =>
        decide (r.jobId ∈ (u.store.jobs.rows.filter p).map DurableJob.jobId) } := by
  simp only [expire, deleteJobs, gives_bind, gives_read, gives_write, gives_pure] at h
  obtain ⟨_, _, ⟨rfl, rfl⟩, _, _, rfl, -, rfl⟩ := h
  exact ⟨_, _, rfl⟩

end GameLink.Jobs

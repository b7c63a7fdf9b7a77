import GameLink.Jobs.Schema
import Mathlib.Algebra.GroupWithZero.Nat

namespace GameLink.Jobs

open Foundation Work

structure Check where
  call : Except JobFailure Unit
  fence : Option JobFailure

def jsonObject (value : Json) (maxBytes : ℕ) : Except JobFailure Json :=
  if value.isObject = false then .error (.jobError "invalid_job_data")
  else if value.depthWithin 16 = false then .error (.jobError "job_data_limit")
  else if maxBytes < value.byteSize then .error (.jobError "job_data_limit")
  else .ok value

def withResultEntries (value : Json) (count : ℕ) : Json := value.setField "result_entries" (.int count)

def recover (now : String) : JobWork Unit := do
  let _ ← updateJobs (fun r => r.status = .running)
    (fun r => { r with
      status := .interrupted, revision := r.revision + 1, runToken := none,
      errorCode := some "process_interrupted", updatedAt := now })
    fun _ => rfl
  pure ()

def owned (owner module jobId : String) : JobWork DurableJob := do
  let s ← read
  orRaise ((s.jobs.get jobId).filter fun r => r.ownerId = owner && r.moduleId = module) (.jobError "job_not_found")

structure Submission where
  owner : String
  module : String
  handler : String
  declarationDigest : String
  parameters : Json
  requestKey : Option String
  now : String
  expiresAt : String
  maxActive : ℕ
  maxQueued : ℕ

namespace Submission

def inputDigest (sha256 : String → String) (q : Submission) (raw : Json) : String :=
  sha256 (q.handler ++ ":" ++ q.declarationDigest ++ ":" ++ raw.dumps)

def newJob (q : Submission) (raw : Json) (digest jobId : String) : DurableJob where
  jobId := jobId
  moduleId := q.module
  ownerId := q.owner
  handlerId := q.handler
  declarationDigest := q.declarationDigest
  parameters := raw
  inputDigest := digest
  status := .queued
  revision := 1
  progress := .obj []
  checkpoint := .obj []
  summary := .obj []
  errorCode := none
  runToken := none
  createdAt := q.now
  updatedAt := q.now
  expiresAt := q.expiresAt
  resultBytes := 0
  attempt := 1

def previous (q : Submission) (digest : String) : JobWork (Option DurableJob) :=
  match q.requestKey with
  | none => pure none
  | some key => do
    let s ← read
    match s.requests.get (q.owner, q.module, key) with
    | none => pure none
    | some request => do
      raiseIf (request.inputDigest ≠ digest) (.jobError "job_request_conflict")
      let row ← owned q.owner q.module request.jobId
      pure (some row)

def obtainJob (q : Submission) (raw : Json) (digest jobId : String) : JobWork String := do
  let s ← read
  match s.jobs.rows.find? fun r => r.active && r.activeInput = (q.owner, q.module, q.handler, digest) with
  | some existing => pure existing.jobId
  | none => do
    raiseIf (q.maxActive ≤ s.handlerActive q.owner q.module q.handler ∨ q.maxQueued ≤ s.activeCount)
      (.jobError "job_capacity_exceeded")
    insertJob (q.newJob raw digest jobId)
    pure jobId

def rememberRequest (q : Submission) (digest jobId : String) : JobWork Unit :=
  match q.requestKey with
  | none => pure ()
  | some key => insertRequest ⟨q.owner, q.module, key, digest, jobId⟩

end Submission

def submit (sha256 : String → String) (q : Submission) (freshId : String) (check : Check) : JobWork DurableJob := do
  let raw ← ofExcept (jsonObject q.parameters 262144)
  let digest := q.inputDigest sha256 raw
  ofExcept check.call
  match ← q.previous digest with
  | some row => pure row
  | none => do
    let jobId ← q.obtainJob raw digest freshId
    q.rememberRequest digest jobId
    addCommitGuard fun _ => check.fence
    owned q.owner q.module jobId

def rejectQueued (jobId code now : String) : JobWork Unit := do
  let _ ← updateJobs (fun r => r.jobId = jobId && r.status = .queued)
    (fun r => { r with
      status := .failed, errorCode := some code, revision := r.revision + 1, updatedAt := now })
    fun _ => rfl
  pure ()

def claim (jobId : String) (revision : ℕ) (token now : String) (check : Check) : JobWork (Option DurableJob) := do
  ofExcept check.call
  let count ← updateJobs
    (fun r => r.jobId = jobId && r.status = .queued && r.revision = revision && now < r.expiresAt)
    (fun r => { r with
      status := .running, revision := r.revision + 1, runToken := some token, updatedAt := now })
    fun _ => rfl
  if count ≠ 1 then pure none
  else do
    addCommitGuard fun _ => check.fence
    let s ← read
    pure (s.jobs.get jobId)

def running (jobId token : String) : JobWork DurableJob := do
  let s ← read
  orRaise ((s.jobs.get jobId).filter fun r => r.status = .running && r.runToken = some token)
    (.jobError "job_run_revoked")

def checkpointObject : Option Json → Except JobFailure (Option Json)
  | none => .ok none
  | some checkpoint => (jsonObject checkpoint 262144).map some

def update (jobId token : String) (progress : Json) (checkpoint : Option Json) (now : String) (check : Check) :
    JobWork Unit := do
  let progressRaw ← ofExcept (jsonObject progress 16384)
  let checkpointRaw ← ofExcept (checkpointObject checkpoint)
  ofExcept check.call
  let row ← running jobId token
  let s ← read
  let effectiveProgress ← ofExcept (jsonObject (withResultEntries progressRaw (s.resultCount jobId)) 16384)
  let _ ← updateJobs (fun r => r.jobId = jobId && r.runToken = some token)
    (fun r => { r with
      progress := effectiveProgress, checkpoint := checkpointRaw.getD row.checkpoint,
      revision := r.revision + 1, updatedAt := now })
    fun _ => rfl
  addCommitGuard fun _ => check.fence

def resourceSize (entry : Json) : Except JobFailure ℤ :=
  match entry.field "resource" with
  | none => .ok 0
  | some (.obj resource) =>
    match (Json.obj resource).field "size_bytes" with
    | none => .ok 0
    | some (.int size) => .ok size
    | some (.bool b) => .ok (if b then 1 else 0)
    | some _ => .error .typeError
  | some _ => .error .attributeError

def sizesOf : List Json → Except JobFailure ℤ
  | [] => .ok 0
  | entry :: rest => do
    let size ← resourceSize entry
    let sizes ← sizesOf rest
    pure (size + sizes)

def encodeEntries : List Json → Except JobFailure (List Json)
  | [] => .ok []
  | entry :: rest => do
    let raw ← jsonObject entry 65536
    let encoded ← encodeEntries rest
    pure (raw :: encoded)

def encodedSize (encoded : List Json) : ℕ := (encoded.map Json.byteSize).sum

def publication (entries : List Json) : Except JobFailure (List Json × ℤ) := do
  if ¬ (1 ≤ entries.length ∧ entries.length ≤ 100) then .error (.jobError "job_publish_limit")
  else
    let encoded ← encodeEntries entries
    let sizes ← sizesOf entries
    if 262144 < encodedSize encoded then .error (.jobError "job_publish_limit")
    else pure (encoded, encodedSize encoded + sizes)

def insertResults (jobId : String) (sequence : ℕ) : List Json → JobWork Unit
  | [] => pure ()
  | raw :: rest => do
    insertResult ⟨jobId, sequence, raw⟩
    insertResults jobId (sequence + 1) rest

def publish (jobId token : String) (entries : List Json) (now : String) (check : Check) (maxResultBytes : ℤ) :
    JobWork Unit := do
  let (encoded, size) ← ofExcept (publication entries)
  ofExcept check.call
  let row ← running jobId token
  raiseIf (maxResultBytes < row.resultBytes + size) (.jobError "job_result_limit")
  let s ← read
  let sequence := s.nextSequence jobId
  insertResults jobId sequence encoded
  let progress ← ofExcept (jsonObject (withResultEntries row.progress (sequence + encoded.length)) 16384)
  let _ ← updateJobs (fun r => r.jobId = jobId)
    (fun r => { r with
      resultBytes := r.resultBytes + size, progress := progress, revision := r.revision + 1, updatedAt := now })
    fun _ => rfl
  addCommitGuard fun _ => check.fence

def callCheck : Option Check → JobWork Unit
  | none => pure ()
  | some check => ofExcept check.call

def fenceCheck : Option Check → JobWork Unit
  | none => pure ()
  | some check => addCommitGuard fun _ => check.fence

def finish (jobId token : String) (status : JobStatus) (summary : Json) (error : Option String) (now : String)
    (check : Option Check) : JobWork Unit := do
  let raw ← ofExcept (jsonObject summary 65536)
  callCheck check
  let s ← read
  let effectiveSummary ← ofExcept (jsonObject (withResultEntries raw (s.resultCount jobId)) 65536)
  let _ ← updateJobs (fun r => r.jobId = jobId && r.status = .running && r.runToken = some token)
    (fun r => { r with
      status := status, summary := effectiveSummary, errorCode := error, runToken := none,
      revision := r.revision + 1, updatedAt := now })
    fun _ => rfl
  fenceCheck check

def retryJob (row : DurableJob) (now : String) (maxActive maxQueued : ℕ) : JobWork Unit := do
  raiseIf (row.status ∉ [.interrupted, .failed, .cancelled] ∨ row.expiresAt ≤ now) (.jobError "job_not_retryable")
  let s ← read
  raiseIf (maxActive ≤ s.handlerActive row.ownerId row.moduleId row.handlerId ∨ maxQueued ≤ s.activeCount)
    (.jobError "job_capacity_exceeded")
  raiseIf (s.jobs.rows.any fun r => r.active && r.activeInput = row.activeInput) (.jobError "job_request_conflict")
  write fun s => { s with results := s.results.delete fun r => r.jobId = row.jobId }
  let _ ← updateJobs (fun r => r.jobId = row.jobId)
    (fun r => { r with
      status := .queued, progress := .obj [], checkpoint := .obj [], summary := .obj [], errorCode := none,
      resultBytes := 0, runToken := none, revision := r.revision + 1, attempt := r.attempt + 1, updatedAt := now })
    fun _ => rfl
  pure ()

def cancelJob (row : DurableJob) (now : String) : JobWork Unit := do
  let _ ← updateJobs (fun r => r.jobId = row.jobId)
    (fun r => { r with status := .cancelled, runToken := none, revision := r.revision + 1, updatedAt := now })
    fun _ => rfl
  pure ()

structure Change where
  owner : String
  module : String
  jobId : String
  expectedRevision : ℕ
  retry : Bool
  now : String
  maxActive : ℕ
  maxQueued : ℕ

def Change.apply (c : Change) (row : DurableJob) : JobWork Unit :=
  if c.retry then retryJob row c.now c.maxActive c.maxQueued
  else if row.active then cancelJob row c.now
  else pure ()

def change (c : Change) (check : Check) : JobWork DurableJob := do
  ofExcept check.call
  let row ← owned c.owner c.module c.jobId
  raiseIf (row.revision ≠ c.expectedRevision) (.revisionConflict c.expectedRevision row.revision)
  c.apply row
  addCommitGuard fun _ => check.fence
  owned c.owner c.module c.jobId

def resultRows (jobId : String) (offset limit : ℕ) (s : JobStore) : List JobResultRow :=
  ((s.results.rows.filter fun r => r.jobId = jobId && offset ≤ r.sequence).insertionSort
    fun a b => a.sequence ≤ b.sequence).take (limit + 1)

def results (owner module jobId : String) (offset limit : ℕ) : JobWork (DurableJob × List Json) := do
  let row ← owned owner module jobId
  let s ← read
  pure (row, (resultRows jobId offset limit s).map JobResultRow.entry)

def expire (now : String) : JobWork ℕ := deleteJobs fun r => r.expiresAt ≤ now && r.status ≠ .running

end GameLink.Jobs

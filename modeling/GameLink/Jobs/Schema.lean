import GameLink.Foundation.Json
import GameLink.Foundation.Table
import GameLink.Foundation.Transaction

namespace GameLink.Jobs

open Foundation

inductive JobStatus where
  | queued | running | succeeded | failed | cancelled | interrupted
  deriving DecidableEq, Repr

def JobStatus.active (s : JobStatus) : Bool := s = .queued || s = .running

structure DurableJob where
  jobId : String
  moduleId : String
  ownerId : String
  handlerId : String
  declarationDigest : String
  parameters : Json
  inputDigest : String
  status : JobStatus
  revision : ℕ
  progress : Json
  checkpoint : Json
  summary : Json
  errorCode : Option String
  runToken : Option String
  createdAt : String
  updatedAt : String
  expiresAt : String
  resultBytes : ℤ
  attempt : ℕ

namespace DurableJob

def active (r : DurableJob) : Bool := r.status.active

/-- The columns of the partial unique index `durable_jobs_active_input`. -/
def activeInput (r : DurableJob) : String × String × String × String :=
  (r.ownerId, r.moduleId, r.handlerId, r.inputDigest)

def ownerHandler (r : DurableJob) : String × String × String := (r.ownerId, r.moduleId, r.handlerId)

def checks (r : DurableJob) : Bool := 0 < r.revision && 0 ≤ r.resultBytes && 0 < r.attempt

end DurableJob

structure JobRequestRow where
  ownerId : String
  moduleId : String
  requestKey : String
  inputDigest : String
  jobId : String

def JobRequestRow.key (r : JobRequestRow) : String × String × String := (r.ownerId, r.moduleId, r.requestKey)

structure JobResultRow where
  jobId : String
  sequence : ℕ
  entry : Json

def JobResultRow.key (r : JobResultRow) : String × ℕ := (r.jobId, r.sequence)

structure JobStore where
  principals : List String
  jobs : Table DurableJob.jobId
  requests : Table JobRequestRow.key
  results : Table JobResultRow.key

inductive JobFailure where
  | jobError (code : String)
  | revisionConflict (expected actual : ℕ)
  | uniqueConstraintViolation
  | integrityError
  | attributeError
  | typeError
  deriving DecidableEq, Repr

abbrev JobWork := Work JobStore JobFailure

def activeInputs (rows : List DurableJob) : List (String × String × String × String) :=
  (rows.filter DurableJob.active).map DurableJob.activeInput

namespace JobStore

def activeCount (s : JobStore) : ℕ := s.jobs.rows.countP DurableJob.active

def handlerActive (s : JobStore) (owner module handler : String) : ℕ :=
  s.jobs.rows.countP fun r => r.active && r.ownerHandler = (owner, module, handler)

def sequences (s : JobStore) (jobId : String) : List ℕ :=
  (s.results.rows.filter fun r => r.jobId = jobId).map JobResultRow.sequence

def resultCount (s : JobStore) (jobId : String) : ℕ := s.results.matching fun r => r.jobId = jobId

def nextSequence (s : JobStore) (jobId : String) : ℕ := ((s.sequences jobId).map (· + 1)).foldr max 0

end JobStore

/-- `INSERT INTO durable_jobs` under the primary key, the checks, the reference to the owner's
principal and the partial unique index. -/
def insertJob (r : DurableJob) : JobWork Unit := do
  let s ← Work.read
  Work.raiseIf (r.checks = false) .integrityError
  Work.raiseIf (r.ownerId ∉ s.principals) .integrityError
  let jobs ← Work.orRaise (s.jobs.insert r) .uniqueConstraintViolation
  Work.raiseIf (¬ (activeInputs jobs.rows).Nodup) .uniqueConstraintViolation
  Work.write fun s => { s with jobs := jobs }

/-- `UPDATE durable_jobs SET … WHERE …`; gives the number of rows it touched. -/
def updateJobs (p : DurableJob → Bool) (f : DurableJob → DurableJob) (hf : ∀ r, (f r).jobId = r.jobId) :
    JobWork ℕ := do
  let s ← Work.read
  let jobs := s.jobs.update p f hf
  Work.raiseIf (jobs.rows.all DurableJob.checks = false) .integrityError
  Work.raiseIf (¬ (activeInputs jobs.rows).Nodup) .uniqueConstraintViolation
  Work.write fun s => { s with jobs := jobs }
  pure (s.jobs.matching p)

def insertRequest (r : JobRequestRow) : JobWork Unit := do
  let s ← Work.read
  Work.raiseIf (s.jobs.get r.jobId = none) .integrityError
  let requests ← Work.orRaise (s.requests.insert r) .uniqueConstraintViolation
  Work.write fun s => { s with requests := requests }

def insertResult (r : JobResultRow) : JobWork Unit := do
  let s ← Work.read
  Work.raiseIf (s.jobs.get r.jobId = none) .integrityError
  let results ← Work.orRaise (s.results.insert r) .uniqueConstraintViolation
  Work.write fun s => { s with results := results }

/-- `DELETE FROM durable_jobs WHERE …`, with the cascade to requests and results. -/
def deleteJobs (p : DurableJob → Bool) : JobWork ℕ := do
  let s ← Work.read
  let gone := (s.jobs.rows.filter p).map DurableJob.jobId
  Work.write fun s =>
    { s with
      jobs := s.jobs.delete p
      requests := s.requests.delete fun r => r.jobId ∈ gone
      results := s.results.delete fun r => r.jobId ∈ gone }
  pure (s.jobs.matching p)

end GameLink.Jobs

import GameLink.Jobs.Constraints
import Mathlib.Data.Finset.Card

namespace GameLink.Jobs

open Foundation Work

def inQueueOrder (a b : DurableJob) : Prop :=
  a.createdAt < b.createdAt ∨ (a.createdAt = b.createdAt ∧ a.jobId ≤ b.jobId)

instance (a b : DurableJob) : Decidable (inQueueOrder a b) := inferInstanceAs (Decidable (_ ∨ _))

def queueRows (s : JobStore) : List DurableJob :=
  (s.jobs.rows.filter fun r => r.status = .queued).insertionSort inQueueOrder

def queued (limit : ℕ) (s : JobStore) : List DurableJob := (queueRows s).take limit

inductive Driver where
  | waiting
  | expiring
  | reading
  | examining (rest : List DurableJob)
  | claiming (candidate : DurableJob) (rest : List DurableJob)
  | claimed (row : Option DurableJob) (rest : List DurableJob)
  | rejecting (candidate : DurableJob) (code : String) (rest : List DurableJob)
  | failing (row : DurableJob) (code : String) (rest : List DurableJob)
  | stopped

/-- `JobsService` while it is not closed. A task stands beside whether its coroutine was entered;
`unnotified` counts the callers whose submit or change committed and who have not resumed yet.
`beyond` is kept for the proofs: the last page left queued rows out. -/
structure Service where
  store : JobStore
  tasks : List (String × Bool)
  runs : Finset String
  settling : Finset String
  wake : Bool
  driver : Driver
  unnotified : ℕ
  beyond : Bool

namespace Service

def busy (s : Service) : Finset String := (s.tasks.map Prod.fst).toFinset ∪ s.runs ∪ s.settling

end Service

def JobFailure.admissionCode : JobFailure → String
  | .jobError code => code
  | _ => "job_admission_failed"

/-- The registry at the moment of the lookup: the digest of the declared handler, or the code of the
error that `_module` or `_descriptor` raises. -/
abbrev Registry := String → String → Except String String

def admitCandidate (registry : Registry) (candidate : DurableJob) : Except String Unit := do
  let digest ← registry candidate.moduleId candidate.handlerId
  if digest ≠ candidate.declarationDigest then .error "job_declaration_changed" else .ok ()

def finishFailed (row : DurableJob) (code now : String) : JobWork Unit :=
  match row.runToken with
  | none => pure ()
  | some token => finish row.jobId token .failed (.obj []) (some code) now none

inductive DriverAction where
  | resume
  | expire (now : String)
  | read
  | examine (registry : Registry)
  | claim (token now : String) (check : Check)
  | createTask (refusal : Option String)
  | reject (now : String)
  | fail (now : String)
  | raise

namespace Service

def afterTransaction {α : Type} (s : Service) (result : Except JobFailure α × JobStore) (driver : Driver) : Service :=
  match result with
  | (.ok _, store) => { s with store := store, driver := driver }
  | (.error _, store) => { s with store := store, driver := .stopped }

def drive (maxRunning : ℕ) (s : Service) : Driver → DriverAction → Service
  | .waiting, .resume => if s.wake then { s with wake := false, driver := .expiring } else s
  | .expiring, .expire now => s.afterTransaction (transaction (Jobs.expire now) s.store) .reading
  | .reading, .read =>
    { s with
      driver := .examining (queued maxRunning s.store)
      beyond := maxRunning < (queueRows s.store).length }
  | .examining [], .examine _ => { s with driver := .waiting }
  | .examining (candidate :: rest), .examine registry =>
    if maxRunning ≤ s.busy.card then { s with driver := .waiting }
    else if candidate.jobId ∈ s.busy then { s with driver := .examining rest }
    else
      match admitCandidate registry candidate with
      | .error code => { s with driver := .rejecting candidate code rest }
      | .ok () => { s with driver := .claiming candidate rest }
  | .claiming candidate rest, .claim token now check =>
    match transaction (Jobs.claim candidate.jobId candidate.revision token now check) s.store with
    | (.ok row, store) => { s with store := store, driver := .claimed row rest }
    | (.error e, store) => { s with store := store, driver := .rejecting candidate e.admissionCode rest }
  | .claimed none rest, .createTask _ => { s with driver := .examining rest }
  | .claimed (some row) rest, .createTask none =>
    { s with tasks := (row.jobId, false) :: s.tasks, driver := .examining rest }
  | .claimed (some row) rest, .createTask (some code) => { s with driver := .failing row code rest }
  | .rejecting candidate code rest, .reject now =>
    s.afterTransaction (transaction (rejectQueued candidate.jobId code now) s.store) (.examining rest)
  | .failing row code rest, .fail now =>
    s.afterTransaction (transaction (finishFailed row code now) s.store) (.examining rest)
  | .waiting, _ => s
  | _, .raise => { s with driver := .stopped }
  | _, _ => s

variable {maxRunning : ℕ}

theorem drive_resume {s : Service} (h : s.wake = false) : s.drive maxRunning .waiting .resume = s := by
  simp only [drive]
  rw [if_neg (by simp [h])]

theorem drive_examine {s : Service} (candidate : DurableJob) (rest : List DurableJob)
    (registry : Registry) : s.drive maxRunning (.examining (candidate :: rest)) (.examine registry) =
      if maxRunning ≤ s.busy.card then { s with driver := .waiting }
      else if candidate.jobId ∈ s.busy then { s with driver := .examining rest }
      else
        match admitCandidate registry candidate with
        | .error code => { s with driver := .rejecting candidate code rest }
        | .ok () => { s with driver := .claiming candidate rest } := by
  rw [drive]

end Service

/-- A move of the driver, of a supervisor (`_run` entered and left, `_done` and the settlement of a task
that was never entered), a call on the repository by a run or a caller, or a step of a caller: its submit
or change commits, it resumes and sets the event, or it ends before it gets there. -/
inductive ServiceAction where
  | drive (a : DriverAction)
  | enter (jobId : String)
  | leave (jobId : String)
  | done (jobId : String) (entered : Bool)
  | settled (jobId : String)
  | call (a : JobAction)
  | commit (a : JobAction)
  | notify
  | abandon
  | notifyChanged

namespace ServiceAction

def calls : JobAction → Prop
  | .update .. => True
  | .publish .. => True
  | .finish _ _ status _ _ _ _ => status ∈ [.succeeded, .failed, .interrupted]
  | .expire _ => True
  | .provision _ => True
  | _ => False

def commits : JobAction → Prop
  | .submit .. => True
  | .change .. => True
  | _ => False

def allowed (s : Service) : ServiceAction → Prop
  | enter jobId => (jobId, false) ∈ s.tasks
  | leave jobId => jobId ∈ s.runs
  | done jobId entered => (jobId, entered) ∈ s.tasks
  | settled jobId => jobId ∈ s.settling
  | call a => calls a
  | commit a => commits a
  | notify => 0 < s.unnotified
  | abandon => 0 < s.unnotified
  | _ => True

end ServiceAction

namespace Service

def withoutTask (s : Service) (jobId : String) : List (String × Bool) := s.tasks.filter fun t => t.1 ≠ jobId

def next (sha256 : String → String) (maxRunning : ℕ) (s : Service) : ServiceAction → Service
  | .drive a => s.drive maxRunning s.driver a
  | .enter jobId =>
    { s with
      tasks := s.tasks.map fun t => if t.1 = jobId then (jobId, true) else t
      runs := insert jobId s.runs }
  | .leave jobId => { s with runs := s.runs.erase jobId, wake := true }
  | .done jobId entered =>
    { s with
      tasks := s.withoutTask jobId
      settling := if entered then s.settling else insert jobId s.settling
      wake := true }
  | .settled jobId => { s with settling := s.settling.erase jobId, wake := true }
  | .call a => { s with store := (a.run sha256 s.store).2 }
  | .commit a =>
    match a.run sha256 s.store with
    | (.ok (), store) => { s with store := store, unnotified := s.unnotified + 1 }
    | (.error _, store) => { s with store := store }
  | .notify => { s with unnotified := s.unnotified - 1, wake := true }
  | .abandon => { s with unnotified := s.unnotified - 1 }
  | .notifyChanged => { s with wake := true }

end Service

/-- The service from `start` on: the store is recovered, nothing runs, the event is set. -/
def serviceSystem (sha256 : String → String) (maxRunning : ℕ) : System Service ServiceAction where
  start s := s.store.Constrained ∧ (∀ r ∈ s.store.jobs.rows, r.status ≠ .running) ∧ s.tasks = [] ∧ s.runs = ∅ ∧
    s.settling = ∅ ∧ s.wake = true ∧ s.driver = .waiting ∧ s.unnotified = 0
  allowed s a := a.allowed s
  next s a := s.next sha256 maxRunning a

def Service.Asleep (s : Service) : Prop := s.driver = .waiting ∧ s.wake = false

def Service.Served (maxRunning : ℕ) (s : Service) : Prop :=
  maxRunning ≤ s.busy.card ∨ ∀ r ∈ s.store.jobs.rows, r.status = .queued → r.jobId ∈ s.busy

end GameLink.Jobs

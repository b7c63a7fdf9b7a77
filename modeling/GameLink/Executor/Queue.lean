import Mathlib.Logic.Function.Basic
import GameLink.Foundation.Runs
import GameLink.Executor.Jobs

namespace GameLink.Executor

open Foundation

abbrev Outcome := Except Failure ℕ

structure Job where
  number : ℕ
  kind : Kind
  deriving DecidableEq

inductive State where
  | opened
  | closing
  | closed
  deriving DecidableEq

inductive Refusal where
  | closing
  | start
  | full
  | cancelled
  deriving DecidableEq

/-- A call of `_submit`: it waits for a slot, was refused, awaits its future, or has ended, with `none`
for the caller's cancellation. -/
inductive Caller where
  | absent
  | waiting (kind : Kind)
  | refused (r : Refusal)
  | awaiting (cancelled : Bool)
  | ended (o : Option Outcome)

inductive Closer where
  | absent
  | polling
  | returned
  | timedOut
  deriving DecidableEq

def capacity : ℕ := 64

/-- The executor on its event loop. `workers` are the threads that are alive, each with the job it runs;
`finishes` are the callbacks that `_complete` has handed to the loop; `futures` what the jobs' futures
have. The last four fields record what was accepted, taken and run, and who was cancelled. -/
structure World where
  state : State
  worker : Option ℕ
  workers : List (ℕ × Option Job)
  threads : ℕ
  queue : List Job
  outstanding : ℕ
  idle : Bool
  slots : ℕ
  finishes : List (Job × Outcome)
  callers : ℕ → Caller
  futures : ℕ → Option Outcome
  requests : ℕ
  closers : ℕ → Closer
  stored : List ℕ
  accepted : List ℕ
  taken : List ℕ
  runs : List (Job × Run)
  cancels : List ℕ

inductive Action where
  | submit (kind : Kind)
  | enter (c : ℕ) (started : Bool)
  | cancel (c : ℕ)
  | take (n : ℕ)
  | complete (n : ℕ) (course : Course)
  | retire (n : ℕ)
  | finish
  | resume (c : ℕ)
  | close (k : ℕ)
  | poll (k : ℕ)
  | timeOut (k : ℕ)

namespace World

variable (w : World)

def start (stored : List ℕ) : World :=
  ⟨.opened, none, [], 0, [], 0, true, capacity, [], fun _ => .absent, fun _ => none, 0, fun _ => .absent, stored,
    [], [], [], []⟩

def setCaller (c : ℕ) (s : Caller) : World := { w with callers := Function.update w.callers c s }

def setCloser (k : ℕ) (s : Closer) : World := { w with closers := Function.update w.closers k s }

def settled : World := { w with outstanding := w.outstanding - 1, idle := w.idle || w.outstanding - 1 = 0 }

def refuse (c : ℕ) (r : Refusal) : World := { w with slots := w.slots + 1 }.setCaller c (.refused r)

def put (c : ℕ) (kind : Kind) : World :=
  if capacity ≤ w.queue.length then w.settled.refuse c .full
  else { w with queue := w.queue ++ [Job.mk c kind], accepted := w.accepted ++ [c] }.setCaller c (.awaiting false)

/-- The lock section of `_submit`, the slot taken. A thread that does not start is kept as the worker. -/
def enterLocked (c : ℕ) (kind : Kind) (started : Bool) : World :=
  if w.state ≠ .opened then w.refuse c .closing
  else
    let w := { w with outstanding := w.outstanding + 1, idle := false }
    match w.worker with
    | some _ => w.put c kind
    | none =>
      let w := { w with worker := some w.threads, threads := w.threads + 1 }
      if started then { w with workers := w.workers ++ [(w.threads - 1, none)] }.put c kind
      else w.refuse c .start

def enter (c : ℕ) (started : Bool) : World :=
  match w.callers c with
  | .waiting kind => { w with slots := w.slots - 1 }.enterLocked c kind started
  | _ => w

def cancel (c : ℕ) : World :=
  match w.callers c with
  | .waiting _ => w.setCaller c (.refused .cancelled)
  | .awaiting _ => { w with cancels := c :: w.cancels }.setCaller c (.awaiting true)
  | _ => w

def setWorker (n : ℕ) (job : Option Job) : World :=
  { w with workers := w.workers.map fun e => if e.1 = n then (n, job) else e }

def take (n : ℕ) : World :=
  match w.queue with
  | job :: queue => { w with queue := queue, taken := w.taken ++ [job.number] }.setWorker n (some job)
  | [] => w

def complete (n : ℕ) (course : Course) : World :=
  match w.workers.lookup n with
  | some (some job) =>
    let r := runJob job.kind course w.stored
    { w with stored := r.stored, runs := w.runs ++ [(job, r)], finishes := w.finishes ++ [(job, r.outcome)] }.setWorker n
      none
  | _ => w

def retire (n : ℕ) : World :=
  if w.queue = [] ∧ w.worker = some n then
    { w with worker := none, workers := w.workers.filter fun e => e.1 ≠ n }
  else w

def finish : World :=
  match w.finishes with
  | (job, o) :: finishes =>
    let w := { w with finishes := finishes }.settled
    let futures := if w.futures job.number = none then Function.update w.futures job.number (some o) else w.futures
    { w with futures := futures, slots := w.slots + 1 }
  | [] => w

def resume (c : ℕ) : World :=
  match w.callers c, w.futures c with
  | .awaiting cancelled, some o => w.setCaller c (.ended (if cancelled then none else some o))
  | _, _ => w

def close (k : ℕ) : World :=
  if w.state = .closed then w.setCloser k .returned else { w with state := .closing }.setCloser k .polling

def dead : Bool :=
  match w.worker with
  | none => true
  | some n => (w.workers.lookup n).isNone

def poll (k : ℕ) : World :=
  if w.outstanding = 0 ∧ w.dead = true then { w with state := .closed }.setCloser k .returned else w

def next : Action → World
  | .submit kind => { w with requests := w.requests + 1 }.setCaller w.requests (.waiting kind)
  | .enter c started => w.enter c started
  | .cancel c => w.cancel c
  | .take n => w.take n
  | .complete n course => w.complete n course
  | .retire n => w.retire n
  | .finish => w.finish
  | .resume c => w.resume c
  | .close k => w.close k
  | .poll k => w.poll k
  | .timeOut k => w.setCloser k .timedOut

def allowed : Action → Bool
  | .submit _ => true
  | .enter c _ =>
    match w.callers c with
    | .waiting _ => 0 < w.slots
    | _ => false
  | .cancel _ => true
  | .take n => w.workers.lookup n = some none && !w.queue.isEmpty
  | .complete n _ =>
    match w.workers.lookup n with
    | some (some _) => true
    | _ => false
  | .retire n => w.workers.lookup n = some none
  | .finish => !w.finishes.isEmpty
  | .resume c =>
    match w.callers c with
    | .awaiting _ => (w.futures c).isSome
    | _ => false
  | .close k => w.closers k = .absent
  | .poll k => w.closers k = .polling
  | .timeOut k => w.closers k = .polling

end World

def system : System World Action where
  start w := ∃ stored, w = World.start stored
  allowed w a := w.allowed a = true
  next w a := w.next a

/-- The step starts no thread in vain, and no rollback of a `close_sync` raises in it. -/
def World.smooth (w : World) : Action → Bool
  | .enter _ started => started || w.worker.isSome || w.state ≠ .opened
  | .complete _ course => course.closing
  | _ => true

/-- The runs in which every thread starts and every `close_sync` can roll back. -/
def smooth : System World Action where
  start := system.start
  allowed w a := system.allowed w a ∧ w.smooth a = true
  next := system.next

end GameLink.Executor

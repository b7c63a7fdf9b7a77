import GameLink.Foundation.Runs
import Mathlib.Algebra.Order.Ring.Rat

namespace GameLink.Sources.Authorizations

open Foundation

structure AuthorizationBinding where
  ownerId : String
  actorId : String
  pageSessionId : String
  runtimeId : String
  ownerEpoch : ℕ
  expectedRevision : ℕ
  deriving DecidableEq

structure AuthorizationFlowPolicy where
  flowId : String
  ticketSlot : String
  subjectSlot : String
  pollIntervalSeconds : ℚ
  ttlSeconds : ℚ
  maxPolls : ℕ
  timing : 0 < pollIntervalSeconds ∧ 0 < ttlSeconds ∧ ttlSeconds ≤ 300
  polling : 1 ≤ maxPolls ∧ maxPolls ≤ 150

inductive SessionState where
  | waiting | authorized | expired | cancelled | revoked | error | closed
  deriving DecidableEq

abbrev Captures := List (String × String)

inductive Verdict where
  | invalid
  | success (captures : Option Captures)
  | expired
  | pending
  | unknown

inductive Stage where
  | current
  | fetch
  | fetched (v : Verdict)
  | captured (captures : Captures)
  | commit (captures : Captures)

def Stage.commits : Stage → Bool
  | commit _ => true
  | _ => false

structure Holder where
  call : ℕ
  stage : Stage

/-- `_Session`. The last three fields are history: how often the writer was called, whether it has stored the material,
and when the session was polled upstream, the last time first. -/
structure Session where
  binding : AuthorizationBinding
  policy : AuthorizationFlowPolicy
  expiresAt : ℚ
  nextPollAt : ℚ
  polls : ℕ
  state : SessionState
  slots : Captures
  qrUrl : Option String
  subject : Option String
  committing : Bool
  lock : Option Holder
  expiryTimer : Bool
  writes : ℕ
  stored : Bool
  polled : List ℚ

namespace Session

def clear (s : Session) (state : SessionState) : Session :=
  { s with state := state, slots := [], qrUrl := none, expiryTimer := false }

def release (s : Session) : Session := { s with lock := none, committing := false }

def acquire (i : ℕ) (s : Session) : Session := { s with lock := some ⟨i, .current⟩ }

def move (stage : Stage) (s : Session) : Session := { s with lock := s.lock.map fun h => ⟨h.call, stage⟩ }

def apply (ticket url : String) (s : Session) : Session :=
  { s with slots := [(s.policy.ticketSlot, ticket)], qrUrl := some url }

def count (now : ℚ) (s : Session) : Session :=
  { s with polls := s.polls + 1, nextPollAt := now + s.policy.pollIntervalSeconds }

def send (now : ℚ) (s : Session) : Session := { s.move .fetch with polled := now :: s.polled }

def write (captures : Captures) (s : Session) : Session :=
  { s.move (.commit captures) with committing := true, slots := [], qrUrl := none, writes := s.writes + 1 }

def store (s : Session) : Session := { s with stored := true }

def authorize (captures : Captures) (s : Session) : Session :=
  { s.store.clear .authorized with subject := captures.lookup s.policy.subjectSlot }

end Session

inductive Call where
  | idle
  | beginGuard (flowId : String) (binding : AuthorizationBinding)
  | beginFetch (sessionId : String)
  | beginCurrent (sessionId : String) (applied : Option (String × String))
  | pollGuard (sessionId : String)
  | polling (sessionId : String)
  | qrGuard (sessionId : String)
  | qrCurrent (sessionId : String)
  | cancelGuard (sessionId : String)
  | cancelLock (sessionId : String)
  | revokeGuard (flowId : String) (binding : AuthorizationBinding)
  | revokeWrite
  | ended (report : Option (String × SessionState))
  deriving DecidableEq

def Call.over : Call → Bool
  | idle => true
  | ended _ => true
  | _ => false

inductive Request where
  | begin (flowId : String) (binding : AuthorizationBinding)
  | poll (sessionId : String) (binding : AuthorizationBinding)
  | qrPng (sessionId : String) (binding : AuthorizationBinding)
  | cancel (sessionId : String) (binding : AuthorizationBinding)
  | revoke (flowId : String) (binding : AuthorizationBinding)

/-- How an await ends. `raised` stands for an exception as well as for a cancellation of the caller. `applied` is what
the first answer has: the ticket and the address. `sessionId` is drawn for a session that begins. -/
structure Answer where
  raised : Bool
  sessionId : String
  applied : Option (String × String)
  verdict : Verdict
  encoded : Bool

/-- `sessions` are the session objects, `active` and `terminal` the names under which they are held, in their order. -/
structure World where
  clock : ℚ
  isClosed : Bool
  sessions : String → Option Session
  active : List String
  terminal : List String
  calls : ℕ → Call

def maxActiveSessions : ℕ := 128

def maxTerminalSessions : ℕ := 128

namespace World

def setCall (w : World) (i : ℕ) (call : Call) : World := { w with calls := Function.update w.calls i call }

def leave (w : World) (i : ℕ) : World := w.setCall i (.ended none)

def modify (w : World) (id : String) (f : Session → Session) : World :=
  { w with sessions := Function.update w.sessions id ((w.sessions id).map f) }

def waiting (w : World) (id : String) : Bool := (w.sessions id).any fun s => s.state = .waiting

def archive (w : World) (id : String) : World :=
  if w.waiting id then w
  else if w.isClosed then { w with active := w.active.erase id }
  else { w with
    active := w.active.erase id
    terminal := (w.terminal.erase id ++ [id]).drop ((w.terminal.erase id).length + 1 - maxTerminalSessions) }

def finish (w : World) (id : String) (state : SessionState) : World := (w.modify id fun s => s.clear state).archive id

def expire (w : World) (id : String) : World :=
  if (w.sessions id).any fun s => decide (s.state = .waiting) && !s.committing then w.finish id .expired else w

def late (w : World) (id : String) : Bool := (w.sessions id).any fun s => decide (s.expiresAt ≤ w.clock)

def lapse (w : World) (id : String) : World := if w.waiting id && w.late id then w.expire id else w

def find (w : World) (id : String) (binding : AuthorizationBinding) : Option World :=
  if !w.isClosed && decide (id ∈ w.active ∨ id ∈ w.terminal) && (w.sessions id).any fun s => s.binding = binding then
    some (w.lapse id)
  else none

def current (w : World) (id : String) (a : Answer) : Bool × World :=
  if a.raised then (false, w.finish id .revoked)
  else if w.isClosed then (false, w)
  else ((w.lapse id).waiting id, w.lapse id)

def report (w : World) (i : ℕ) (id : String) : World :=
  (w.archive id).setCall i (.ended (((w.archive id).sessions id).map fun s => (id, s.state)))

def abort (w : World) (i : ℕ) (id : String) : World :=
  (if w.waiting id then w.finish id .error else w.archive id).leave i

def conclude (w : World) (i : ℕ) (id : String) : World :=
  ((if w.waiting id then w.finish id .error else w.archive id).modify id Session.release).leave i

def answer (w : World) (i : ℕ) (id : String) : World := (w.report i id).modify id Session.release

def matching (flowId : String) (binding : AuthorizationBinding) (s : Session) : Bool :=
  decide (s.policy.flowId = flowId) && decide (s.binding.ownerId = binding.ownerId) &&
    decide (s.binding.pageSessionId = binding.pageSessionId) && decide (s.binding.runtimeId = binding.runtimeId)

def sweep (flowId : String) (binding : AuthorizationBinding) : List String → World → Bool × World
  | [], w => (false, w)
  | id :: ids, w =>
    let w := if w.late id then w.expire id else w
    if (w.sessions id).any (matching flowId binding) then
      if (w.sessions id).any Session.committing then (true, w) else sweep flowId binding ids (w.finish id .cancelled)
    else sweep flowId binding ids w

def newSession (now : ℚ) (policy : AuthorizationFlowPolicy) (binding : AuthorizationBinding) : Session where
  binding := binding
  policy := policy
  expiresAt := now + policy.ttlSeconds
  nextPollAt := now + policy.pollIntervalSeconds
  polls := 0
  state := .waiting
  slots := []
  qrUrl := none
  subject := none
  committing := false
  lock := none
  expiryTimer := true
  writes := 0
  stored := false
  polled := []

def create (w : World) (policy : AuthorizationFlowPolicy) (binding : AuthorizationBinding) (id : String) : World :=
  { w with
    sessions := Function.update w.sessions id (some (newSession w.clock policy binding))
    active := w.active ++ [id] }

def start (w : World) (i : ℕ) (policy : AuthorizationFlowPolicy) (binding : AuthorizationBinding) (id : String) : World :=
  match sweep policy.flowId binding w.active w with
  | (true, w) => w.leave i
  | (false, w) =>
    if maxActiveSessions ≤ w.active.length then w.leave i
    else (w.create policy binding id).setCall i (.beginFetch id)

def applied (w : World) (i : ℕ) (id : String) : Option (String × String) → World
  | none => w.abort i id
  | some (ticket, url) => (w.modify id (Session.apply ticket url)).report i id

def sendPoll (w : World) (i : ℕ) (id : String) (s : Session) : World :=
  if w.clock < s.nextPollAt then w.answer i id
  else if s.policy.maxPolls ≤ s.polls then (w.finish id .expired).answer i id
  else if (s.slots.lookup s.policy.ticketSlot).isNone then (w.modify id (Session.count w.clock)).conclude i id
  else w.modify id fun s => (s.count w.clock).send w.clock

def judge (w : World) (i : ℕ) (id : String) (s : Session) : Verdict → World
  | .invalid => w.conclude i id
  | .success none => w.conclude i id
  | .success (some captures) => w.modify id (Session.move (.captured captures))
  | .expired => (w.finish id .expired).answer i id
  | .unknown => (w.finish id .error).conclude i id
  | .pending => if s.policy.maxPolls ≤ s.polls then (w.finish id .expired).answer i id else w.answer i id

def settle (w : World) (i : ℕ) (id : String) (captures : Captures) (a : Answer) : World :=
  if a.raised then w.conclude i id
  else if w.isClosed || !w.waiting id then (w.modify id Session.store).conclude i id
  else ((w.modify id (Session.authorize captures)).archive id).answer i id

def passing (w : World) (i : ℕ) (id : String) (a : Answer) (next : World → Session → World) : World :=
  match w.current id a with
  | (false, w) => w.conclude i id
  | (true, w) => (w.sessions id).elim w (next w)

def locked (w : World) (i : ℕ) (id : String) (a : Answer) : Stage → World
  | .current => w.passing i id a fun w s => w.sendPoll i id s
  | .fetch =>
    if a.raised || w.isClosed then w.conclude i id else w.modify id (Session.move (.fetched a.verdict))
  | .fetched v => w.passing i id a fun w s => w.judge i id s v
  | .captured captures => w.passing i id a fun w _ => w.modify id (Session.write captures)
  | .commit captures => w.settle i id captures a

def poll (w : World) (i : ℕ) (id : String) (a : Answer) (s : Session) : World :=
  match s.lock with
  | none =>
    if a.raised then w.leave i
    else if !w.waiting id then w.report i id
    else if w.isClosed then w.conclude i id
    else w.modify id (Session.acquire i)
  | some holder => if holder.call = i then w.locked i id a holder.stage else if a.raised then w.leave i else w

def cancel (w : World) (i : ℕ) (id : String) : World :=
  (if w.waiting id then w.finish id .cancelled else w).report i id

def revoke (flowId : String) (binding : AuthorizationBinding) : List String → World → World
  | [], w => w
  | id :: ids, w =>
    revoke flowId binding ids <|
      if (w.sessions id).any fun s => decide (s.policy.flowId = flowId) && decide (s.binding.ownerId = binding.ownerId) &&
          decide (s.binding.runtimeId = binding.runtimeId) then w.finish id .revoked else w

def invalidate (ownerId pageSessionId : Option String) : List String → World → World
  | [], w => w
  | id :: ids, w =>
    invalidate ownerId pageSessionId ids <|
      if (w.sessions id).any fun s => (ownerId.all fun o => s.binding.ownerId = o) &&
          (pageSessionId.all fun p => s.binding.pageSessionId = p) && decide (s.state = .waiting) then w.finish id .cancelled
      else w

def close (w : World) : World :=
  { w with
    isClosed := true
    sessions := fun id => if id ∈ w.active then (w.sessions id).map fun s => s.clear .closed else w.sessions id
    active := []
    terminal := [] }

def request (w : World) (i : ℕ) : Request → World
  | .begin flowId binding => if w.isClosed then w.leave i else w.setCall i (.beginGuard flowId binding)
  | .poll id binding => (w.find id binding).elim (w.leave i) fun w => w.setCall i (.pollGuard id)
  | .qrPng id binding => (w.find id binding).elim (w.leave i) fun w => w.setCall i (.qrGuard id)
  | .cancel id binding => (w.find id binding).elim (w.leave i) fun w => w.setCall i (.cancelGuard id)
  | .revoke flowId binding => if w.isClosed then w.leave i else w.setCall i (.revokeGuard flowId binding)

def advance (policies : String → Option AuthorizationFlowPolicy) (w : World) (i : ℕ) (a : Answer) : World :=
  match w.calls i with
  | .idle => w
  | .ended _ => w
  | .beginGuard flowId binding =>
    if a.raised || w.isClosed then w.leave i
    else (policies flowId).elim (w.leave i) fun policy => w.start i policy binding a.sessionId
  | .beginFetch id => if a.raised || w.isClosed then w.abort i id else w.setCall i (.beginCurrent id a.applied)
  | .beginCurrent id payload =>
    match w.current id a with
    | (false, w) => w.abort i id
    | (true, w) => w.applied i id payload
  | .pollGuard id =>
    if a.raised then (w.finish id .revoked).leave i
    else if w.waiting id then w.setCall i (.polling id)
    else w.report i id
  | .polling id => (w.sessions id).elim w (w.poll i id a)
  | .qrGuard id =>
    match w.current id a with
    | (false, w) => w.leave i
    | (true, w) =>
      if ((w.sessions id).bind Session.qrUrl).isNone || !a.encoded then w.leave i else w.setCall i (.qrCurrent id)
  | .qrCurrent id => (w.current id a).2.leave i
  | .cancelGuard id =>
    if a.raised then w.leave i
    else if (w.sessions id).any Session.committing then w.setCall i (.cancelLock id)
    else w.cancel i id
  | .cancelLock id =>
    if a.raised then w.leave i else if (w.sessions id).any fun s => s.lock.isNone then w.cancel i id else w
  | .revokeGuard flowId binding =>
    if a.raised || w.isClosed || (policies flowId).isNone then w.leave i
    else (revoke flowId binding w.active w).setCall i .revokeWrite
  | .revokeWrite => w.leave i

end World

inductive Action where
  | tick (elapsed : ℚ)
  | request (i : ℕ) (r : Request)
  | advance (i : ℕ) (a : Answer)
  | timer (sessionId : String)
  | invalidate (ownerId pageSessionId : Option String)
  | close

namespace World

def next (policies : String → Option AuthorizationFlowPolicy) (w : World) : Action → World
  | .tick elapsed => { w with clock := w.clock + elapsed }
  | .request i r => w.request i r
  | .advance i a => w.advance policies i a
  | .timer id => w.expire id
  | .invalidate ownerId pageSessionId => invalidate ownerId pageSessionId w.active w
  | .close => w.close

def allowed (w : World) : Action → Prop
  | .tick elapsed => 0 ≤ elapsed
  | .request i _ => (w.calls i).over = true
  | .advance _ a => w.sessions a.sessionId = none
  | .timer id => (w.sessions id).any Session.expiryTimer = true
  | _ => True

structure initial (w : World) : Prop where
  isClosed : w.isClosed = false
  sessions : ∀ id, w.sessions id = none
  active : w.active = []
  terminal : w.terminal = []
  calls : ∀ i, w.calls i = .idle

end World

def authorizations (policies : String → Option AuthorizationFlowPolicy) : System World Action where
  start := World.initial
  allowed := World.allowed
  next := World.next policies

end GameLink.Sources.Authorizations

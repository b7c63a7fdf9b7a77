import GameLink.Foundation.Runs
import GameLink.Resources.Inventory

namespace GameLink.Resources.Registration

open Foundation Contracts

section Paths

variable [ContentHashing]

structure Path where
  kind : OwnershipKind
  token : String
  assetId : String
  deriving DecidableEq

def path (ref : Ref) : Path := ⟨ref.scope.kind, scopeToken ref.scope, ref.assetId⟩

end Paths

/-- The files below the root. `temp` and `tempOrphan` are those of `.staging`, by the call that made the operation. -/
structure Files where
  final : Path → Option Content
  pending : Path → Bool
  orphan : Path → Bool
  temp : ℕ → Option Content
  tempOrphan : ℕ → Bool

inductive Fault where
  | none | early | late
  deriving DecidableEq

namespace Files

def commit (f : Files) (i : ℕ) (p : Path) (fault : Fault) : Files × Bool :=
  match f.temp i with
  | none => (f, false)
  | some content =>
    if fault = .early then (f, false)
    else
      match f.final p with
      | some old =>
        if old = content then ({ f with temp := Function.update f.temp i none }, true) else (f, false)
      | none =>
        let marked := { f with pending := Function.update f.pending p true }
        if fault = .late then (marked, false)
        else
          ({ marked with
            final := Function.update f.final p (some content)
            temp := Function.update f.temp i none }, true)

def confirm (f : Files) (p : Path) : Files := { f with pending := Function.update f.pending p false }

def discard (f : Files) (i : ℕ) : Files := { f with temp := Function.update f.temp i none }

def markOrphan (f : Files) (i : ℕ) (p : Path) : Files :=
  if (f.temp i).isSome then { f with tempOrphan := Function.update f.tempOrphan i true }
  else if f.pending p && (f.final p).isSome then
    { f with pending := Function.update f.pending p false, orphan := Function.update f.orphan p true }
  else f

/-- `_discard_uncommitted_stage`. The flags say which of its two steps raise. -/
def discardUncommitted (f : Files) (i : ℕ) (p : Path) (discardRaises markRaises : Bool) : Files :=
  if !discardRaises then f.discard i else if markRaises then f else f.markOrphan i p

def Found (f : Files) (p : Path) : Prop := f.pending p = true ∨ f.orphan p = true

end Files

structure Request where
  ref : Ref
  mediaType : String
  content : Content
  expiresAt : Option Instant
  deriving DecidableEq

def Request.row (r : Request) : AssetRow := ⟨r.ref, r.mediaType, r.content.length, r.expiresAt, true, 1⟩

inductive Call where
  | idle
  /-- before the stage -/
  | admitted (r : Request)
  | staged (r : Request)
  /-- at the mutation, before the commit -/
  | entering (r : Request)
  | committed (r : Request)
  | registering (r : Request)
  | confirmed (r : Request)
  | recovering (r : Request)
  | succeeded (r : Request)
  | failed
  deriving DecidableEq

inductive Job where
  | none
  | insert (row : AssetRow)
  | inserted (ok : Bool)
  deriving DecidableEq

inductive Lookup where
  | none
  | queued (ref : Ref)
  | found (row : Option AssetRow)
  deriving DecidableEq

structure World where
  files : Files
  rows : Ref → Option AssetRow
  calls : ℕ → Call
  jobs : ℕ → Job
  lookups : ℕ → Lookup

inductive Staging where
  | done
  | raised (left : Option Content)

inductive Torn where
  | none
  | staging (i : ℕ) (left : Content)
  | moving (i : ℕ)

structure Cleanup where
  discardRaises : Bool
  markRaises : Bool
  readable : Bool

inductive Action where
  | begin (i : ℕ) (r : Request)
  | stage (i : ℕ) (staging : Staging)
  | enter (i : ℕ) (cleanup : Cleanup)
  | commit (i : ℕ) (fault : Fault) (cleanup : Cleanup)
  | submit (i : ℕ)
  /-- the worker runs the transaction of a call; `ok` says that nothing but the row itself is in its way -/
  | insert (i : ℕ) (ok : Bool)
  | lookup (i : ℕ)
  | resume (i : ℕ) (confirmRaises : Bool) (cleanup : Cleanup)
  | accept (i : ℕ)
  /-- an await raises, or is cancelled -/
  | raised (i : ℕ) (cleanup : Cleanup)
  | crash (torn : Torn)

namespace World

variable [ContentHashing]

def setCall (w : World) (i : ℕ) (call : Call) : World := { w with calls := Function.update w.calls i call }

def setJob (w : World) (i : ℕ) (job : Job) : World := { w with jobs := Function.update w.jobs i job }

def setLookup (w : World) (i : ℕ) (lookup : Lookup) : World := { w with lookups := Function.update w.lookups i lookup }

def cleanUp (w : World) (i : ℕ) (r : Request) (c : Cleanup) : World :=
  { w with files := w.files.discardUncommitted i (path r.ref) c.discardRaises c.markRaises }.setCall i .failed

def recover (w : World) (i : ℕ) (r : Request) (c : Cleanup) : World :=
  if c.readable then (w.setLookup i (.queued r.ref)).setCall i (.recovering r) else w.setCall i .failed

def stage (w : World) (i : ℕ) (r : Request) : Staging → World
  | .raised left => { w with files := { w.files with temp := Function.update w.files.temp i left } }.setCall i .failed
  | .done =>
    match w.files.temp i with
    | none => { w with files := { w.files with temp := Function.update w.files.temp i (some r.content) } }.setCall i (.staged r)
    | some old => if old = r.content then w.setCall i (.staged r) else w.setCall i .failed

def commit (w : World) (i : ℕ) (r : Request) (fault : Fault) (c : Cleanup) : World :=
  match w.files.commit i (path r.ref) fault with
  | (files, true) => { w with files := files }.setCall i (.committed r)
  | (files, false) => { w with files := files }.cleanUp i r c

def enter (w : World) (i : ℕ) (r : Request) (c : Cleanup) : World :=
  if contentId r.content r.ref.scope = r.ref.assetId then w.setCall i (.entering r) else w.cleanUp i r c

def insert (w : World) (i : ℕ) (ok : Bool) : World :=
  match w.jobs i with
  | .insert row =>
    if ok = true ∧ w.rows row.ref = none then
      { w with rows := Function.update w.rows row.ref (some row) }.setJob i (.inserted true)
    else w.setJob i (.inserted false)
  | _ => w

def lookup (w : World) (i : ℕ) : World :=
  match w.lookups i with
  | .queued ref => w.setLookup i (.found (w.rows ref))
  | _ => w

def recovered (w : World) (i : ℕ) (r : Request) (row : Option AssetRow) (c : Cleanup) : World :=
  match row with
  | some _ => w.setCall i .failed
  | none =>
    if c.markRaises then w.setCall i .failed
    else { w with files := w.files.markOrphan i (path r.ref) }.setCall i .failed

def resume (w : World) (i : ℕ) (confirmRaises : Bool) (c : Cleanup) : World :=
  match w.calls i, w.jobs i, w.lookups i with
  | .registering r, .inserted true, _ =>
    if confirmRaises then w.recover i r c
    else { w with files := w.files.confirm (path r.ref) }.setCall i (.confirmed r)
  | .registering r, .inserted false, _ => w.recover i r c
  | .recovering r, _, .found row => w.recovered i r row c
  | _, _, _ => w

def raised (w : World) (i : ℕ) (c : Cleanup) : World :=
  match w.calls i with
  | .admitted _ => w.setCall i .failed
  | .staged r => w.cleanUp i r c
  | .entering r => w.cleanUp i r c
  | .committed r => w.recover i r c
  | .registering r => w.recover i r c
  | .confirmed r => w.recover i r c
  | .recovering _ => w.setCall i .failed
  | _ => w

def lost : Call → Call
  | .idle => .idle
  | .succeeded r => .succeeded r
  | _ => .failed

def torn (w : World) : Torn → Files
  | .none => w.files
  | .staging i left =>
    match w.calls i with
    | .admitted _ => { w.files with temp := Function.update w.files.temp i (some left) }
    | _ => w.files
  | .moving i =>
    match w.calls i with
    | .entering r => (w.files.commit i (path r.ref) .late).1
    | _ => w.files

def crash (w : World) (t : Torn) : World := ⟨w.torn t, w.rows, fun i => lost (w.calls i), fun _ => .none, fun _ => .none⟩

def next (w : World) : Action → World
  | .begin i r => if w.calls i = .idle then w.setCall i (.admitted r) else w
  | .stage i staging => match w.calls i with
    | .admitted r => w.stage i r staging
    | _ => w
  | .enter i c => match w.calls i with
    | .staged r => w.enter i r c
    | _ => w
  | .commit i fault c => match w.calls i with
    | .entering r => w.commit i r fault c
    | _ => w
  | .submit i => match w.calls i with
    | .committed r => (w.setJob i (.insert r.row)).setCall i (.registering r)
    | _ => w
  | .insert i ok => w.insert i ok
  | .lookup i => w.lookup i
  | .resume i confirmRaises c => w.resume i confirmRaises c
  | .accept i => match w.calls i with
    | .confirmed r => w.setCall i (.succeeded r)
    | _ => w
  | .raised i c => w.raised i c
  | .crash t => w.crash t

structure Initial (w : World) : Prop where
  final : ∀ p, w.files.final p = none
  temp : ∀ i, w.files.temp i = none
  orphan : ∀ p, w.files.orphan p = false
  rows : ∀ ref, w.rows ref = none
  calls : ∀ i, w.calls i = .idle
  jobs : ∀ i, w.jobs i = .none
  lookups : ∀ i, w.lookups i = .none

def Named (w : World) (p : Path) : Prop := ∃ ref row, path ref = p ∧ w.rows ref = some row

def Careful (w : World) : Action → Prop
  | .insert i ok => ∀ row, w.jobs i = .insert row → ok = true → w.rows row.ref = none → w.files.orphan (path row.ref) = false
  | .resume i _ _ => ∀ r, w.calls i = .recovering r → w.lookups i = .found none → ¬ w.Named (path r.ref)
  | _ => True

end World

variable [ContentHashing]

def registrations : System World Action where
  start := World.Initial
  allowed _ _ := True
  next := World.next

def carefulRegistrations : System World Action where
  start := World.Initial
  allowed := World.Careful
  next := World.next

end GameLink.Resources.Registration

import GameLink.Foundation.Runs
import GameLink.Jobs.Invariants
import Mathlib.Algebra.Ring.Int.Defs

namespace GameLink.Jobs

open Foundation

inductive JobAction where
  | recover (now : String)
  | submit (q : Submission) (freshId : String) (check : Check)
  | rejectQueued (jobId code now : String)
  | claim (jobId : String) (revision : ℕ) (token now : String) (check : Check)
  | update (jobId token : String) (progress : Json) (checkpoint : Option Json) (now : String) (check : Check)
  | publish (jobId token : String) (entries : List Json) (now : String) (check : Check) (maxResultBytes : ℤ)
  | finish (jobId token : String) (status : JobStatus) (summary : Json) (error : Option String) (now : String)
      (check : Option Check)
  | change (c : Change) (check : Check)
  | expire (now : String)
  | provision (principal : String)

structure JobHistory where
  store : JobStore
  accounted : String → List ℤ

namespace JobAction

def body (sha256 : String → String) : JobAction → JobWork Unit
  | recover now => Jobs.recover now
  | submit q freshId check => do
    let _ ← Jobs.submit sha256 q freshId check
    pure ()
  | rejectQueued jobId code now => Jobs.rejectQueued jobId code now
  | claim jobId revision token now check => do
    let _ ← Jobs.claim jobId revision token now check
    pure ()
  | update jobId token progress checkpoint now check => Jobs.update jobId token progress checkpoint now check
  | publish jobId token entries now check maxResultBytes => Jobs.publish jobId token entries now check maxResultBytes
  | finish jobId token status summary error now check => Jobs.finish jobId token status summary error now check
  | change c check => do
    let _ ← Jobs.change c check
    pure ()
  | expire now => do
    let _ ← Jobs.expire now
    pure ()
  | provision principal => Work.write fun s => { s with principals := principal :: s.principals }

def run (sha256 : String → String) (a : JobAction) (s : JobStore) : Except JobFailure Unit × JobStore :=
  transaction (a.body sha256) s

def publishedSize (entries : List Json) : ℤ :=
  match publication entries with
  | .ok (_, size) => size
  | .error _ => 0

def account (a : JobAction) (h : JobHistory) : String → List ℤ :=
  match a with
  | publish jobId _ entries _ _ _ =>
    Function.update h.accounted jobId (h.accounted jobId ++ [publishedSize entries])
  | change c _ => if c.retry then Function.update h.accounted c.jobId [] else h.accounted
  | submit _ freshId _ => if h.store.jobs.get freshId = none then Function.update h.accounted freshId [] else h.accounted
  | _ => h.accounted

def promised (limits : Limits) (h : JobHistory) : JobAction → Prop
  | submit q _ _ => q.maxQueued ≤ limits.maxQueued ∧ q.maxActive ≤ limits.maxActive q.module q.handler
  | change c _ => c.maxQueued ≤ limits.maxQueued ∧
      ∀ row, h.store.jobs.get c.jobId = some row → c.maxActive ≤ limits.maxActive row.moduleId row.handlerId
  | finish _ _ status _ _ _ _ => status ∈ [.succeeded, .failed, .interrupted]
  | publish _ _ entries _ _ _ => ∀ entry ∈ entries, ∀ resource text, entry.field "resource" = some resource →
      resource.field "size_bytes" ≠ some (.float text)
  | _ => True

end JobAction

def JobHistory.next (sha256 : String → String) (h : JobHistory) (a : JobAction) : JobHistory :=
  match a.run sha256 h.store with
  | (.ok (), s) => ⟨s, a.account h⟩
  | (.error _, s) => { h with store := s }

def jobSystem (sha256 : String → String) (limits : Limits) : System JobHistory JobAction where
  start h := h.store.jobs = Table.empty ∧ h.store.requests = Table.empty ∧ h.store.results = Table.empty
  allowed h a := a.promised limits h
  next h a := h.next sha256 a

def Accounted (h : JobHistory) : Prop :=
  ∀ jobId row, h.store.jobs.get jobId = some row → row.resultBytes = (h.accounted jobId).sum

def Advances (s s' : JobStore) : Prop :=
  ∀ jobId row row', s.jobs.get jobId = some row → s'.jobs.get jobId = some row' →
    row' = row ∨ row.revision < row'.revision

variable {sha256 : String → String} {limits : Limits} {h : JobHistory} {a : JobAction}

theorem next_of_error {e : JobFailure} {s : JobStore} (he : a.run sha256 h.store = (.error e, s)) :
    h.next sha256 a = h := by
  unfold JobHistory.next
  rw [he]
  have hs := transaction_error he
  subst hs
  rfl

theorem next_of_ok {x : Unit} {s : JobStore} (ho : a.run sha256 h.store = (.ok x, s)) :
    h.next sha256 a = ⟨s, a.account h⟩ := by
  unfold JobHistory.next
  rw [ho]

variable {f : DurableJob → DurableJob} {p : DurableJob → Bool} {s s' : JobStore}

theorem Edited.get (h : Edited p f s s')
    (jobId : String) : s'.jobs.get jobId = (s.jobs.get jobId).map fun r => if p r then f r else r := by
  obtain ⟨hf, -, rfl⟩ := h
  exact Table.get_update _ _ _ hf jobId

theorem Edited.advances (h : Edited p f s s') (hp : ∀ r, (f r).revision = r.revision + 1) : Advances s s' := by
  intro jobId row row' hrow hrow'
  rw [h.get, hrow, Option.map_some, Option.some.injEq] at hrow'
  subst hrow'
  split
  · exact .inr (by rw [hp]; omega)
  · exact .inl rfl

theorem Edited.accounted {s' : JobStore}
    (he : Edited p f h.store s') (hf : ∀ r, (f r).resultBytes = r.resultBytes) (ha : Accounted h) :
    Accounted ⟨s', h.accounted⟩ := by
  intro jobId row' hrow'
  rw [he.get] at hrow'
  obtain ⟨row, hrow, rfl⟩ := Option.map_eq_some_iff.mp hrow'
  rw [← ha jobId row hrow]
  split
  · exact hf row
  · rfl

theorem advances_of_get_eq
    (hget : ∀ jobId row row', s.jobs.get jobId = some row → s'.jobs.get jobId = some row' → row' = row) :
    Advances s s' := fun jobId row row' hr hr' => .inl (hget jobId row row' hr hr')

end GameLink.Jobs

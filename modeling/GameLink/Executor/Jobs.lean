import Mathlib.Data.Nat.Notation

namespace GameLink.Executor

inductive Kind where
  | startup
  | verify
  | read
  | transaction
  deriving DecidableEq

inductive Failure where
  | connect
  | begin
  | storage
  | callback (e : ℕ)
  | rollback
  | commit
  | close
  deriving DecidableEq

/-- What is done with a connection while a job has it. The flag of `close` says whether the rollback of
`close_sync` succeeds. -/
inductive Op where
  | begin
  | write (n : ℕ)
  | commit
  | rollback
  | close (ok : Bool)
  deriving DecidableEq

/-- `SQLiteUnitOfWork` with its connection: what its open transaction has written, and what the database
has stored. -/
structure UnitOfWork where
  closed : Bool
  isOpen : Bool
  begun : Bool
  pending : List ℕ
  stored : List ℕ

structure Course where
  opens : Bool
  begins : Bool
  guarded : Bool
  ops : List Op
  result : Except Failure ℕ
  rollsBack : Bool
  commits : Bool
  closes : Bool

namespace UnitOfWork

variable (u : UnitOfWork)

def create (stored : List ℕ) : UnitOfWork := ⟨false, true, false, [], stored⟩

def inTransaction : Bool := !u.closed && u.begun

def rollback : UnitOfWork := { u with begun := false, pending := [] }

def commit : UnitOfWork := { u with begun := false, pending := [], stored := u.stored ++ u.pending }

def disconnect : UnitOfWork := { u.rollback with isOpen := false }

/-- `close_sync`: when its rollback raises, the connection is not closed and the unit of work is. -/
def closeSync (ok : Bool) : Except Failure Unit × UnitOfWork :=
  if u.closed then (.ok (), u)
  else if u.begun && !ok then (.error .close, { u with closed := true })
  else (.ok (), { u.disconnect with closed := true })

def apply : Op → UnitOfWork
  | .begin => if u.closed then u else { u with begun := true }
  | .write n =>
    if u.closed then u
    else if u.begun then { u with pending := u.pending ++ [n] }
    else { u with stored := u.stored ++ [n] }
  | .commit => if u.closed then u else u.commit
  | .rollback => if u.closed then u else u.rollback
  | .close ok => (u.closeSync ok).2

def beginSync (c : Course) : Except Failure Unit × UnitOfWork :=
  if !c.begins then (.error .begin, u)
  else if !c.guarded then (.error .storage, { u with begun := true })
  else (.ok (), { u with begun := true })

def rollbackSync (c : Course) : Except Failure Unit × UnitOfWork :=
  if c.rollsBack then (.ok (), u.rollback) else (.error .rollback, u)

def commitSync (c : Course) : Except Failure Unit × UnitOfWork :=
  if c.commits then (.ok (), u.commit) else (.error .commit, u)

end UnitOfWork

structure Run where
  outcome : Except Failure ℕ
  began : Bool
  called : ℕ
  own : List ℕ
  stored : List ℕ
  closed : Bool

def settle (c : Course) (u : UnitOfWork) : Except Failure ℕ × UnitOfWork :=
  match c.result with
  | .error e =>
    if u.inTransaction then
      match u.rollbackSync c with
      | (.error r, u) => (.error r, u)
      | (.ok (), u) => (.error e, u)
    else (.error e, u)
  | .ok v =>
    if u.inTransaction then
      match u.commitSync c with
      | (.error r, u) => (.error r, u)
      | (.ok (), u) => (.ok v, u)
    else (.ok v, u)

def conclude (c : Course) (outcome : Except Failure ℕ) (u : UnitOfWork) : Except Failure ℕ × UnitOfWork :=
  match u.closeSync c.closes with
  | (.error e, u) => (.error e, u)
  | (.ok (), u) => (outcome, u)

def runUnit (c : Course) (u : UnitOfWork) : Run :=
  match u.beginSync c with
  | (.error e, u) =>
    let r := conclude c (.error e) u
    ⟨r.1, false, 0, u.stored, r.2.stored, !r.2.isOpen⟩
  | (.ok (), u) =>
    let u := c.ops.foldl UnitOfWork.apply u
    let s := settle c u
    let r := conclude c s.1 s.2
    ⟨r.1, true, 1, u.stored, r.2.stored, !r.2.isOpen⟩

def runMaintenance (c : Course) (u : UnitOfWork) : Run :=
  let u := c.ops.foldl UnitOfWork.apply u
  ⟨c.result, false, 0, u.stored, u.disconnect.stored, !u.disconnect.isOpen⟩

def runJob (kind : Kind) (c : Course) (stored : List ℕ) : Run :=
  if !c.opens then ⟨.error .connect, false, 0, stored, stored, true⟩
  else
    match kind with
    | .startup => runMaintenance c (.create stored)
    | .verify => runMaintenance c (.create stored)
    | .read => runUnit c (.create stored)
    | .transaction => runUnit c (.create stored)

def Course.closing (c : Course) : Bool := c.closes && c.ops.all fun op => op ≠ .close false

namespace UnitOfWork

variable {u : UnitOfWork} {c : Course}

def Tidy (u : UnitOfWork) : Prop := u.closed = true → u.isOpen = false

theorem tidy_closeSync (h : u.Tidy) : ((u.closeSync true).2).Tidy := by
  unfold closeSync
  split
  · exact h
  split
  · rename_i hb
    rw [Bool.not_true, Bool.and_false] at hb
    exact absurd hb Bool.false_ne_true
  · exact fun _ => rfl

theorem tidy_apply (h : u.Tidy) {op : Op} (hop : op ≠ .close false) : (u.apply op).Tidy := by
  cases op with
  | close ok =>
    cases ok with
    | true => exact tidy_closeSync h
    | false => exact absurd rfl hop
  | write n =>
    unfold apply
    dsimp only
    split
    · exact h
    · split <;> exact h
  | _ =>
    unfold apply
    dsimp only
    split <;> exact h

theorem tidy_ops (h : u.Tidy) {ops : List Op} (hops : ∀ op ∈ ops, op ≠ .close false) : (ops.foldl apply u).Tidy := by
  induction ops generalizing u with
  | nil => exact h
  | cons op ops ih =>
    apply ih
    · exact tidy_apply h (hops op List.mem_cons_self)
    · exact fun op' hop' => hops op' (List.mem_cons_of_mem _ hop')

theorem stored_closeSync (ok : Bool) : (u.closeSync ok).2.stored = u.stored := by
  unfold closeSync
  split
  · rfl
  · split <;> rfl

theorem isOpen_closeSync (h : u.Tidy) : (u.closeSync true).2.isOpen = false := by
  unfold closeSync
  split
  · rename_i hc
    exact h hc
  split
  · rename_i hb
    rw [Bool.not_true, Bool.and_false] at hb
    exact absurd hb Bool.false_ne_true
  · rfl

theorem closeSync_ok (h : u.inTransaction = false) (ok : Bool) : (u.closeSync ok).1 = .ok () := by
  unfold inTransaction at h
  unfold closeSync
  split
  · rfl
  rename_i hc
  rw [Bool.not_eq_true] at hc
  rw [hc, Bool.not_false, Bool.true_and] at h
  rw [h, Bool.false_and, if_neg Bool.false_ne_true]

end UnitOfWork

section runJob

variable {kind : Kind} {c : Course} {stored : List ℕ} {u : UnitOfWork} {outcome : Except Failure ℕ}

theorem conclude_stored : (conclude c outcome u).2.stored = u.stored := by
  have h := UnitOfWork.stored_closeSync (u := u) c.closes
  unfold conclude
  split <;> rename_i heq <;> rw [heq] at h <;> exact h

theorem conclude_closed (hc : c.closing = true) (h : u.Tidy) : (conclude c outcome u).2.isOpen = false := by
  have hcloses : c.closes = true := (Bool.and_eq_true_iff.mp hc).1
  have h' := UnitOfWork.isOpen_closeSync h
  unfold conclude
  rw [hcloses]
  split <;> rename_i heq <;> rw [heq] at h' <;> exact h'

theorem conclude_fst (h : u.inTransaction = false) : (conclude c outcome u).1 = outcome := by
  have h' := UnitOfWork.closeSync_ok h c.closes
  unfold conclude
  split
  · rename_i heq
    rw [heq] at h'
    cases h'
  · rfl

theorem settle_tidy (h : u.Tidy) : (settle c u).2.Tidy := by
  have hr : (u.rollbackSync c).2.Tidy := by
    unfold UnitOfWork.rollbackSync
    split <;> exact h
  have hm : (u.commitSync c).2.Tidy := by
    unfold UnitOfWork.commitSync
    split <;> exact h
  unfold settle
  split
  · split
    · split <;> rename_i heq <;> rw [heq] at hr <;> exact hr
    · exact h
  split
  · split <;> rename_i heq <;> rw [heq] at hm <;> exact hm
  · exact h

theorem settle_cases : (settle c u).2.stored = u.stored ∨
    (settle c u).2.inTransaction = false ∧ ∃ v, (settle c u).1 = .ok v := by
  unfold settle
  split
  · left
    split
    · unfold UnitOfWork.rollbackSync
      split <;> rename_i heq <;> split at heq <;> rw [← (Prod.mk.inj heq).2] <;> rfl
    · rfl
  split
  · unfold UnitOfWork.commitSync
    split
    · left
      rename_i heq
      split at heq
      · cases heq
      · rw [← (Prod.mk.inj heq).2]
    right
    rename_i heq
    split at heq
    · rw [← (Prod.mk.inj heq).2]
      exact ⟨Bool.and_false _, _, rfl⟩
    · cases heq
  · exact .inl rfl

theorem runUnit_error {e : Failure} (h : (runUnit c u).outcome = .error e) : (runUnit c u).stored = (runUnit c u).own := by
  unfold runUnit at h ⊢
  split
  · exact conclude_stored
  rename_i u' heq
  rw [heq] at h
  dsimp only at h ⊢
  rw [conclude_stored]
  rcases settle_cases (c := c) (u := c.ops.foldl UnitOfWork.apply u') with hs | ⟨ht, v, hv⟩
  · exact hs
  · rw [conclude_fst ht, hv] at h
    cases h

theorem runUnit_called : (runUnit c u).called = if (runUnit c u).began then 1 else 0 := by
  unfold runUnit
  rcases u.beginSync c with ⟨_ | _, u'⟩ <;> rfl

theorem runUnit_closed (hc : c.closing = true) (hu : u.closed = false) : (runUnit c u).closed = true := by
  have hops : ∀ op ∈ c.ops, op ≠ .close false := fun op hop =>
    of_decide_eq_true (List.all_eq_true.mp (Bool.and_eq_true_iff.mp hc).2 op hop)
  have hbegun : (u.beginSync c).2.closed = false := by
    unfold UnitOfWork.beginSync
    split
    · exact hu
    · split <;> exact hu
  have htidy : (u.beginSync c).2.Tidy := fun h => absurd (hbegun.symm.trans h) Bool.false_ne_true
  unfold runUnit
  split <;> rename_i heq <;> rw [heq] at htidy <;> dsimp only at htidy ⊢
  · rw [conclude_closed hc htidy]
    rfl
  · rw [conclude_closed hc (settle_tidy (UnitOfWork.tidy_ops htidy hops))]
    rfl

theorem runJob_error {e : Failure} (h : (runJob kind c stored).outcome = .error e) :
    (runJob kind c stored).stored = (runJob kind c stored).own := by
  unfold runJob at h ⊢
  split
  · rfl
  rename_i ho
  rw [if_neg ho] at h
  cases kind with
  | startup => rfl
  | verify => rfl
  | read => exact runUnit_error h
  | transaction => exact runUnit_error h

theorem runJob_called : (runJob kind c stored).called = if (runJob kind c stored).began then 1 else 0 := by
  unfold runJob
  by_cases ho : (!c.opens) = true
  · rw [if_pos ho]
    rfl
  rw [if_neg ho]
  cases kind with
  | startup => rfl
  | verify => rfl
  | read => exact runUnit_called
  | transaction => exact runUnit_called

theorem runJob_closed (hc : c.closing = true) : (runJob kind c stored).closed = true := by
  unfold runJob
  split
  · rfl
  cases kind with
  | startup => rfl
  | verify => rfl
  | read => exact runUnit_closed hc rfl
  | transaction => exact runUnit_closed hc rfl

end runJob

end GameLink.Executor

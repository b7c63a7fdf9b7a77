import GameLink.Contracts.Delivery
import GameLink.Foundation.Table
import GameLink.Foundation.Transaction
import GameLink.Foundation.Versioned

namespace GameLink.Versions

open Foundation Work Contracts

structure RecordKey where
  moduleId : String
  collection : String
  ownerKind : String
  ownerUserId : String
  ownerGrantId : String
  ownerGrantRevision : ℕ
  recordKey : String
  deriving DecidableEq

structure RecordRow where
  key : RecordKey
  schemaVersion : ℕ
  payload : Json
  revision : ℕ

structure VersionedRecord where
  key : String
  revision : ℕ
  value : Json
  deriving DecidableEq

structure RecordCollection where
  moduleId : String
  name : String
  schemaVersion : ℕ
  ownerKind : String
  ownerUserId : String
  ownerGrantId : String
  ownerGrantRevision : ℕ

def RecordCollection.row (c : RecordCollection) (key : String) : RecordKey :=
  ⟨c.moduleId, c.name, c.ownerKind, c.ownerUserId, c.ownerGrantId, c.ownerGrantRevision, key⟩

structure Fence where
  registration : Option Failure
  body : Option Failure
  commit : Option Failure

abbrev RecordTable := Table RecordRow.key

abbrev RecordWork := Work RecordTable Failure

def raiseAny (e : Option Failure) : RecordWork Unit :=
  match e with
  | none => pure ()
  | some e => raise e

def guardWrite (fence : Fence) : RecordWork Unit := do
  raiseAny fence.body
  addCommitGuard fun _ => fence.commit

def staleRecord (t : RecordTable) (k : RecordKey) (expected : ℕ) : Failure :=
  .revisionConflict "module_record" expected ((t.get k).elim 0 RecordRow.revision)

def atRecord (k : RecordKey) (expected : ℕ) (r : RecordRow) : Bool := decide (r.key = k) && decide (r.revision = expected)

def create (c : RecordCollection) (key : String) (value : Json) (fence : Fence) : RecordWork VersionedRecord := do
  raiseAny fence.registration
  guardWrite fence
  let t ← read
  let t' ← orRaise (t.insert ⟨c.row key, c.schemaVersion, value, 1⟩) .uniqueConstraintViolation
  write fun _ => t'
  pure ⟨key, 1, value⟩

def replace (c : RecordCollection) (key : String) (value : Json) (expected : ℕ) (fence : Fence) :
    RecordWork VersionedRecord := do
  raiseAny fence.registration
  raiseIf (expected < 1) (.valueError "expected revision must be positive")
  guardWrite fence
  let t ← read
  write fun t => t.update (atRecord (c.row key) expected)
    (fun r => { r with payload := value, revision := expected + 1, schemaVersion := c.schemaVersion }) fun _ => rfl
  raiseIf (t.matching (atRecord (c.row key) expected) ≠ 1) (staleRecord t (c.row key) expected)
  pure ⟨key, expected + 1, value⟩

def delete (c : RecordCollection) (key : String) (expected : ℕ) (fence : Fence) : RecordWork Unit := do
  raiseAny fence.registration
  raiseIf (expected < 1) (.valueError "expected revision must be positive")
  guardWrite fence
  let t ← read
  write fun t => t.delete (atRecord (c.row key) expected)
  raiseIf (t.matching (atRecord (c.row key) expected) ≠ 1) (staleRecord t (c.row key) expected)

inductive RecordCall where
  | create (c : RecordCollection) (key : String) (value : Json) (fence : Fence)
  | replace (c : RecordCollection) (key : String) (value : Json) (expected : ℕ) (fence : Fence)
  | delete (c : RecordCollection) (key : String) (expected : ℕ) (fence : Fence)

def RecordCall.run (t : RecordTable) : RecordCall → RecordTable
  | create c key value fence => (transaction (Versions.create c key value fence) t).2
  | replace c key value expected fence => (transaction (Versions.replace c key value expected fence) t).2
  | delete c key expected fence => (transaction (Versions.delete c key expected fence) t).2

def records : System RecordTable RecordCall where
  start t := t = .empty
  allowed _ _ := True
  next := RecordCall.run

def RecordRow.version (r : RecordRow) : Versioned Json := ⟨r.revision, r.payload⟩

def recordVersion (k : RecordKey) (t : RecordTable) : Option (Versioned Json) := (t.get k).map RecordRow.version

section

variable {t t' : RecordTable} {k : RecordKey} {c : RecordCollection} {key : String} {value : Json} {expected : ℕ}
  {fence : Fence}

variable {u u' : UnitOfWork RecordTable Failure} {x : Unit}

theorem gives_raiseAny {e : Option Failure} : (raiseAny e).Gives u x u' ↔ e = none ∧ u = u' := by
  cases e with
  | none => simp [raiseAny]
  | some e => simp [raiseAny]

theorem guardWrite_store (h : (guardWrite fence).Gives u x u') : u'.store = u.store := by
  simp only [guardWrite, gives_bind, gives_raiseAny, gives_addCommitGuard] at h
  obtain ⟨_, _, ⟨-, rfl⟩, rfl⟩ := h
  rfl

variable {record : VersionedRecord}

theorem create_ok (h : transaction (create c key value fence) t = (.ok record, t')) :
    t.insert ⟨c.row key, c.schemaVersion, value, 1⟩ = some t' := by
  obtain ⟨gs, h, -⟩ := transaction_ok.mp h
  simp only [create, gives_bind, gives_raiseAny, gives_read, gives_orRaise, gives_write, gives_pure] at h
  obtain ⟨_, _, ⟨-, rfl⟩, _, u, hguard, _, _, ⟨rfl, rfl⟩, t'', _, ⟨hinsert, rfl⟩, _, _, rfl, -, hstore⟩ := h
  rw [guardWrite_store hguard] at hinsert
  rw [hinsert]
  exact congrArg some (congrArg UnitOfWork.store hstore)

theorem replace_ok
    (h : transaction (replace c key value expected fence) t = (.ok record, t')) :
    (∃ r, t.get (c.row key) = some r ∧ r.revision = expected) ∧ t' = t.update (atRecord (c.row key) expected)
        (fun r => { r with payload := value, revision := expected + 1, schemaVersion := c.schemaVersion })
        fun _ => rfl := by
  obtain ⟨gs, h, -⟩ := transaction_ok.mp h
  simp only [replace, gives_bind, gives_raiseAny, gives_raiseIf, gives_read, gives_write, gives_pure] at h
  obtain ⟨_, _, ⟨-, rfl⟩, _, _, ⟨-, rfl⟩, _, u, hguard, _, _, ⟨rfl, rfl⟩, _, _, rfl, _, _, ⟨hone, rfl⟩, -, hstore⟩ := h
  have hg := guardWrite_store hguard
  rw [hg] at hone hstore
  obtain ⟨r, hr, hrevision⟩ := (Table.matching_eq_one _ (c.row key) fun r : RecordRow =>
    decide (r.revision = expected)).mp (not_not.mp hone)
  exact ⟨⟨r, hr, of_decide_eq_true hrevision⟩, (congrArg UnitOfWork.store hstore).symm⟩

theorem delete_ok (h : transaction (delete c key expected fence) t = (.ok x, t')) :
    (∃ r, t.get (c.row key) = some r ∧ r.revision = expected) ∧ t' = t.delete (atRecord (c.row key) expected) := by
  obtain ⟨gs, h, -⟩ := transaction_ok.mp h
  simp only [delete, gives_bind, gives_raiseAny, gives_raiseIf, gives_read, gives_write] at h
  obtain ⟨_, _, ⟨-, rfl⟩, _, _, ⟨-, rfl⟩, _, u, hguard, _, _, ⟨rfl, rfl⟩, _, _, rfl, hone, hstore⟩ := h
  have hg := guardWrite_store hguard
  rw [hg] at hone hstore
  obtain ⟨r, hr, hrevision⟩ := (Table.matching_eq_one _ (c.row key) fun r : RecordRow =>
    decide (r.revision = expected)).mp (not_not.mp hone)
  exact ⟨⟨r, hr, of_decide_eq_true hrevision⟩, (congrArg UnitOfWork.store hstore).symm⟩

theorem atRecord_key {r : RecordRow} (h : atRecord k expected r = true) : r.key = k := by
  simp only [atRecord, Bool.and_eq_true, decide_eq_true_eq] at h
  exact h.1

theorem RecordCall.turn (t : RecordTable) (k : RecordKey) (call : RecordCall) :
    Turn (recordVersion k t) (recordVersion k (call.run t)) := by
  cases call with
  | create c key value fence =>
    change Turn _ (recordVersion k (transaction (Versions.create c key value fence) t).2)
    rcases transaction_cases (Versions.create c key value fence) t with ⟨record, t', h⟩ | ⟨e, h⟩
    · rw [h]
      have hinsert := create_ok h
      by_cases hk : c.row key = k
      · have hnone : recordVersion k t = none := by
          rw [recordVersion, ← hk]
          exact congrArg _ (Table.get_of_insert hinsert)
        have hnew : recordVersion k t' = some ⟨1, value⟩ := by
          rw [recordVersion, Table.get_insert hinsert, if_pos hk]
          rfl
        rw [hnone, hnew]
        exact .created value
      · have hsame : recordVersion k t' = recordVersion k t := by
          rw [recordVersion, Table.get_insert hinsert, if_neg hk]
          rfl
        rw [hsame]
        exact .kept _
    · rw [h]
      exact .kept _
  | replace c key value expected fence =>
    change Turn _ (recordVersion k (transaction (Versions.replace c key value expected fence) t).2)
    rcases transaction_cases (Versions.replace c key value expected fence) t with ⟨record, t', h⟩ | ⟨e, h⟩
    · rw [h]
      obtain ⟨⟨r, hr, rfl⟩, rfl⟩ := replace_ok h
      by_cases hk : k = c.row key
      · subst hk
        simp only [recordVersion, Table.get_update, hr, Option.map_some, atRecord, Table.key_of_get hr, decide_true,
          Bool.and_self, ↓reduceIte]
        exact .replaced r.version value
      · rw [recordVersion, recordVersion, Table.get_update_other hk fun r' hr' => atRecord_key hr']
        exact .kept _
    · rw [h]
      exact .kept _
  | delete c key expected fence =>
    change Turn _ (recordVersion k (transaction (Versions.delete c key expected fence) t).2)
    rcases transaction_cases (Versions.delete c key expected fence) t with ⟨x, t', h⟩ | ⟨e, h⟩
    · rw [h]
      obtain ⟨⟨r, hr, rfl⟩, rfl⟩ := delete_ok h
      by_cases hk : k = c.row key
      · subst hk
        simp only [recordVersion, Table.get_delete, hr, Option.map_some, atRecord, Table.key_of_get hr, decide_true,
          Bool.and_self, Option.filter, Bool.not_true, Bool.false_eq_true, ↓reduceIte, Option.map_none]
        exact .removed r.version
      · rw [recordVersion, recordVersion, Table.get_delete_other hk fun r' hr' => atRecord_key hr']
        exact .kept _
    · rw [h]
      exact .kept _

end

end GameLink.Versions

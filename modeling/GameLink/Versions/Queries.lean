import GameLink.Versions.Records
import Mathlib.Data.List.Infix
import Mathlib.Algebra.Order.Ring.Rat

namespace GameLink.Versions.Queries

open Foundation Contracts

inductive Scalar where
  | null
  | bool (b : Bool)
  | int (i : ℤ)
  | float (x : ℚ)
  | str (s : String)
deriving DecidableEq

inductive QueryOperator where
  | equals
  | startsWith

structure DeclaredIndexQuery where
  indexName : String
  operator : QueryOperator
  value : Scalar
  limit : ℕ
  limited : 1 ≤ limit ∧ limit ≤ 100

/-- What SQLite does with the numbers that the query leaves to it: `real` reads an integer beyond 64 bits, and `text` is
the cast of a real to TEXT. -/
structure Sqlite where
  real : ℤ → ℚ
  text : ℚ → String

inductive SqlValue where
  | null
  | integer (i : ℤ)
  | real (x : ℚ)
  | text (s : String)
deriving DecidableEq

def fits (i : ℤ) : Bool := -2 ^ 63 ≤ i && i < 2 ^ 63

def bit (b : Bool) : ℤ := if b then 1 else 0

def bindValue : Scalar → Except Failure SqlValue
  | .null => .ok .null
  | .bool b => .ok (.integer (bit b))
  | .int i => if fits i then .ok (.integer i) else .error .overflowError
  | .float x => .ok (.real x)
  | .str s => .ok (.text s)

def jsonExtract (sql : Sqlite) : Option Scalar → SqlValue
  | none => .null
  | some .null => .null
  | some (.bool b) => .integer (bit b)
  | some (.int i) => if fits i then .integer i else .real (sql.real i)
  | some (.float x) => .real x
  | some (.str s) => .text s

def SqlValue.number : SqlValue → Option ℚ
  | .integer i => some i
  | .real x => some x
  | _ => none

def SqlValue.eq (a b : SqlValue) : Bool :=
  match a, b with
  | .text s, .text s' => s = s'
  | a, b => a.number.isSome && a.number = b.number

def castText (sql : Sqlite) : SqlValue → Option String
  | .null => none
  | .integer i => some (toString i)
  | .real x => some (sql.text x)
  | .text s => some s

def like : List Char → List Char → Bool
  | [], s => s.isEmpty
  | '%' :: p, s => s.tails.any fun t => like p t
  | '_' :: p, s =>
    match s with
    | [] => false
    | _ :: s => like p s
  | ['\\'], _ => false
  | '\\' :: c :: p, s =>
    match s with
    | [] => false
    | d :: s => c.toLower = d.toLower && like p s
  | c :: p, s =>
    match s with
    | [] => false
    | d :: s => c.toLower = d.toLower && like p s

def replaceChar (c : Char) (by' : List Char) (s : List Char) : List Char := s.flatMap fun d => if d = c then by' else [d]

def escaped (s : String) : List Char :=
  replaceChar '_' ['\\', '_'] (replaceChar '%' ['\\', '%'] (replaceChar '\\' ['\\', '\\'] s.toList))

def inCollection (c : RecordCollection) (r : RecordRow) : Bool := r.key = c.row r.key.recordKey

def select (t : RecordTable) (c : RecordCollection) (p : RecordRow → Bool) (limit offset : ℕ) : List RecordRow :=
  (((t.rows.filter fun r => inCollection c r && p r).insertionSort fun a b => a.key.recordKey ≤ b.key.recordKey).drop
    offset).take limit

def record (r : RecordRow) : VersionedRecord := ⟨r.key.recordKey, r.revision, r.payload⟩

structure RecordPage where
  records : List VersionedRecord
  nextCursor : Option ℕ

/-- The rows that the statement of a query selects; `member` is what the path `$.field` of an index addresses. -/
def condition (sql : Sqlite) (member : String → Json → Option Scalar) (field : String) (q : DeclaredIndexQuery) :
    Except Failure (RecordRow → Bool) :=
  match q.operator with
  | .equals => (bindValue q.value).map fun v r => (jsonExtract sql (member field r.payload)).eq v
  | .startsWith =>
    match q.value with
    | .str s => .ok fun r => (castText sql (jsonExtract sql (member field r.payload))).any fun text =>
        like (escaped s ++ ['%']) text.toList
    | _ => .error (.valueError "prefix queries require a string value")

def query (sql : Sqlite) (member : String → Json → Option Scalar) (indexes : List (String × String)) (t : RecordTable)
    (c : RecordCollection) (q : DeclaredIndexQuery) (cursor : Option ℕ) : Except Failure RecordPage :=
  match indexes.find? fun index => index.1 = q.indexName with
  | none => .error (.valueError "index is not declared for this collection")
  | some index =>
    let offset := cursor.getD 0
    if 2 ^ 31 < offset then .error (.valueError "cursor is invalid")
    else
      (condition sql member index.2 q).map fun p =>
        let records := (select t c p (q.limit + 1) offset).map record
        { records := records.take q.limit,
          nextCursor := if q.limit < records.length then some (offset + q.limit) else none }

inductive Follows (next : Option ℕ → Except Failure RecordPage) : Option ℕ → List VersionedRecord → Prop
  | last {cursor : Option ℕ} {page : RecordPage} : next cursor = .ok page → page.nextCursor = none →
      Follows next cursor page.records
  | more {cursor : Option ℕ} {page : RecordPage} {offset : ℕ} {rest : List VersionedRecord} : next cursor = .ok page →
      page.nextCursor = some offset → Follows next (some offset) rest → Follows next cursor (page.records ++ rest)

/-! What a query means. -/

def Scalar.same : Scalar → Scalar → Bool
  | .null, .null => true
  | .bool b, .bool b' => b = b'
  | .str s, .str s' => s = s'
  | .int i, .int i' => i = i'
  | .int i, .float x => (i : ℚ) = x
  | .float x, .int i => x = i
  | .float x, .float x' => x = x'
  | _, _ => false

def selected (t : RecordTable) (c : RecordCollection) (p : RecordRow → Bool) : List VersionedRecord :=
  ((t.rows.filter fun r => inCollection c r && p r).insertionSort
    fun a b => a.key.recordKey ≤ b.key.recordKey).map record

def fold (s : String) : List Char := s.toList.map Char.toLower

def Sqlite.read (sql : Sqlite) (i : ℤ) : ℚ := if fits i then i else sql.real i

section Like

end Like

section Condition

variable {sql : Sqlite} {member : String → Json → Option Scalar} {field : String} {q : DeclaredIndexQuery}

section

attribute [local simp] SqlValue.eq SqlValue.number

end

end Condition

section Pages

variable {rows : List RecordRow} {limit : ℕ} {l : List VersionedRecord}

theorem Follows.page {next : Option ℕ → Except Failure RecordPage} {cursor : Option ℕ} (h : Follows next cursor l) :
    ∃ page, next cursor = .ok page := by
  cases h with
  | last hpage _ => exact ⟨_, hpage⟩
  | more hpage _ _ => exact ⟨_, hpage⟩

end Pages

section Exact

variable {sql : Sqlite} {member : String → Json → Option Scalar} {indexes : List (String × String)} {t : RecordTable}
  {c : RecordCollection} {q : DeclaredIndexQuery} {p p' : RecordRow → Bool}

end Exact

section Samples

def entry (field : String) : Json → Option Scalar
  | .obj entries =>
    match entries.lookup field with
    | some .null => some .null
    | some (.bool b) => some (.bool b)
    | some (.int i) => some (.int i)
    | some (.str s) => some (.str s)
    | _ => none
  | _ => none

end Samples

end GameLink.Versions.Queries

import Mathlib.Data.List.Sort

namespace GameLink.Foundation

inductive Json where
  | null
  | bool (b : Bool)
  | int (i : ℤ)
  | float (text : String)
  | str (s : String)
  | arr (items : List Json)
  | obj (entries : List (String × Json))
  deriving Inhabited

namespace Json

def hexDigit (n : ℕ) : Char := if n < 10 then Char.ofNat (48 + n) else Char.ofNat (87 + n)

def escapeChar (c : Char) : String :=
  if c = '"' then "\\\""
  else if c = '\\' then "\\\\"
  else if c = '\n' then "\\n"
  else if c = '\r' then "\\r"
  else if c = '\t' then "\\t"
  else if c = Char.ofNat 8 then "\\b"
  else if c = Char.ofNat 12 then "\\f"
  else if c.toNat < 32 then "\\u00" ++ String.ofList [hexDigit (c.toNat / 16), hexDigit (c.toNat % 16)]
  else String.ofList [c]

def quote (s : String) : String := "\"" ++ String.join (s.toList.map escapeChar) ++ "\""

def sortEntries (entries : List (String × String)) : List (String × String) :=
  entries.insertionSort fun a b => a.1 ≤ b.1

def join : List String → String
  | [] => ""
  | [s] => s
  | s :: t :: rest => s ++ "," ++ join (t :: rest)

mutual

def dumps : Json → String
  | null => "null"
  | bool true => "true"
  | bool false => "false"
  | int i => toString i
  | float text => text
  | str s => quote s
  | arr items => "[" ++ join (dumpsItems items) ++ "]"
  | obj entries => "\x7b" ++ join ((sortEntries (dumpsEntries entries)).map fun e => quote e.1 ++ ":" ++ e.2) ++ "\x7d"

def dumpsItems : List Json → List String
  | [] => []
  | v :: rest => dumps v :: dumpsItems rest

def dumpsEntries : List (String × Json) → List (String × String)
  | [] => []
  | (k, v) :: rest => (k, dumps v) :: dumpsEntries rest

end

def escapeUnit (n : ℕ) : List Char :=
  ['\\', 'u', hexDigit (n / 4096 % 16), hexDigit (n / 256 % 16), hexDigit (n / 16 % 16), hexDigit (n % 16)]

def escapeNonAscii (c : Char) : List Char :=
  let n := c.toNat
  if 32 ≤ n ∧ n ≤ 126 then [c]
  else if n < 65536 then escapeUnit n
  else escapeUnit (55296 + (n - 65536) / 1024) ++ escapeUnit (56320 + (n - 65536) % 1024)

/-- The text under `ensure_ascii`: only strings hold other characters, and there each is escaped. -/
def dumpsAscii (v : Json) : String := String.ofList (v.dumps.toList.flatMap escapeNonAscii)

def byteSize (v : Json) : ℕ := v.dumps.utf8ByteSize

mutual

def depthWithin : ℕ → Json → Bool
  | _, null => true
  | _, bool _ => true
  | _, int _ => true
  | _, float _ => true
  | _, str _ => true
  | n, arr items => itemsWithin n items
  | n, obj entries => entriesWithin n entries

def itemsWithin : ℕ → List Json → Bool
  | _, [] => true
  | 0, _ :: _ => false
  | n + 1, v :: rest => depthWithin n v && itemsWithin (n + 1) rest

def entriesWithin : ℕ → List (String × Json) → Bool
  | _, [] => true
  | 0, _ :: _ => false
  | n + 1, (_, v) :: rest => depthWithin n v && entriesWithin (n + 1) rest

end

def entries : Json → List (String × Json)
  | obj entries => entries
  | _ => []

def isObject : Json → Bool
  | obj _ => true
  | _ => false

def field (v : Json) (k : String) : Option Json := v.entries.lookup k

def setField (v : Json) (k : String) (w : Json) : Json :=
  if v.entries.any fun e => e.1 == k then obj (v.entries.map fun e => if e.1 = k then (k, w) else e)
  else obj (v.entries ++ [(k, w)])

mutual

def beq : Json → Json → Bool
  | null, null => true
  | bool a, bool b => a == b
  | int a, int b => a == b
  | float a, float b => a == b
  | str a, str b => a == b
  | arr a, arr b => beqItems a b
  | obj a, obj b => beqEntries a b
  | _, _ => false

def beqItems : List Json → List Json → Bool
  | [], [] => true
  | a :: as, b :: bs => beq a b && beqItems as bs
  | _, _ => false

def beqEntries : List (String × Json) → List (String × Json) → Bool
  | [], [] => true
  | (j, a) :: as, (k, b) :: bs => j == k && (beq a b && beqEntries as bs)
  | _, _ => false

end

mutual

theorem beq_self : ∀ v : Json, beq v v = true
  | null => rfl
  | bool b => by simp [beq]
  | int i => by simp [beq]
  | float text => by simp [beq]
  | str s => by simp [beq]
  | arr items => by simpa [beq] using beqItems_self items
  | obj entries => by simpa [beq] using beqEntries_self entries

theorem beqItems_self : ∀ l : List Json, beqItems l l = true
  | [] => rfl
  | v :: rest => by simp [beqItems, beq_self v, beqItems_self rest]

theorem beqEntries_self : ∀ l : List (String × Json), beqEntries l l = true
  | [] => rfl
  | (k, v) :: rest => by simp [beqEntries, beq_self v, beqEntries_self rest]

end

mutual

theorem eq_of_beq : ∀ v w : Json, beq v w = true → v = w
  | null, w, h => by cases w <;> simp_all [beq]
  | bool b, w, h => by cases w <;> simp_all [beq]
  | int i, w, h => by cases w <;> simp_all [beq]
  | float text, w, h => by cases w <;> simp_all [beq]
  | str s, w, h => by cases w <;> simp_all [beq]
  | arr items, w, h => by
    cases w with
    | arr items' => rw [eq_of_beqItems items items' (by simpa [beq] using h)]
    | _ => simp [beq] at h
  | obj entries, w, h => by
    cases w with
    | obj entries' => rw [eq_of_beqEntries entries entries' (by simpa [beq] using h)]
    | _ => simp [beq] at h

theorem eq_of_beqItems : ∀ l m : List Json, beqItems l m = true → l = m
  | [], m, h => by cases m <;> simp_all [beqItems]
  | v :: rest, m, h => by
    cases m with
    | nil => simp [beqItems] at h
    | cons w rest' =>
      obtain ⟨hv, hr⟩ := Bool.and_eq_true_iff.mp (by simpa only [beqItems] using h)
      rw [eq_of_beq v w hv, eq_of_beqItems rest rest' hr]

theorem eq_of_beqEntries : ∀ l m : List (String × Json), beqEntries l m = true → l = m
  | [], m, h => by cases m <;> simp_all [beqEntries]
  | (k, v) :: rest, m, h => by
    cases m with
    | nil => simp [beqEntries] at h
    | cons w rest' =>
      obtain ⟨hk, h⟩ := Bool.and_eq_true_iff.mp (by simpa only [beqEntries] using h)
      obtain ⟨hv, hr⟩ := Bool.and_eq_true_iff.mp h
      obtain ⟨k', w⟩ := w
      rw [eq_of_beq v w hv, eq_of_beqEntries rest rest' hr, beq_iff_eq.mp hk]

end

instance : DecidableEq Json := fun v w =>
  decidable_of_iff (beq v w = true) ⟨eq_of_beq v w, fun h => h ▸ beq_self v⟩

end Json

end GameLink.Foundation

import Mathlib.Algebra.Order.Ring.Rat
import GameLink.Contracts.Identity

namespace GameLink.Schemas

open Contracts

inductive Value where
  | null
  | bool (b : Bool)
  | int (i : ℤ)
  | float (x : Option ℚ)
  | str (s : String)
  | arr (items : List Value)
  | obj (entries : List (String × Value))

inductive Kind where
  | string
  | integer
  | number
  | boolean
  deriving DecidableEq

structure Bounds where
  enum : Option (List Value)
  minimum : Option ℚ
  maximum : Option ℚ
  minLength : Option ℤ
  maxLength : Option ℤ

inductive Schema where
  | object (properties : List (String × Schema)) (required : List String)
  | array (items : Schema)
  | scalar (kind : Kind) (bounds : Bounds)

namespace Value

def numeric : Value → Option ℚ
  | bool b => some (if b then 1 else 0)
  | int i => some i
  | float x => x
  | _ => none

def same (a b : Value) : Bool :=
  match a, b with
  | null, null => true
  | str s, str t => s = t
  | a, b =>
    match a.numeric, b.numeric with
    | some x, some y => x = y
    | _, _ => false

def length : Value → ℤ
  | str s => s.length
  | _ => 0

def finite : Value → Bool
  | float x => x.isSome
  | _ => true

end Value

mutual

def Value.Proper : Value → Prop
  | .arr items => properItems items
  | .obj entries => (entries.map fun e => e.1).Nodup ∧ properEntries entries
  | _ => True

def properItems : List Value → Prop
  | [] => True
  | v :: rest => v.Proper ∧ properItems rest

def properEntries : List (String × Value) → Prop
  | [] => True
  | (_, v) :: rest => v.Proper ∧ properEntries rest

end

mutual

def Schema.Proper : Schema → Prop
  | .object properties _ => (properties.map fun e => e.1).Nodup ∧ properProperties properties
  | .array items => items.Proper
  | .scalar _ _ => True

def properProperties : List (String × Schema) → Prop
  | [] => True
  | (_, s) :: rest => s.Proper ∧ properProperties rest

end

structure Reading where
  value : Value
  schema : Option Schema
  properties : Option (List (String × Schema))

namespace Freeze

def schemaKeys : List String :=
  ["type", "properties", "required", "items", "enum", "description", "minimum", "maximum", "minLength", "maxLength",
    "additionalProperties"]

def only (allowed : List String) (fields : List (String × Reading)) : Bool := fields.all fun e => e.1 ∈ allowed

def field (name : String) (fields : List (String × Reading)) : Option Value := (fields.lookup name).map Reading.value

def floatLimit : ℕ := 2 ^ 1024 - 2 ^ 970

/-- `_matches_schema_type`; an overflow leaves the schema unread as well. -/
def matchesType : Kind → Value → Bool
  | .string, .str _ => true
  | .integer, .int _ => true
  | .number, .int i => i.natAbs < floatLimit
  | .number, .float x => x.isSome
  | .boolean, .bool _ => true
  | _, _ => false

def distinct : List Value → Bool
  | [] => true
  | v :: rest => rest.all (fun w => !v.same w) && distinct rest

def enum (kind : Kind) (fields : List (String × Reading)) : Option (Option (List Value)) :=
  match field "enum" fields with
  | none => some none
  | some (.arr values) =>
    if !values.isEmpty && values.all Value.finite && distinct values && values.all (matchesType kind) then some (some values)
    else none
  | some _ => none

def bound (name : String) (floats : Bool) (nonNegative : Bool) (fields : List (String × Reading)) : Option (Option ℚ) :=
  match field name fields with
  | none => some none
  | some (.int i) => if nonNegative && i < 0 then none else some (some i)
  | some (.float (some x)) => if floats then some (some x) else none
  | some _ => none

def ordered (lower upper : Option ℚ) : Bool :=
  match lower, upper with
  | some l, some u => l ≤ u
  | _, _ => true

def within (measure : Value → Option ℚ) (lower upper : Option ℚ) (values : List Value) : Bool :=
  values.all fun v =>
    match measure v with
    | none => true
    | some x => lower.all (fun l => l ≤ x) && upper.all fun u => x ≤ u

/-- The two bounds of `_bounded_pair` under these names, in order and kept by the choices -/
def pair (names : String × String) (floats nonNegative : Bool) (measure : Value → Option ℚ) (values : Option (List Value))
    (fields : List (String × Reading)) : Option (Option ℚ × Option ℚ) := do
  let lower ← bound names.1 floats nonNegative fields
  let upper ← bound names.2 floats nonNegative fields
  if ordered lower upper && within measure lower upper (values.getD []) then some (lower, upper) else none

/-- The bounds of `_freeze_scalar_constraints` for one kind, with the keys it allows beside the common ones -/
def bounds (kind : Kind) (values : Option (List Value)) (fields : List (String × Reading)) :
    List String × Option Bounds :=
  match kind with
  | .boolean => ([], some ⟨values, none, none, none, none⟩)
  | .string =>
    (["minLength", "maxLength"],
      (pair ("minLength", "maxLength") false true (fun v => some v.length) values fields).map fun p =>
        ⟨values, none, none, p.1.map Rat.num, p.2.map Rat.num⟩)
  | .integer =>
    (["minimum", "maximum"], (pair ("minimum", "maximum") false false Value.numeric values fields).map fun p =>
        ⟨values, p.1, p.2, none, none⟩)
  | .number =>
    (["minimum", "maximum"],
      (pair ("minimum", "maximum") true false Value.numeric values fields).map fun p => ⟨values, p.1, p.2, none, none⟩)

def scalar (kind : Kind) (fields : List (String × Reading)) : Option Schema := do
  let values ← enum kind fields
  let (allowed, frozen) := bounds kind values fields
  if only (["type", "description", "enum"] ++ allowed) fields then frozen.map (Schema.scalar kind) else none

def required (properties : List (String × Schema)) (fields : List (String × Reading)) : Option (List String) :=
  match field "required" fields with
  | none => some []
  | some (.arr items) => do
    let names ← items.mapM fun v =>
      match v with
      | .str name => if (properties.lookup name).isSome then some name else none
      | _ => none
    if names.Nodup then some names else none
  | some _ => none

def closedMapping (fields : List (String × Reading)) : Bool :=
  match field "additionalProperties" fields with
  | none => true
  | some (.bool b) => !b
  | some _ => false

def properties (fields : List (String × Reading)) : Option (List (String × Schema)) :=
  match fields.lookup "properties" with
  | none => some []
  | some r => r.properties

def object (fields : List (String × Reading)) : Option Schema := do
  let properties ← properties fields
  let names ← required properties fields
  if closedMapping fields && only ["type", "properties", "required", "description", "additionalProperties"] fields then
    some (.object properties names)
  else none

def array (fields : List (String × Reading)) : Option Schema := do
  let r ← fields.lookup "items"
  let items ← r.schema
  if only ["type", "items", "description"] fields then some (.array items) else none

def described (fields : List (String × Reading)) : Bool :=
  match field "description" fields with
  | none => true
  | some (.str text) => identifier text
  | some _ => false

def assemble (fields : List (String × Reading)) : Option Schema :=
  if !only schemaKeys fields || !described fields then none
  else
    match field "type" fields with
    | some (.str "object") => object fields
    | some (.str "array") => array fields
    | some (.str "string") => scalar .string fields
    | some (.str "integer") => scalar .integer fields
    | some (.str "number") => scalar .number fields
    | some (.str "boolean") => scalar .boolean fields
    | _ => none

end Freeze

mutual

def freezeInputSchema : Value → Option Schema
  | .obj entries => Freeze.assemble (readEntries entries)
  | _ => none

def readEntries : List (String × Value) → List (String × Reading)
  | [] => []
  | (key, v) :: rest => (key, ⟨v, freezeInputSchema v, readProperties v⟩) :: readEntries rest

def readProperties : Value → Option (List (String × Schema))
  | .obj entries => readChildren entries
  | _ => none

def readChildren : List (String × Value) → Option (List (String × Schema))
  | [] => some []
  | (name, child) :: rest =>
    if identifier name then
      match freezeInputSchema child, readChildren rest with
      | some schema, some more => some ((name, schema) :: more)
      | _, _ => none
    else none

end

end GameLink.Schemas

import GameLink.Schemas.Contract

namespace GameLink.Schemas

mutual

def freezeJson : Value → Except String Value
  | .float none => .error "JSON numbers must be finite"
  | .arr items => (freezeItems items).map .arr
  | .obj entries => (freezeEntries entries).map .obj
  | v => .ok v

def freezeItems : List Value → Except String (List Value)
  | [] => .ok []
  | v :: rest => do
    let v ← freezeJson v
    let rest ← freezeItems rest
    return v :: rest

def freezeEntries : List (String × Value) → Except String (List (String × Value))
  | [] => .ok []
  | (key, v) :: rest => do
    let v ← freezeJson v
    let rest ← freezeEntries rest
    return (key, v) :: rest

end

/-- `set(value) - set(properties) or set(required) - set(value)` is empty. -/
def closed (properties : List (String × Schema)) (required : List String) (entries : List (String × Value)) : Bool :=
  (entries.all fun e => e.1 ∈ properties.map fun p => p.1) && required.all fun name => name ∈ entries.map fun e => e.1

namespace Kind

def text : Kind → String
  | string => "string"
  | integer => "integer"
  | number => "number"
  | boolean => "boolean"

def admits : Kind → Value → Bool
  | string, .str _ => true
  | boolean, .bool _ => true
  | integer, .int _ => true
  | number, .int _ => true
  | number, .float _ => true
  | _, _ => false

end Kind

def below (bound : Option ℚ) (x : Option ℚ) : Bool :=
  match bound, x with
  | some b, some x => x < b
  | _, _ => false

def above (bound : Option ℚ) (x : Option ℚ) : Bool :=
  match bound, x with
  | some b, some x => b < x
  | _, _ => false

def validateScalar (kind : Kind) (bounds : Bounds) (value : Value) (path : String) : Except String Unit := do
  if !kind.admits value || !value.finite then throw (path ++ ": expected finite " ++ kind.text)
  if bounds.enum.any fun choices => !choices.any value.same then throw (path ++ ": value outside allowed choices")
  if below bounds.minimum value.numeric then throw (path ++ ": value outside allowed range")
  if above bounds.maximum value.numeric then throw (path ++ ": value outside allowed range")
  if bounds.minLength.any fun b => value.length < b then throw (path ++ ": text outside allowed length")
  if bounds.maxLength.any fun b => b < value.length then throw (path ++ ": text outside allowed length")

mutual

def validate : Schema → Value → String → ℕ → Except String Unit
  | schema, value, path, depth => do
    if depth > 64 then throw "parameters exceed supported nesting depth"
    match schema with
    | .object properties required =>
      match value with
      | .obj entries =>
        if !closed properties required entries then throw (path ++ ": unexpected or missing fields")
        validateProperties properties entries path (depth + 1)
      | _ => throw (path ++ ": expected object with string keys")
    | .array items =>
      match value with
      | .arr values => values.forM fun item => validate items item (path ++ "[]") (depth + 1)
      | _ => throw (path ++ ": expected array")
    | .scalar kind bounds => validateScalar kind bounds value path

def validateProperties : List (String × Schema) → List (String × Value) → String → ℕ → Except String Unit
  | [], _, _, _ => .ok ()
  | (name, child) :: rest, entries, path, depth => do
    match entries.lookup name with
    | some item => validate child item (path ++ "." ++ name) depth
    | none => pure ()
    validateProperties rest entries path depth

end

def validateParameters (schema : Schema) (parameters : Value) : Except String Value := do
  validate schema parameters "parameters" 0
  let result ← freezeJson parameters
  match result with
  | .obj _ => return result
  | _ => throw "AssertionError"

def scalarMatches (kind : Kind) (bounds : Bounds) (value : Value) : Bool :=
  if !(kind.admits value && (kind ≠ .number || value.finite)) then false
  else if bounds.enum.any fun choices => !choices.any value.same then false
  else
    !below bounds.minimum value.numeric && !above bounds.maximum value.numeric &&
      !(bounds.minLength.any fun b => value.length < b) && !(bounds.maxLength.any fun b => b < value.length)

mutual

def schemaMatches : Schema → Value → ℕ → Bool
  | schema, value, depth =>
    if depth > 64 then false
    else
      match schema with
      | .object properties required =>
        match value with
        | .obj entries =>
          if !closed properties required entries then false
          else entries.all fun e => propertyMatches properties e.1 e.2 (depth + 1)
        | _ => false
      | .array items =>
        match value with
        | .arr values => values.all fun item => schemaMatches items item (depth + 1)
        | _ => false
      | .scalar kind bounds => scalarMatches kind bounds value

def propertyMatches : List (String × Schema) → String → Value → ℕ → Bool
  | [], _, _, _ => false
  | (name, child) :: rest, key, item, depth =>
    if name = key then schemaMatches child item depth else propertyMatches rest key item depth

end

end GameLink.Schemas

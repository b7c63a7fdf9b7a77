import GameLink.Foundation.Transaction
import GameLink.Schemas.Contract

namespace GameLink.Schemas.Diagnostics

open Foundation

inductive Base where
  | object
  | array
  | string
  | integer
  | number
  | boolean
  | null
deriving DecidableEq

def Base.text : Base → String
  | .object => "object"
  | .array => "array"
  | .string => "string"
  | .integer => "integer"
  | .number => "number"
  | .boolean => "boolean"
  | .null => "null"

def bases : List Base := [.object, .array, .string, .integer, .number, .boolean, .null]

def Base.ofText (s : String) : Option Base := bases.find? fun b => b.text = s

abbrev Entries := List (String × Value)

def Base.fields : Base → List String
  | .object => ["properties", "required", "additionalProperties"]
  | .array => ["items", "maxItems"]
  | .string => ["maxLength"]
  | .integer => ["minimum", "maximum"]
  | .number => ["minimum", "maximum"]
  | .boolean => []
  | .null => []

inductive Stop where
  | raised
  | fuel
deriving DecidableEq

structure Head where
  types : List Base
  enum : Option (List Value)

inductive Frozen where
  | object (head : Head) (properties : List (String × Frozen)) (required : List String)
  | array (head : Head) (items : Frozen) (maxItems : ℤ)
  | leaf (head : Head) (limits : Entries)

abbrev Children := List (String × Frozen)

def Frozen.head : Frozen → Head
  | .object head _ _ => head
  | .array head _ _ => head
  | .leaf head _ => head

inductive Body where
  | object (properties : Entries) (required : List String)
  | array (items : Value) (maxItems : ℤ)
  | leaf (limits : Entries)

def label (s : String) : Bool :=
  match s.toList with
  | [] => false
  | c :: rest => c.isAlpha && rest.all (fun d => d.isAlphanum || d ∈ ['_', '.', '-']) && rest.length ≤ 95

def parseTypes : Option Value → Option (List Base)
  | some (.str s) => (Base.ofText s).map ([·])
  | some (.arr items) => items.mapM fun item =>
    match item with
    | .str s => Base.ofText s
    | _ => none
  | _ => none

def readTypes (v : Option Value) : Option (List Base × Base) :=
  (parseTypes v).bind fun types =>
    let base := (types.find? (· ≠ .null)).getD .null
    if types ≠ [] ∧ types.Nodup ∧ ∀ t ∈ types, t = base ∨ t = .null then some (types, base) else none

def scalar : Value → Bool
  | .arr _ => false
  | .obj _ => false
  | _ => true

def readEnum (entries : Entries) : Option (Option (List Value)) :=
  match entries.lookup "enum" with
  | none => some none
  | some (.arr values) =>
    if !values.isEmpty && values.length ≤ 128 && values.all scalar then some (some values) else none
  | some _ => none

def readRequired (entries : Entries) : Option (List String) :=
  match entries.lookup "required" with
  | none => some []
  | some (.arr items) => items.mapM fun item =>
    match item with
    | .str s => some s
    | _ => none
  | some _ => none

def readLimit (name : String) (limit : ℤ) (entries : Entries) : Option ℤ :=
  match entries.lookup name with
  | some (.int i) => if 0 ≤ i ∧ i ≤ limit then some i else none
  | _ => none

def readBound (name : String) (entries : Entries) : Option (Value × ℚ) :=
  match entries.lookup name with
  | some (.int i) => if i.natAbs < Freeze.floatLimit then some (.int i, i) else none
  | some (.float (some x)) => some (.float (some x), x)
  | _ => none

def closedMapping (entries : Entries) : Bool :=
  match entries.lookup "additionalProperties" with
  | none => true
  | some (.bool b) => !b
  | some _ => false

def readObject (entries : Entries) : Option Body :=
  match entries.lookup "properties", readRequired entries with
  | some (.obj properties), some required =>
    if properties.length ≤ 128 ∧ closedMapping entries ∧ required.Nodup ∧
        (∀ name ∈ required, name ∈ properties.map fun e => e.1) ∧ ∀ e ∈ properties, label e.1 then
      some (.object properties required)
    else none
  | _, _ => none

def readArray (entries : Entries) : Option Body :=
  match entries.lookup "items", readLimit "maxItems" 512 entries with
  | some items, some maxItems => some (.array items maxItems)
  | _, _ => none

def readNumber (entries : Entries) : Option Body :=
  match readBound "minimum" entries, readBound "maximum" entries with
  | some minimum, some maximum =>
    if minimum.2 ≤ maximum.2 then some (.leaf [("minimum", minimum.1), ("maximum", maximum.1)]) else none
  | _, _ => none

def readBody (base : Base) (entries : Entries) : Option Body :=
  match base with
  | .object => readObject entries
  | .array => readArray entries
  | .string => (readLimit "maxLength" 4096 entries).map fun i => .leaf [("maxLength", .int i)]
  | .boolean => some (.leaf [])
  | .null => some (.leaf [])
  | .integer => readNumber entries
  | .number => readNumber entries

def allowed (base : Base) (depth : ℕ) : List String :=
  ["type", "enum"] ++ base.fields ++ if depth = 0 then ["$defs"] else []

def readNode (depth : ℕ) (entries : Entries) : Option (Head × Body) := do
  let (types, base) ← readTypes (entries.lookup "type")
  let body ← readBody base entries
  let enum ← readEnum entries
  if ∀ e ∈ entries, e.1 ∈ allowed base depth then
    some (⟨types, enum⟩, body)
  else none

def secretFields : List String :=
  ["authorization", "bearer", "token", "secret", "credential", "credentials", "apikey", "clientsecret", "accesstoken",
    "refreshtoken", "password", "ciphertext", "proof", "masterkey", "privatekey", "cookie", "setcookie", "headers",
    "requestheaders", "responseheaders"]

def sensitive (text : List Char) : Bool := secretFields.any fun root => root.toList.isSuffixOf text

def stateName : Value → Bool
  | .null => true
  | .str s =>
    match s.toList with
    | [] => false
    | c :: rest => c.isLower && rest.all (fun d => d.isLower || d.isDigit || d = '_') && rest.length ≤ 63
  | _ => false

def sensitiveField (name : String) (rule : Head) : Bool :=
  let compact := (name.toList.map Char.toLower).filter fun c => c.isLower || c.isDigit
  sensitive compact ||
    (["configured", "present", "available", "valid", "status", "state"].any fun suffix =>
      suffix.toList.isSuffixOf compact && sensitive (compact.take (compact.length - suffix.length))) &&
      !(rule.types.all (fun t => t = .boolean || t = .null) || rule.enum.any fun values => values.all stateName)

structure Walk where
  nodes : ℕ
  cache : Children

def walkEach (walk : Value → Walk → Except Stop (Frozen × Walk)) : Entries → Walk → Except Stop (Children × Walk)
  | [], w => .ok ([], w)
  | (name, child) :: rest, w => do
    let (frozen, w) ← walk child w
    let (more, w) ← walkEach walk rest w
    return ((name, frozen) :: more, w)

def walk (definitions : Entries) : ℕ → List String → ℕ → Value → Walk → Except Stop (Frozen × Walk)
  | 0, _, _, _, _ => .error .fuel
  | fuel + 1, active, depth, value, w =>
    let w := { w with nodes := w.nodes + 1 }
    if 2048 < w.nodes ∨ 16 < depth then .error .raised
    else
      match value with
      | .obj entries =>
        match entries.lookup "$ref" with
        | some (.str ref) =>
          match definitions.find? fun d => ref = "#/$defs/" ++ d.1 with
          | some d =>
            if entries.length ≠ 1 ∨ ref ∈ active then .error .raised
            else
              match w.cache.lookup ref with
              | some frozen => .ok (frozen, w)
              | none => do
                let (frozen, w) ← walk definitions fuel (ref :: active) depth d.2 w
                return (frozen, { w with cache := (ref, frozen) :: w.cache })
          | none => .error .raised
        | some _ => .error .raised
        | none =>
          match readNode depth entries with
          | some (head, .object properties required) => do
            let (children, w) ← walkEach (walk definitions fuel active (depth + 1)) properties w
            if children.any fun e => sensitiveField e.1 e.2.head then .error .raised
            else .ok (.object head children required, w)
          | some (head, .array items maxItems) => do
            let (items, w) ← walk definitions fuel active (depth + 1) items w
            return (.array head items maxItems, w)
          | some (head, .leaf limits) => .ok (.leaf head limits, w)
          | none => .error .raised
      | _ => .error .raised

def definitionsOf : Value → Except Stop (Entries)
  | .obj entries =>
    match entries.lookup "$defs" with
    | none => .ok []
    | some (.obj definitions) => if definitions.length ≤ 128 then .ok definitions else .error .raised
    | some _ => .error .raised
  | _ => .ok []

def reference (name : String) : Value := .obj [("$ref", .str ("#/$defs/" ++ name))]

def walkDefinitions (definitions : Entries) (fuel : ℕ) : Entries → Walk → Except Stop Walk
  | [], w => .ok w
  | (name, _) :: rest, w =>
    if label name then do
      let (_, w) ← walk definitions fuel [] 0 (reference name) w
      walkDefinitions definitions fuel rest w
    else .error .raised

/-- `freeze_diagnostic_schema`, for a schema that is not a retained result -/
def freeze (schema : Value) : Except Stop Frozen := do
  let definitions ← definitionsOf schema
  let fuel := definitions.length + 18
  let (frozen, w) ← walk definitions fuel [] 0 schema ⟨0, []⟩
  let _ ← walkDefinitions definitions fuel definitions w
  if frozen.head.types = [.object] then .ok frozen else .error .raised

namespace Frozen

def headEntries (head : Head) (middle : Entries) : Entries :=
  ("type", .arr (head.types.map fun t => .str t.text)) :: middle ++ head.enum.elim [] fun values => [("enum", .arr values)]

mutual

def value : Frozen → Value
  | object head properties required => .obj (headEntries head
    [("properties", .obj (values properties)), ("required", .arr (required.map .str)), ("additionalProperties", .bool false)])
  | array head items maxItems => .obj (headEntries head [("items", items.value), ("maxItems", .int maxItems)])
  | leaf head limits => .obj (headEntries head limits)

def values : Children → Entries
  | [] => []
  | (name, child) :: rest => (name, child.value) :: values rest

end

mutual

def height : Frozen → ℕ
  | object _ properties _ => heights properties
  | array _ items _ => items.height + 1
  | leaf _ _ => 0

def heights : Children → ℕ
  | [] => 0
  | (_, child) :: rest => max (child.height + 1) (heights rest)

end

mutual

def nodes : Frozen → ℕ
  | object _ properties _ => nodesAll properties + 1
  | array _ items _ => items.nodes + 1
  | leaf _ _ => 1

def nodesAll : Children → ℕ
  | [] => 0
  | (_, child) :: rest => child.nodes + nodesAll rest

end

end Frozen

def refreeze (retained : Bool) (frozen : Frozen) : Except Stop Frozen :=
  if retained then .ok frozen else freeze frozen.value

/-! The expanded schema -/

mutual

inductive Expanded (definitions : Entries) : Value → ℕ → ℕ → Prop
  | reference {entries : Entries} {ref : String} {d : String × Value} {height nodes : ℕ} :
      entries.lookup "$ref" = some (.str ref) → (definitions.find? fun d => ref = "#/$defs/" ++ d.1) = some d →
      Expanded definitions d.2 height nodes → Expanded definitions (.obj entries) height nodes
  | object {entries properties : Entries} {types : List Base} {height nodes : ℕ} :
      entries.lookup "$ref" = none → readTypes (entries.lookup "type") = some (types, .object) →
      entries.lookup "properties" = some (.obj properties) → ExpandedAll definitions properties height nodes →
      Expanded definitions (.obj entries) height (nodes + 1)
  | array {entries : Entries} {types : List Base} {items : Value} {height nodes : ℕ} :
      entries.lookup "$ref" = none → readTypes (entries.lookup "type") = some (types, .array) →
      entries.lookup "items" = some items → Expanded definitions items height nodes →
      Expanded definitions (.obj entries) (height + 1) (nodes + 1)
  | leaf {entries : Entries} {types : List Base} {base : Base} :
      entries.lookup "$ref" = none → readTypes (entries.lookup "type") = some (types, base) → base ≠ .object →
      base ≠ .array → Expanded definitions (.obj entries) 0 1

inductive ExpandedAll (definitions : Entries) : Entries → ℕ → ℕ → Prop
  | nil : ExpandedAll definitions [] 0 0
  | cons {name : String} {child : Value} {rest : Entries} {height nodes height' nodes' : ℕ} :
      Expanded definitions child height nodes → ExpandedAll definitions rest height' nodes' →
      ExpandedAll definitions ((name, child) :: rest) (max (height + 1) height') (nodes + nodes')

end

section

variable {definitions : Entries}

mutual

theorem Expanded.unique : ∀ {v : Value} {h n h' n' : ℕ}, Expanded definitions v h n → Expanded definitions v h' n' →
    h = h' ∧ n = n'
  | _, _, _, _, _, .reference href hd h, h' => by
    cases h' with
    | reference href' hd' h' =>
      rw [href] at href'
      cases href'
      rw [hd] at hd'
      cases hd'
      exact h.unique h'
    | object href' => rw [href] at href'; cases href'
    | array href' => rw [href] at href'; cases href'
    | leaf href' => rw [href] at href'; cases href'
  | _, _, _, _, _, .object href htypes hproperties h, h' => by
    cases h' with
    | reference href' => rw [href] at href'; cases href'
    | object _ _ hproperties' h' =>
      rw [hproperties] at hproperties'
      cases hproperties'
      obtain ⟨rfl, rfl⟩ := h.unique h'
      exact ⟨rfl, rfl⟩
    | array _ htypes' => rw [htypes] at htypes'; cases htypes'
    | leaf _ htypes' hobject => rw [htypes] at htypes'; cases htypes'; exact absurd rfl hobject
  | _, _, _, _, _, .array href htypes hitems h, h' => by
    cases h' with
    | reference href' => rw [href] at href'; cases href'
    | object _ htypes' => rw [htypes] at htypes'; cases htypes'
    | array _ _ hitems' h' =>
      rw [hitems] at hitems'
      cases hitems'
      obtain ⟨rfl, rfl⟩ := h.unique h'
      exact ⟨rfl, rfl⟩
    | leaf _ htypes' _ harray => rw [htypes] at htypes'; cases htypes'; exact absurd rfl harray
  | _, _, _, _, _, .leaf href htypes hobject harray, h' => by
    cases h' with
    | reference href' => rw [href] at href'; cases href'
    | object _ htypes' => rw [htypes] at htypes'; cases htypes'; exact absurd rfl hobject
    | array _ htypes' => rw [htypes] at htypes'; cases htypes'; exact absurd rfl harray
    | leaf => exact ⟨rfl, rfl⟩

theorem ExpandedAll.unique : ∀ {l : Entries} {h n h' n' : ℕ}, ExpandedAll definitions l h n →
    ExpandedAll definitions l h' n' → h = h' ∧ n = n'
  | _, _, _, _, _, .nil, .nil => ⟨rfl, rfl⟩
  | _, _, _, _, _, .cons hc hr, .cons hc' hr' => by
    obtain ⟨rfl, rfl⟩ := hc.unique hc'
    obtain ⟨rfl, rfl⟩ := hr.unique hr'
    exact ⟨rfl, rfl⟩

end

end

/-! What was read is read again from the result. -/

theorem mapM_str {α : Type} {f : String → Option α} {g : α → String} (hf : ∀ a, f (g a) = some a) (l : List α) :
    ((l.map fun a => Value.str (g a)).mapM fun item => match item with
      | .str s => f s
      | _ => none) = some l := by
  induction l with
  | nil => rfl
  | cons a l ih => simp [List.mapM_cons, hf, ih]

theorem readTypes_frozen {v : Option Value} {types : List Base} {base : Base} (h : readTypes v = some (types, base)) :
    readTypes (some (.arr (types.map fun t => .str t.text))) = some (types, base) := by
  have hparse : parseTypes (some (.arr (types.map fun t => .str t.text))) = some types :=
    mapM_str (fun b => by cases b <;> rfl) types
  unfold readTypes at h ⊢
  obtain ⟨types', _, h⟩ := Option.bind_eq_some_iff.mp h
  rw [hparse]
  dsimp only at h
  split at h
  · rename_i hcheck
    cases h
    exact if_pos hcheck
  · cases h

section

variable {head : Head} {middle : Entries} {name : String}

theorem lookup_headEntries (htype : name ≠ "type") (henum : name ≠ "enum") :
    (Frozen.headEntries head middle).lookup name = middle.lookup name := by
  unfold Frozen.headEntries
  rw [List.cons_append, List.lookup_cons, beq_false_of_ne htype, List.lookup_append]
  cases head.enum with
  | none => simp
  | some values => simp [List.lookup_cons, beq_false_of_ne henum]

theorem lookup_enum (hmiddle : middle.lookup "enum" = none) :
    (Frozen.headEntries head middle).lookup "enum" = head.enum.map .arr := by
  unfold Frozen.headEntries
  have hne : ("enum" == "type") = false := by simp
  rw [List.cons_append, List.lookup_cons, hne, List.lookup_append, hmiddle]
  cases head.enum with
  | none => rfl
  | some values => simp

variable {entries : Entries} {entries' : Entries}

theorem readEnum_frozen {enum : Option (List Value)} (h : readEnum entries = some enum) (hlookup : entries'.lookup "enum" = enum.map .arr) : readEnum entries' = some enum := by
  unfold readEnum at h ⊢
  rw [hlookup]
  split at h
  · cases h
    rfl
  · rename_i values _
    split at h
    · rename_i hvalues
      cases h
      exact if_pos hvalues
    · cases h
  · cases h

variable {body : Body}

theorem readNode_frozen {base : Base} {v : Option Value}
    (htypes : readTypes v = some (head.types, base)) (henum : readEnum entries = some head.enum)
    (hkeys : ∀ e ∈ middle, e.1 ∈ base.fields) (hbody : readBody base (Frozen.headEntries head middle) = some body)
    (depth : ℕ) : readNode depth (Frozen.headEntries head middle) = some (head, body) := by
  have hnone : middle.lookup "enum" = none := by
    rw [List.lookup_eq_none_iff]
    intro e he
    have hfield := hkeys e he
    have hfields : ∀ b : Base, "enum" ∉ b.fields := by
      intro b
      cases b <;> simp [Base.fields]
    simpa using fun heq : "enum" = e.1 => hfields base (heq ▸ hfield)
  have htype : (Frozen.headEntries head middle).lookup "type" = some (.arr (head.types.map fun t => .str t.text)) := by
    simp [Frozen.headEntries]
  unfold readNode
  rw [htype, readTypes_frozen htypes, readEnum_frozen henum (lookup_enum hnone)]
  change (readBody base (Frozen.headEntries head middle) >>= _) = _
  rw [hbody]
  refine if_pos fun e he => ?_
  simp only [Frozen.headEntries, List.mem_append, List.mem_cons] at he
  rcases he with (rfl | he) | he
  · simp [allowed]
  · simp [allowed, hkeys e he]
  cases hvalues : head.enum with
  | none => rw [hvalues] at he; cases he
  | some values =>
    rw [hvalues] at he
    simp only [Option.elim_some, List.mem_cons, List.not_mem_nil, or_false] at he
    simp [allowed, he]

theorem readNode_cases {depth : ℕ}
    (h : readNode depth entries = some (head, body)) : ∃ base, readTypes (entries.lookup "type") = some (head.types, base) ∧
      readBody base entries = some body ∧ readEnum entries = some head.enum := by
  unfold readNode at h
  obtain ⟨⟨types, base⟩, htypes, h⟩ := Option.bind_eq_some_iff.mp h
  obtain ⟨body', hbody, h⟩ := Option.bind_eq_some_iff.mp h
  obtain ⟨enum, henum, h⟩ := Option.bind_eq_some_iff.mp h
  split at h
  · cases h
    exact ⟨base, htypes, hbody, henum⟩
  · cases h

theorem readObject_again (head : Head) (h : readObject entries = some body) :
    ∃ properties required, body = .object properties required ∧ entries.lookup "properties" = some (.obj properties) ∧
      ∀ children : Entries, (children.map fun e => e.1) = properties.map (fun e => e.1) →
        readObject (Frozen.headEntries head [("properties", .obj children), ("required", .arr (required.map .str)),
          ("additionalProperties", .bool false)]) = some (.object children required) := by
  unfold readObject at h
  split at h
  · rename_i properties required hproperties hrequired
    split at h
    · rename_i hcheck
      cases h
      refine ⟨properties, required, rfl, hproperties, fun children hnames => ?_⟩
      obtain ⟨hlength, _, hnodup, hsub, hlabel⟩ := hcheck
      have hrequired' : readRequired (Frozen.headEntries head [("properties", .obj children),
          ("required", .arr (required.map .str)), ("additionalProperties", .bool false)]) = some required := by
        unfold readRequired
        rw [lookup_headEntries (by simp) (by simp)]
        exact mapM_str (f := some) (g := id) (fun _ => rfl) required
      unfold readObject
      rw [hrequired', lookup_headEntries (by simp) (by simp)]
      refine if_pos ⟨?_, ?_, hnodup, hnames ▸ hsub, fun e he => ?_⟩
      · rw [← List.length_map (fun e => e.1), hnames, List.length_map]
        exact hlength
      · unfold closedMapping
        rw [lookup_headEntries (by simp) (by simp)]
        rfl
      have hname : e.1 ∈ properties.map fun e => e.1 := by
        rw [← hnames]
        exact List.mem_map.mpr ⟨e, he, rfl⟩
      obtain ⟨e', he', heq⟩ := List.mem_map.mp hname
      exact heq ▸ hlabel e' he'
    · cases h
  · cases h

theorem readLimit_cases {limit : ℤ} {i : ℤ} (h : readLimit name limit entries = some i) (hlookup : entries'.lookup name = some (.int i)) :
    readLimit name limit entries' = some i := by
  unfold readLimit at h ⊢
  rw [hlookup]
  split at h
  · split at h
    · rename_i hlimit
      cases h
      exact if_pos hlimit
    · cases h
  · cases h

theorem readBound_again {b : Value × ℚ} (h : readBound name entries = some b) (hlookup : entries'.lookup name = some b.1) : readBound name entries' = some b := by
  unfold readBound at h ⊢
  rw [hlookup]
  split at h
  · split at h
    · rename_i hlimit
      cases h
      exact if_pos hlimit
    · cases h
  · cases h
    rfl
  · cases h

theorem readNumber_again (head : Head) (h : readNumber entries = some body) :
    ∃ limits, body = .leaf limits ∧ (∀ e ∈ limits, e.1 ∈ ["minimum", "maximum"]) ∧
      readNumber (Frozen.headEntries head limits) = some (.leaf limits) := by
  unfold readNumber at h
  split at h
  · rename_i minimum maximum hminimum hmaximum
    split at h
    · rename_i hle
      cases h
      refine ⟨_, rfl, by simp, ?_⟩
      unfold readNumber
      rw [readBound_again hminimum, readBound_again hmaximum]
      · exact if_pos hle
      · rw [lookup_headEntries (by simp) (by simp)]
        rfl
      · rw [lookup_headEntries (by simp) (by simp)]
        rfl
    · cases h
  · cases h

theorem readNode_again {depth : ℕ} (hnode : readNode depth entries = some (head, body)) :
    (∃ properties required, body = .object properties required ∧
      readTypes (entries.lookup "type") = some (head.types, .object) ∧
      entries.lookup "properties" = some (.obj properties) ∧ ∀ children : Entries,
        (children.map fun e => e.1) = properties.map (fun e => e.1) → ∀ depth',
          readNode depth' (Frozen.headEntries head [("properties", .obj children), ("required", .arr (required.map .str)),
            ("additionalProperties", .bool false)]) = some (head, .object children required)) ∨
    (∃ items maxItems, body = .array items maxItems ∧ readTypes (entries.lookup "type") = some (head.types, .array) ∧
      entries.lookup "items" = some items ∧ ∀ items' depth',
        readNode depth' (Frozen.headEntries head [("items", items'), ("maxItems", .int maxItems)]) =
          some (head, .array items' maxItems)) ∨
    ∃ limits, body = .leaf limits ∧ (∃ base, readTypes (entries.lookup "type") = some (head.types, base) ∧
      base ≠ .object ∧ base ≠ .array) ∧
      ∀ depth', readNode depth' (Frozen.headEntries head limits) = some (head, .leaf limits) := by
  obtain ⟨base, htypes, hbody, henum⟩ := readNode_cases hnode
  cases base with
  | object =>
    obtain ⟨properties, required, rfl, hproperties, hagain⟩ := readObject_again head hbody
    refine .inl ⟨properties, required, rfl, htypes, hproperties, fun children hnames => ?_⟩
    exact readNode_frozen htypes henum (by simp [Base.fields]) (hagain children hnames)
  | array =>
    simp only [readBody, readArray] at hbody
    split at hbody
    · rename_i items maxItems hitems hmaxItems
      cases hbody
      refine .inr (.inl ⟨items, maxItems, rfl, htypes, hitems, fun items' => ?_⟩)
      apply readNode_frozen htypes henum (by simp [Base.fields])
      simp only [readBody, readArray]
      rw [lookup_headEntries (by simp) (by simp), readLimit_cases hmaxItems]
      · rfl
      · rw [lookup_headEntries (by simp) (by simp)]
        rfl
    · cases hbody
  | string =>
    obtain ⟨i, hi, rfl⟩ := Option.map_eq_some_iff.mp hbody
    refine .inr (.inr ⟨_, rfl, ⟨_, htypes, nofun, nofun⟩, ?_⟩)
    apply readNode_frozen htypes henum (by simp [Base.fields])
    simp only [readBody]
    rw [readLimit_cases hi]
    · rfl
    · rw [lookup_headEntries (by simp) (by simp)]
      rfl
  | boolean =>
    cases hbody
    exact .inr (.inr ⟨_, rfl, ⟨_, htypes, nofun, nofun⟩, readNode_frozen htypes henum (by simp) rfl⟩)
  | null =>
    cases hbody
    exact .inr (.inr ⟨_, rfl, ⟨_, htypes, nofun, nofun⟩, readNode_frozen htypes henum (by simp) rfl⟩)
  | _ =>
    obtain ⟨limits, rfl, hlimits, hagain⟩ := readNumber_again head hbody
    exact .inr (.inr ⟨limits, rfl, ⟨_, htypes, nofun, nofun⟩, readNode_frozen htypes henum hlimits hagain⟩)

end

/-! What a walk gives -/

mutual

def Frozen.Valid : Frozen → Prop
  | .object head properties required => (∀ depth, readNode depth (Frozen.headEntries head
      [("properties", .obj (Frozen.values properties)), ("required", .arr (required.map .str)),
        ("additionalProperties", .bool false)]) = some (head, .object (Frozen.values properties) required)) ∧
      (properties.any fun e => sensitiveField e.1 e.2.head) = false ∧ ValidAll properties
  | .array head items maxItems => (∀ depth, readNode depth (Frozen.headEntries head
      [("items", items.value), ("maxItems", .int maxItems)]) = some (head, .array items.value maxItems)) ∧ items.Valid
  | .leaf head limits => ∀ depth, readNode depth (Frozen.headEntries head limits) = some (head, .leaf limits)

def ValidAll : Children → Prop
  | [] => True
  | (_, child) :: rest => child.Valid ∧ ValidAll rest

end

variable {node : Head × Body} {entries : Entries}

theorem lookup_none {name : String} {depth : ℕ}
    (hname : ∀ base, name ∉ allowed base depth) (h : readNode depth entries = some node) : entries.lookup name = none := by
  unfold readNode at h
  obtain ⟨⟨types, base⟩, _, h⟩ := Option.bind_eq_some_iff.mp h
  obtain ⟨_, _, h⟩ := Option.bind_eq_some_iff.mp h
  obtain ⟨_, _, h⟩ := Option.bind_eq_some_iff.mp h
  split at h
  · rename_i hallowed
    rw [List.lookup_eq_none_iff]
    intro e he
    simpa using fun heq : name = e.1 => hname base (heq ▸ hallowed e he)
  · cases h

theorem no_reference {depth : ℕ}
    (h : readNode depth entries = some node) : entries.lookup "$ref" = none := by
  apply lookup_none (fun base => ?_) h
  unfold allowed
  split <;> cases base <;> simp [Base.fields]

theorem no_definitions {f : Frozen} (hf : f.Valid) : definitionsOf f.value = .ok [] := by
  have hallowed : ∀ base, "$defs" ∉ allowed base 1 := by
    intro base
    cases base <;> simp [allowed, Base.fields]
  cases f with
  | object head properties required => rw [Frozen.value, definitionsOf, lookup_none hallowed (hf.1 1)]
  | array head items maxItems => rw [Frozen.value, definitionsOf, lookup_none hallowed (hf.1 1)]
  | leaf head limits => rw [Frozen.value, definitionsOf, lookup_none hallowed (hf 1)]

mutual

theorem walk_valid : ∀ (f : Frozen), f.Valid → ∀ (fuel : ℕ) (active : List String) (depth : ℕ) (w : Walk), depth ≤ 17 →
    18 ≤ fuel + depth → walk [] fuel active depth f.value w =
      if depth + f.height ≤ 16 ∧ w.nodes + f.nodes ≤ 2048 then .ok (f, { w with nodes := w.nodes + f.nodes })
      else .error .raised
  | f, hf, 0, _, depth, _, hdepth, hfuel => by omega
  | f, hf, fuel + 1, active, depth, w, hdepth, hfuel => by
    by_cases hstop : 2048 < w.nodes + 1 ∨ 16 < depth
    · have hfits : ¬ (depth + f.height ≤ 16 ∧ w.nodes + f.nodes ≤ 2048) := by
        have hnodes : 1 ≤ f.nodes := by cases f <;> simp [Frozen.nodes]
        omega
      rw [if_neg hfits]
      unfold walk
      exact if_pos hstop
    · cases f with
      | object head properties required =>
        obtain ⟨hread, hsensitive, hall⟩ := hf
        have hchildren := walkEach_valid properties hall fuel active depth { w with nodes := w.nodes + 1 } (by omega)
          (by omega) (by dsimp only; omega)
        rw [Frozen.value, walk]
        dsimp only
        rw [if_neg hstop, no_reference (hread depth)]
        dsimp only
        rw [hread depth]
        dsimp only
        rw [hchildren, Frozen.height, Frozen.nodes]
        by_cases hfits : depth + Frozen.heights properties ≤ 16 ∧ w.nodes + 1 + Frozen.nodesAll properties ≤ 2048
        · rw [if_pos hfits, if_pos ⟨hfits.1, by omega⟩]
          change (if (properties.any fun e => sensitiveField e.1 e.2.head) = true then _ else _) = _
          rw [hsensitive, if_neg Bool.false_ne_true]
          simp only [Nat.add_assoc, Nat.add_comm 1]
        · rw [if_neg hfits, if_neg (by omega)]
          rfl
      | array head items maxItems =>
        obtain ⟨hread, hitems⟩ := hf
        have hchild := walk_valid items hitems fuel active (depth + 1) { w with nodes := w.nodes + 1 } (by omega) (by omega)
        rw [Frozen.value, walk]
        dsimp only
        rw [if_neg hstop, no_reference (hread depth)]
        dsimp only
        rw [hread depth]
        dsimp only
        rw [hchild, Frozen.height, Frozen.nodes]
        by_cases hfits : depth + 1 + items.height ≤ 16 ∧ w.nodes + 1 + items.nodes ≤ 2048
        · rw [if_pos hfits, if_pos ⟨by omega, by omega⟩]
          simp only [Nat.add_assoc, Nat.add_comm 1]
          rfl
        · rw [if_neg hfits, if_neg (by omega)]
          rfl
      | leaf head limits =>
        rw [Frozen.value, walk]
        dsimp only
        rw [if_neg hstop, no_reference (hf depth)]
        dsimp only
        rw [hf depth, Frozen.height, Frozen.nodes, if_pos ⟨by omega, by omega⟩]

theorem walkEach_valid : ∀ (l : Children), ValidAll l → ∀ (fuel : ℕ) (active : List String) (depth : ℕ)
    (w : Walk), depth ≤ 16 → 17 ≤ fuel + depth → w.nodes ≤ 2048 →
    walkEach (walk [] fuel active (depth + 1)) (Frozen.values l) w =
      if depth + Frozen.heights l ≤ 16 ∧ w.nodes + Frozen.nodesAll l ≤ 2048 then
        .ok (l, { w with nodes := w.nodes + Frozen.nodesAll l })
      else .error .raised
  | [], _, fuel, active, depth, w, hdepth, _, hnodes => by
    rw [Frozen.values, walkEach, Frozen.heights, Frozen.nodesAll, if_pos ⟨by omega, by omega⟩]
    rfl
  | (name, child) :: rest, hl, fuel, active, depth, w, hdepth, hfuel, hnodes => by
    obtain ⟨hchild, hrest⟩ := hl
    rw [Frozen.values, walkEach, walk_valid child hchild fuel active (depth + 1) w (by omega) (by omega), Frozen.heights,
      Frozen.nodesAll]
    by_cases hfits : depth + 1 + child.height ≤ 16 ∧ w.nodes + child.nodes ≤ 2048
    · rw [if_pos hfits]
      have hnext := walkEach_valid rest hrest fuel active depth { w with nodes := w.nodes + child.nodes } hdepth hfuel hfits.2
      change (walkEach _ _ _ >>= _) = _
      rw [hnext]
      by_cases hmore : depth + Frozen.heights rest ≤ 16 ∧ w.nodes + child.nodes + Frozen.nodesAll rest ≤ 2048
      · rw [if_pos hmore, if_pos ⟨by omega, by omega⟩]
        simp only [Nat.add_assoc]
        rfl
      · rw [if_neg hmore, if_neg (by omega)]
        rfl
    · rw [if_neg hfits, if_neg (by omega)]
      rfl

end

section

variable {definitions : Entries}

structure Stands (definitions : Entries) (v : Value) (f : Frozen) : Prop where
  valid : f.Valid
  expanded : Expanded definitions v f.height f.nodes

def Kept (definitions : Entries) (w : Walk) : Prop :=
  ∀ ref f, w.cache.lookup ref = some f → ∃ d, (definitions.find? fun d => ref = "#/$defs/" ++ d.1) = some d ∧
    Stands definitions d.2 f

theorem names_values (l : Children) : ((Frozen.values l).map fun e => e.1) = l.map fun e => e.1 := by
  induction l with
  | nil => rfl
  | cons e l ih => rw [Frozen.values, List.map_cons, List.map_cons, ih]

theorem walkEach_spec {f : Value → Walk → Except Stop (Frozen × Walk)}
    (hf : ∀ v w frozen w', f v w = .ok (frozen, w') → Kept definitions w → Stands definitions v frozen ∧ Kept definitions w') :
    ∀ {l : Entries} {w w' : Walk} {frozen : Children}, walkEach f l w = .ok (frozen, w') →
      Kept definitions w → (frozen.map fun e => e.1) = l.map (fun e => e.1) ∧ ValidAll frozen ∧
        ExpandedAll definitions l (Frozen.heights frozen) (Frozen.nodesAll frozen) ∧ Kept definitions w' := by
  intro l
  induction l with
  | nil =>
    intro w w' frozen h hw
    cases h
    exact ⟨rfl, trivial, .nil, hw⟩
  | cons e l ih =>
    intro w w' frozen h hw
    obtain ⟨name, child⟩ := e
    obtain ⟨⟨first, w₁⟩, hchild, h⟩ := bind_eq_ok.mp h
    obtain ⟨⟨more, w₂⟩, hrest, h⟩ := bind_eq_ok.mp h
    cases h
    obtain ⟨hstands, hw₁⟩ := hf child w first w₁ hchild hw
    obtain ⟨hnames, hvalid, hexpanded, hw₂⟩ := ih hrest hw₁
    exact ⟨congrArg (name :: ·) hnames, ⟨hstands.valid, hvalid⟩, .cons hstands.expanded hexpanded, hw₂⟩

theorem walk_spec : ∀ {fuel : ℕ} {active : List String} {depth : ℕ} {v : Value} {w w' : Walk} {frozen : Frozen},
    walk definitions fuel active depth v w = .ok (frozen, w') → Kept definitions w →
      Stands definitions v frozen ∧ Kept definitions w' := by
  intro fuel
  induction fuel with
  | zero => intro active depth v w w' frozen h; cases h
  | succ fuel ih =>
    intro active depth v w w' frozen h hw
    unfold walk at h
    dsimp only at h
    split at h
    · cases h
    split at h
    · rename_i entries
      split at h
      · rename_i ref href
        split at h
        · rename_i d hd
          split at h
          · cases h
          split at h
          · rename_i cached hcached
            cases h
            obtain ⟨d', hd', hstands⟩ := hw ref _ hcached
            rw [hd] at hd'
            cases hd'
            exact ⟨⟨hstands.valid, .reference href hd hstands.expanded⟩, hw⟩
          · obtain ⟨result, hwalk, h⟩ := bind_eq_ok.mp h
            cases h
            obtain ⟨hstands, hkept⟩ := ih hwalk hw
            refine ⟨⟨hstands.valid, .reference href hd hstands.expanded⟩, fun ref' f hlookup => ?_⟩
            rw [List.lookup_cons] at hlookup
            split at hlookup
            · rename_i heq
              cases hlookup
              exact ⟨d, eq_of_beq heq ▸ hd, hstands⟩
            · exact hkept ref' f hlookup
        · cases h
      · cases h
      · rename_i href
        split at h
        · rename_i head properties required hnode
          obtain ⟨_, _, hbody, htypes, hproperties, hagain⟩ | ⟨_, _, hbody, _⟩ | ⟨_, hbody, _⟩ := readNode_again hnode
          · cases hbody
            obtain ⟨result, heach, h⟩ := bind_eq_ok.mp h
            obtain ⟨hnames, hvalid, hexpanded, hkept⟩ := walkEach_spec (fun v w frozen w' h hw => ih h hw) heach hw
            split at h
            · cases h
            rename_i hsensitive
            cases h
            refine ⟨⟨⟨fun depth' => ?_, Bool.eq_false_iff.mpr hsensitive, hvalid⟩, ?_⟩, hkept⟩
            · exact hagain _ ((names_values result.1).trans hnames) depth'
            · exact .object href htypes hproperties hexpanded
          · cases hbody
          · cases hbody
        · rename_i head items maxItems hnode
          obtain ⟨_, _, hbody, _⟩ | ⟨_, _, hbody, htypes, hitems, hagain⟩ | ⟨_, hbody, _⟩ := readNode_again hnode
          · cases hbody
          · cases hbody
            obtain ⟨result, hwalk, h⟩ := bind_eq_ok.mp h
            cases h
            obtain ⟨hstands, hkept⟩ := ih hwalk hw
            exact ⟨⟨⟨hagain _, hstands.valid⟩, .array href htypes hitems hstands.expanded⟩, hkept⟩
          · cases hbody
        · rename_i head limits hnode
          obtain ⟨_, _, hbody, _⟩ | ⟨_, _, hbody, _⟩ | ⟨_, hbody, ⟨base, htypes, hobject, harray⟩, hagain⟩ :=
            readNode_again hnode
          · cases hbody
          · cases hbody
          cases hbody
          cases h
          exact ⟨⟨hagain, .leaf href htypes hobject harray⟩, hw⟩
        · cases h
    · cases h

theorem bind_ne_fuel {α β : Type} {x : Except Stop α} {f : α → Except Stop β} (hx : x ≠ .error .fuel)
    (hf : ∀ a, f a ≠ .error .fuel) : (x >>= f) ≠ .error .fuel := by
  cases x with
  | error stop => exact fun h => hx (by cases h; rfl)
  | ok a => exact hf a

theorem walkEach_ne_fuel {f : Value → Walk → Except Stop (Frozen × Walk)} (hf : ∀ v w, f v w ≠ .error .fuel)
    (l : Entries) (w : Walk) : walkEach f l w ≠ .error .fuel := by
  induction l generalizing w with
  | nil => exact nofun
  | cons e l ih =>
    rw [walkEach]
    exact bind_ne_fuel (hf e.2 w) fun result => bind_ne_fuel (ih result.2) fun _ => nofun

theorem walk_ne_fuel : ∀ {fuel : ℕ} {active : List String} {depth : ℕ} {v : Value} {w : Walk}, active.Nodup →
    active ⊆ definitions.map (fun d => "#/$defs/" ++ d.1) → depth ≤ 17 →
    definitions.length + 18 ≤ fuel + active.length + depth → walk definitions fuel active depth v w ≠ .error .fuel := by
  intro fuel
  induction fuel with
  | zero =>
    intro active depth v w hnodup hsub hdepth hfuel
    have hlength := (List.subperm_of_subset hnodup hsub).length_le
    rw [List.length_map] at hlength
    omega
  | succ fuel ih =>
    intro active depth v w hnodup hsub hdepth hfuel
    unfold walk
    dsimp only
    split
    · exact nofun
    rename_i hstop
    split
    · split
      · split
        · rename_i ref _ _ d hd
          split
          · exact nofun
          rename_i hfree
          split
          · exact nofun
          have hmem : ref ∈ definitions.map fun d => "#/$defs/" ++ d.1 := by
            have hname : ref = "#/$defs/" ++ d.1 := by simpa using List.find?_some hd
            exact List.mem_map.mpr ⟨d, List.mem_of_find?_eq_some hd, hname.symm⟩
          refine bind_ne_fuel (ih (List.nodup_cons.mpr ⟨fun hmem => hfree (.inr hmem), hnodup⟩)
            (List.cons_subset.mpr ⟨hmem, hsub⟩) hdepth ?_) ?_
          · rw [List.length_cons]
            omega
          · intro result
            exact nofun
        · exact nofun
      · exact nofun
      · have hrec (v : Value) (w : Walk) : walk definitions fuel active (depth + 1) v w ≠ .error .fuel :=
          ih hnodup hsub (by omega) (by omega)
        split
        · apply bind_ne_fuel (walkEach_ne_fuel hrec _ _)
          intro result
          split <;> exact nofun
        · exact bind_ne_fuel (hrec _ _) fun _ => nofun
        · exact nofun
        · exact nofun
    · exact nofun

theorem walkDefinitions_ne_fuel {fuel : ℕ} (hfuel : definitions.length + 18 ≤ fuel) (l : Entries) (w : Walk) :
    walkDefinitions definitions fuel l w ≠ .error .fuel := by
  induction l generalizing w with
  | nil => exact nofun
  | cons d l ih =>
    rw [walkDefinitions]
    split
    · exact bind_ne_fuel (walk_ne_fuel List.nodup_nil (List.nil_subset _) (by omega) (by simpa using hfuel)) fun _ => ih _
    · exact nofun

theorem freeze_ne_fuel (schema : Value) : freeze schema ≠ .error .fuel := by
  apply bind_ne_fuel
  · unfold definitionsOf
    split
    · split
      · exact nofun
      · split <;> exact nofun
      · exact nofun
    · exact nofun
  · intro definitions
    apply bind_ne_fuel (walk_ne_fuel List.nodup_nil (List.nil_subset _) (by omega) (by simp))
    intro result
    apply bind_ne_fuel (walkDefinitions_ne_fuel le_rfl _ _)
    intro w
    split <;> exact nofun

theorem freeze_value {f : Frozen} (hf : f.Valid) (htypes : f.head.types = [.object]) :
    freeze f.value = if f.height ≤ 16 ∧ f.nodes ≤ 2048 then .ok f else .error .raised := by
  unfold freeze
  rw [no_definitions hf]
  have hwalk := walk_valid f hf 18 [] 0 ⟨0, []⟩ (by omega) (by omega)
  change (walk [] 18 [] 0 f.value ⟨0, []⟩ >>= _) = _
  rw [hwalk]
  simp only [Nat.zero_add]
  split
  · change (if f.head.types = [.object] then _ else _) = _
    rw [if_pos htypes]
  · rfl

/-- A result is within the budgets exactly where the schema is with every reference replaced by its definition. -/
theorem freeze_exact {schema : Value} {frozen : Frozen} (hdefinitions : definitionsOf schema = .ok definitions)
    (h : freeze schema = .ok frozen) :
    (frozen.height ≤ 16 ∧ frozen.nodes ≤ 2048 ∧ ∀ retained, refreeze retained frozen = .ok frozen) ↔
      ∃ height nodes, Expanded definitions schema height nodes ∧ height ≤ 16 ∧ nodes ≤ 2048 := by
  have hstands : Stands definitions schema frozen ∧ frozen.head.types = [.object] := by
    obtain ⟨definitions', hdefinitions', h⟩ := bind_eq_ok.mp h
    rw [hdefinitions] at hdefinitions'
    cases hdefinitions'
    obtain ⟨result, hwalk, h⟩ := bind_eq_ok.mp h
    obtain ⟨w, _, h⟩ := bind_eq_ok.mp h
    split at h
    · rename_i htypes
      cases h
      exact ⟨(walk_spec hwalk nofun).1, htypes⟩
    · cases h
  obtain ⟨hstands, htypes⟩ := hstands
  have hvalue := freeze_value hstands.valid htypes
  constructor
  · rintro ⟨hheight, hnodes, _⟩
    exact ⟨_, _, hstands.expanded, hheight, hnodes⟩
  rintro ⟨height, nodes, hexpanded, hheight, hnodes⟩
  obtain ⟨rfl, rfl⟩ := hstands.expanded.unique hexpanded
  refine ⟨hheight, hnodes, fun retained => ?_⟩
  cases retained with
  | true => rfl
  | false => exact hvalue.trans (if_pos ⟨hheight, hnodes⟩)

end

namespace Sample

def flag : Value := .obj [("type", .str "boolean")]

def nest (n : ℕ) (inner : Value) : Value :=
  n.rec inner fun _ v => .obj [("type", .str "object"), ("properties", .obj [("part", v)])]

def shared : Value := .obj [("type", .str "object"), ("properties", .obj [("first", reference "deep"),
  ("second", nest 10 (reference "deep"))]), ("$defs", .obj [("deep", nest 9 flag)])]

def tall : {schema : Value // (freeze schema).toOption.map Frozen.height = some 20} := ⟨shared, by decide +kernel⟩

end Sample

theorem freeze_shared : ¬ ∀ (schema : Value) (frozen : Frozen), freeze schema = .ok frozen →
    frozen.height ≤ 16 ∧ frozen.nodes ≤ 2048 ∧ ∀ retained, refreeze retained frozen = .ok frozen := by
  intro h
  have hheight : (freeze Sample.shared).toOption.map Frozen.height = some 20 := Sample.tall.property
  cases hfreeze : freeze Sample.shared with
  | error stop => rw [hfreeze] at hheight; cases hheight
  | ok frozen =>
    rw [hfreeze] at hheight
    have hlow := (h Sample.shared frozen hfreeze).1
    rw [show frozen.height = 20 from Option.some.inj hheight] at hlow
    omega

theorem freeze_exact_nested : ∃ frozen, freeze (Sample.nest 1 Sample.flag) = .ok frozen ∧ frozen.height ≤ 16 ∧
    frozen.nodes ≤ 2048 ∧ ∀ retained, refreeze retained frozen = .ok frozen := by
  have hsome : (freeze (Sample.nest 1 Sample.flag)).toOption.isSome = true := by decide +kernel
  cases hfreeze : freeze (Sample.nest 1 Sample.flag) with
  | error stop => rw [hfreeze] at hsome; cases hsome
  | ok frozen =>
    refine ⟨frozen, rfl, (freeze_exact (show definitionsOf _ = .ok [] from rfl) hfreeze).mpr ⟨1, 2, ?_, by omega, by omega⟩⟩
    refine .object rfl (show readTypes _ = some ([.object], .object) from rfl) rfl (.cons ?_ .nil)
    exact .leaf rfl (show readTypes _ = some ([.boolean], .boolean) from rfl) nofun nofun

end GameLink.Schemas.Diagnostics

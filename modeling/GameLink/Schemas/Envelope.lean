import GameLink.Foundation.Grouping
import GameLink.Schemas.Agreement
import Mathlib.Data.List.Dedup

namespace GameLink.Schemas

open Foundation

inductive Plain where
  | object (description : Option String) (properties : List (String × Plain)) (required : List String)
  | array (description : Option String) (items : Plain)
  | scalar (description : Option String) (kind : Kind) (bounds : Bounds)

abbrev Fields := List (String × Plain)

mutual

def Plain.schema : Plain → Schema
  | .object _ properties required => .object (schemas properties) required
  | .array _ items => .array items.schema
  | .scalar _ kind bounds => .scalar kind bounds

def schemas : Fields → List (String × Schema)
  | [] => []
  | (name, s) :: rest => (name, s.schema) :: schemas rest

end

def Plain.Proper (s : Plain) : Prop := s.schema.Proper

def sameChoices : Option (List Value) → Option (List Value) → Bool
  | none, none => true
  | some l, some r => l.length = r.length && (l.zip r).all fun p => p.1.same p.2
  | _, _ => false

def Bounds.equal (l r : Bounds) : Bool :=
  sameChoices l.enum r.enum && l.minimum = r.minimum && l.maximum = r.maximum && l.minLength = r.minLength &&
    l.maxLength = r.maxLength

mutual

def equal : Plain → Plain → Bool
  | .object d properties required, .object d' properties' required' =>
    d = d' && properties.length = properties'.length && equalProperties properties properties' && required = required'
  | .array d items, .array d' items' => d = d' && equal items items'
  | .scalar d kind bounds, .scalar d' kind' bounds' => d = d' && kind = kind' && bounds.equal bounds'
  | _, _ => false

def equalProperties : Fields → Fields → Bool
  | [], _ => true
  | (name, s) :: rest, right =>
    (match right.lookup name with
      | some t => equal s t
      | none => false) && equalProperties rest right

end

def both {α : Type} (f : α → α → α) (a b : Option α) : Option α := a.bind fun x => b.map (f x)

def fromKeys (values : List Value) : List Value :=
  values.foldl (fun kept v => if kept.any v.same then kept else kept ++ [v]) []

def Bounds.envelope (l r : Bounds) : Bounds where
  enum := both (fun a b => fromKeys (a ++ b)) l.enum r.enum
  minimum := both min l.minimum r.minimum
  maximum := both max l.maximum r.maximum
  minLength := both min l.minLength r.minLength
  maxLength := both max l.maxLength r.maxLength

mutual

/-- `_schema_envelope`; the properties of the right side alone come last. -/
def envelope : Plain → Plain → Except String Plain
  | left, right =>
    if equal left right then .ok left
    else
      match left with
      | .object _ properties required =>
        match right with
        | .object _ properties' required' => do
          let common ← envelopeProperties properties properties'
          return .object none (common ++ properties'.filter fun e => !(e.1 ∈ properties.map fun e => e.1))
            ((required.filter fun name => name ∈ required').dedup.insertionSort (· ≤ ·))
        | _ => .error "incompatible model tool parameter types"
      | .array _ items =>
        match right with
        | .array _ items' => (envelope items items').map (.array none)
        | _ => .error "incompatible model tool parameter types"
      | .scalar _ kind bounds =>
        match right with
        | .scalar _ kind' bounds' =>
          if kind = kind' then .ok (.scalar none kind (bounds.envelope bounds'))
          else .error "incompatible model tool parameter types"
        | _ => .error "incompatible model tool parameter types"

def envelopeProperties : Fields → Fields → Except String (Fields)
  | [], _ => .ok []
  | (name, s) :: rest, right =>
    match right.lookup name with
    | some t => do
      let merged ← envelope s t
      let rest ← envelopeProperties rest right
      return (name, merged) :: rest
    | none => do
      let rest ← envelopeProperties rest right
      return (name, s) :: rest

end

structure ToolDescriptor where
  action : String
  capabilityId : String
  parameterMapping : List (String × String)
  names : (parameterMapping.map fun e => e.1).Nodup

structure ModuleManifest where
  capabilities : Fields
  proper : ∀ e ∈ capabilities, e.2.Proper

def toolParameters (d : ToolDescriptor) (schema : Plain) : Except String (Fields × List String) :=
  match schema with
  | .object _ properties required => do
    let fields ← d.parameterMapping.mapM fun e =>
      match properties.lookup e.2 with
      | some s => .ok (e.1, s)
      | none => .error "KeyError"
    return (fields, (d.parameterMapping.filter fun e => e.2 ∈ required).map fun e => e.1)
  | _ => .error "KeyError"

def exact (m : ModuleManifest) (d : ToolDescriptor) : Except String (Fields × List String) :=
  match m.capabilities.lookup d.capabilityId with
  | some schema => toolParameters d schema
  | none => .error "KeyError"

inductive Step where
  | property (name : String)
  | items

inductive Tag where
  | object
  | array
  | scalar (kind : Kind)

inductive Permit where
  | tag (t : Tag)
  | without (name : String)
  | choice (v : Value)
  | low (x : ℚ)
  | high (x : ℚ)
  | short (n : ℤ)
  | long (n : ℤ)

def Bounds.Permits (kind : Kind) (b : Bounds) : Permit → Prop
  | .tag t => t = .scalar kind
  | .without _ => False
  | .choice v => ∀ choices ∈ b.enum, choices.any v.same = true
  | .low x => ∀ bound ∈ b.minimum, bound ≤ x
  | .high x => ∀ bound ∈ b.maximum, x ≤ bound
  | .short n => ∀ bound ∈ b.minLength, bound ≤ n
  | .long n => ∀ bound ∈ b.maxLength, n ≤ bound

def permits : Plain → Permit → Prop
  | .object _ _ _, .tag t => t = .object
  | .object _ _ required, .without name => name ∉ required
  | .array _ _, .tag t => t = .array
  | .scalar _ kind b, permit => b.Permits kind permit
  | _, _ => False

abbrev Cells := List Step → Set Permit

mutual

def Plain.cells : Plain → Cells
  | s, [] => {permit | permits s permit}
  | .object _ properties _, .property name :: path => cellsOf properties name path
  | .array _ items, .items :: path => items.cells path
  | _, _ => ∅

def cellsOf : Fields → String → Cells
  | [], _, _ => ∅
  | (key, s) :: rest, name, path => if key = name then s.cells path else cellsOf rest name path

end

inductive Takes : Cells → Value → ℕ → Prop
  | object {cells : Cells} {entries : List (String × Value)} {depth : ℕ} : depth ≤ 64 → .tag .object ∈ cells [] →
      (∀ name, .without name ∈ cells [] ∨ name ∈ entries.map fun e => e.1) →
      (∀ e ∈ entries, Takes (fun path => cells (.property e.1 :: path)) e.2 (depth + 1)) → Takes cells (.obj entries) depth
  | array {cells : Cells} {values : List Value} {depth : ℕ} : depth ≤ 64 → .tag .array ∈ cells [] →
      (∀ v ∈ values, Takes (fun path => cells (.items :: path)) v (depth + 1)) → Takes cells (.arr values) depth
  | scalar {cells : Cells} {v : Value} {depth : ℕ} (kind : Kind) : depth ≤ 64 → .tag (.scalar kind) ∈ cells [] →
      kind.admits v = true ∧ v.finite = true → .choice v ∈ cells [] →
      (∀ x ∈ v.numeric, .low x ∈ cells [] ∧ .high x ∈ cells []) → .short v.length ∈ cells [] → .long v.length ∈ cells [] →
      Takes cells v depth

variable {depth : ℕ} {v : Value}

theorem Takes.mono {cells cells' : Cells} (h : Takes cells v depth)
    (hsub : ∀ path, cells path ⊆ cells' path) : Takes cells' v depth := by
  induction h generalizing cells' with
  | object hdepth hroot hrequired _ ih =>
    exact .object hdepth (hsub [] hroot) (fun name => (hrequired name).imp_left (hsub [] ·))
      fun e he => ih e he fun path => hsub _
  | array hdepth hroot _ ih => exact .array hdepth (hsub [] hroot) fun v hv => ih v hv fun path => hsub _
  | scalar kind hdepth hroot hkind hchoice hnumber hshort hlong =>
    exact .scalar kind hdepth (hsub [] hroot) hkind (hsub [] hchoice)
      (fun x hx => (hnumber x hx).imp (hsub [] ·) (hsub [] ·)) (hsub [] hshort) (hsub [] hlong)

theorem Takes.depth_le {cells : Cells} (h : Takes cells v depth) : depth ≤ 64 := by
  cases h with
  | object hdepth => exact hdepth
  | array hdepth => exact hdepth
  | scalar kind hdepth => exact hdepth

theorem scalarMatches_iff (kind : Kind) (b : Bounds) (v : Value) : scalarMatches kind b v = true ↔
    (kind.admits v = true ∧ v.finite = true) ∧ b.Permits kind (.choice v) ∧
      (∀ x ∈ v.numeric, b.Permits kind (.low x) ∧ b.Permits kind (.high x)) ∧ b.Permits kind (.short v.length) ∧
        b.Permits kind (.long v.length) := by
  have hfinite : (kind.admits v && (decide (kind ≠ .number) || v.finite)) = (kind.admits v && v.finite) := by
    cases kind <;> cases v <;> simp [Kind.admits, Value.finite]
  obtain ⟨enum, minimum, maximum, minLength, maxLength⟩ := b
  simp only [Bounds.Permits]
  unfold scalarMatches
  rw [hfinite]
  cases enum <;> cases minimum <;> cases maximum <;> cases minLength <;> cases maxLength <;> cases v.numeric <;>
    simp [below, above, and_assoc]

theorem cellsOf_absent {properties : Fields} {name : String} (h : name ∉ properties.map fun e => e.1)
    (path : List Step) : cellsOf properties name path = ∅ := by
  induction properties with
  | nil => rfl
  | cons e rest ih =>
    simp only [List.map_cons, List.mem_cons, not_or] at h
    rw [cellsOf, if_neg (fun he => h.1 he.symm), ih h.2]

variable (properties : Fields)

theorem names_schemas : ((schemas properties).map fun e => e.1) = properties.map fun e => e.1 := by
  induction properties with
  | nil => rfl
  | cons e rest ih => rw [schemas, List.map_cons, List.map_cons, ih]

theorem not_takes_empty {cells : Cells} (h : cells [] = ∅) : ¬ Takes cells v depth := by
  intro ht
  cases ht with
  | object _ hroot _ _ => rw [h] at hroot; exact hroot
  | array _ hroot _ => rw [h] at hroot; exact hroot
  | scalar _ _ hroot => rw [h] at hroot; exact hroot

mutual

theorem matches_iff : ∀ (s : Plain) (v : Value) (depth : ℕ), schemaMatches s.schema v depth = true ↔ Takes s.cells v depth
  | s, v, depth => by
    by_cases hd : depth > 64
    · rw [schemaMatches_deep hd]
      exact iff_of_false Bool.false_ne_true fun h => absurd h.depth_le (by omega)
    cases s with
    | object d properties required =>
      rw [Plain.schema]
      cases v with
      | obj entries =>
        have hvalues : (entries.all fun e => propertyMatches (schemas properties) e.1 e.2 (depth + 1)) = true ↔
            ∀ e ∈ entries, Takes (cellsOf properties e.1) e.2 (depth + 1) := by
          rw [List.all_eq_true]
          exact forall₂_congr fun e _ => properties_matches_iff properties e.1 e.2 _
        have hclosed : closed (schemas properties) required entries = true ↔
            (∀ e ∈ entries, e.1 ∈ properties.map fun e => e.1) ∧
              ∀ name ∈ required, name ∈ entries.map fun e => e.1 := by
          simp only [closed, names_schemas, Bool.and_eq_true, List.all_eq_true, decide_eq_true_eq]
        have hand (c x : Bool) : (if (!c) = true then false else x) = (c && x) := by cases c <;> rfl
        rw [schemaMatches]
        simp only [hd, if_false, hand, Bool.and_eq_true, hclosed, hvalues]
        constructor
        · rintro ⟨⟨_, hrequired⟩, hentries⟩
          refine .object (by omega) rfl (fun name => ?_) hentries
          by_cases hname : name ∈ required
          · exact .inr (hrequired name hname)
          · exact .inl hname
        intro h
        cases h with
        | object _ _ hrequired hentries =>
          refine ⟨⟨fun e he => ?_, fun name hname => (hrequired name).resolve_left (· hname)⟩, hentries⟩
          by_contra hname
          exact not_takes_empty (cellsOf_absent hname []) (hentries e he)
        | scalar _ _ hroot => cases hroot
      | _ =>
        refine iff_of_false (by simp [schemaMatches]) fun h => ?_
        rcases h with _ | ⟨_, hroot, _⟩ | ⟨_, _, hroot⟩ <;> cases hroot
    | array d items =>
      rw [Plain.schema]
      cases v with
      | arr values =>
        rw [schemaMatches]
        simp only [hd, if_false, List.all_eq_true]
        constructor
        · intro h
          exact .array (by omega) rfl fun v hv => (matches_iff items v _).mp (h v hv)
        intro h
        cases h with
        | array _ _ hvalues => exact fun v hv => (matches_iff items v _).mpr (hvalues v hv)
        | scalar _ _ hroot => cases hroot
      | _ =>
        refine iff_of_false (by simp [schemaMatches]) fun h => ?_
        rcases h with ⟨_, hroot, _, _⟩ | _ | ⟨_, _, hroot⟩ <;> cases hroot
    | scalar d kind b =>
      rw [Plain.schema, schemaMatches]
      simp only [hd, if_false]
      rw [scalarMatches_iff]
      constructor
      · rintro ⟨hkind, hchoice, hnumber, hshort, hlong⟩
        exact .scalar kind (by omega) rfl hkind hchoice hnumber hshort hlong
      intro h
      cases h with
      | object _ hroot _ _ => cases hroot
      | array _ hroot _ => cases hroot
      | scalar kind' _ hroot hkind hchoice hnumber hshort hlong =>
        cases hroot
        exact ⟨hkind, hchoice, hnumber, hshort, hlong⟩

theorem properties_matches_iff : ∀ (properties : Fields) (name : String) (v : Value) (depth : ℕ),
    propertyMatches (schemas properties) name v depth = true ↔ Takes (cellsOf properties name) v depth
  | [], _, _, _ => iff_of_false Bool.false_ne_true (not_takes_empty rfl)
  | (key, s) :: rest, name, v, depth => by
    rw [schemas, propertyMatches]
    by_cases hk : key = name
    · have hcells : cellsOf ((key, s) :: rest) name = s.cells := funext fun path => if_pos hk
      rw [if_pos hk, hcells, matches_iff s v depth]
    · have hcells : cellsOf ((key, s) :: rest) name = cellsOf rest name := funext fun path => if_neg hk
      rw [if_neg hk, hcells, properties_matches_iff rest name v depth]

end

/-! Equality of scalars -/

def token : Value → Option (Unit ⊕ String ⊕ ℚ)
  | .null => some (.inl ())
  | .str s => some (.inr (.inl s))
  | v => v.numeric.map fun x => .inr (.inr x)

theorem same_iff (a b : Value) : a.same b = true ↔ (token a).isSome = true ∧ token a = token b := by
  cases a with
  | float x => cases x <;> cases b <;> simp [Value.same, token, Value.numeric] <;> grind
  | _ => cases b <;> simp [Value.same, token, Value.numeric] <;> grind

theorem any_same {v w : Value} (h : v.same w = true) (l : List Value) : l.any v.same = l.any w.same := by
  rw [same_iff] at h
  rw [Bool.eq_iff_iff]
  simp only [List.any_eq_true, same_iff, h.2]

theorem any_fromKeys (l : List Value) (v : Value) : (fromKeys l).any v.same = l.any v.same := by
  have hfold (kept : List Value) : (l.foldl (fun kept v => if kept.any v.same then kept else kept ++ [v]) kept).any v.same =
      (kept.any v.same || l.any v.same) := by
    induction l generalizing kept with
    | nil => simp
    | cons w l ih =>
      rw [List.foldl_cons, ih, List.any_cons]
      split
      · rename_i hw
        cases hv : v.same w with
        | false => simp
        | true => simp [any_same hv, hw]
      · simp [Bool.or_assoc]
  simpa [fromKeys] using hfold []

theorem any_equal {l r : List Value} (hlength : l.length = r.length) (h : ((l.zip r).all fun p => p.1.same p.2) = true)
    (v : Value) : l.any v.same = r.any v.same := by
  induction l generalizing r with
  | nil => cases r with
    | nil => rfl
    | cons y r => cases hlength
  | cons x l ih => cases r with
    | nil => cases hlength
    | cons y r =>
      rw [List.zip_cons_cons, List.all_cons, Bool.and_eq_true] at h
      have hhead : v.same x = v.same y := by
        rw [Bool.eq_iff_iff, same_iff, same_iff, ((same_iff x y).mp h.1).2]
      rw [List.any_cons, List.any_cons, hhead, ih (Nat.succ.inj hlength) h.2]

theorem permits_equal {kind : Kind} {l r : Bounds} (h : l.equal r = true) (permit : Permit) :
    l.Permits kind permit ↔ r.Permits kind permit := by
  simp only [Bounds.equal, Bool.and_eq_true, decide_eq_true_eq] at h
  obtain ⟨⟨⟨⟨hchoices, hmin⟩, hmax⟩, hminLength⟩, hmaxLength⟩ := h
  cases permit with
  | choice v =>
    simp only [Bounds.Permits]
    cases hl : l.enum with
    | none => cases hr : r.enum with
      | none => rfl
      | some b => rw [hl, hr] at hchoices; cases hchoices
    | some a => cases hr : r.enum with
      | none => rw [hl, hr] at hchoices; cases hchoices
      | some b =>
        rw [hl, hr] at hchoices
        simp only [sameChoices, Bool.and_eq_true, decide_eq_true_eq] at hchoices
        simp only [Option.mem_def, Option.some.injEq, forall_eq', any_equal hchoices.1 hchoices.2]
  | _ => simp only [Bounds.Permits, hmin, hmax, hminLength, hmaxLength]

theorem both_iff {α : Type} {f : α → α → α} {P : α → Prop} (hf : ∀ x y, P (f x y) ↔ P x ∨ P y) (a b : Option α) :
    (∀ c ∈ both f a b, P c) ↔ (∀ x ∈ a, P x) ∨ ∀ y ∈ b, P y := by
  cases a <;> cases b <;> simp [both, hf]

theorem permits_envelope (kind : Kind) (l r : Bounds) (permit : Permit) :
    (l.envelope r).Permits kind permit ↔ l.Permits kind permit ∨ r.Permits kind permit := by
  cases permit with
  | tag t => exact (or_self_iff).symm
  | without name => exact (or_self_iff).symm
  | choice v => exact both_iff (fun a b => by rw [any_fromKeys, List.any_append, Bool.or_eq_true]) l.enum r.enum
  | low x => exact both_iff (fun a b => min_le_iff) l.minimum r.minimum
  | high x => exact both_iff (fun a b => le_max_iff) l.maximum r.maximum
  | short n => exact both_iff (fun a b => min_le_iff) l.minLength r.minLength
  | long n => exact both_iff (fun a b => le_max_iff) l.maxLength r.maxLength

theorem cellsOf_lookup (name : String) (path : List Step) :
    cellsOf properties name path = (properties.lookup name).elim ∅ fun s => s.cells path := by
  induction properties with
  | nil => rfl
  | cons e rest ih =>
    obtain ⟨key, s⟩ := e
    rw [cellsOf, List.lookup_cons]
    by_cases hk : key = name
    · simp [hk]
    · have hne : (name == key) = false := beq_false_of_ne fun h => hk h.symm
      rw [if_neg hk, ih, hne]

theorem proper_iff {d : Option String} {properties : Fields} {required : List String} :
    (Plain.object d properties required).Proper ↔ (properties.map fun e => e.1).Nodup ∧ ∀ e ∈ properties, e.2.Proper := by
  have hall : properProperties (schemas properties) ↔ ∀ e ∈ properties, e.2.Proper := by
    induction properties with
    | nil => simp [schemas, properProperties]
    | cons e rest ih => simp [schemas, properProperties, ih, Plain.Proper]
  rw [Plain.Proper, Plain.schema, Schema.Proper, names_schemas, hall]

mutual

theorem equal_cell : ∀ (l r : Plain), l.Proper → r.Proper → equal l r = true → ∀ path, l.cells path = r.cells path
  | .object d properties required, .object d' properties' required', hl, hr, h, path => by
    rw [proper_iff] at hl hr
    simp only [equal, Bool.and_eq_true, decide_eq_true_eq] at h
    obtain ⟨⟨⟨_, hlength⟩, hproperties⟩, hrequired⟩ := h
    cases path with
    | nil =>
      subst hrequired
      ext permit
      cases permit <;> rfl
    | cons step path => cases step with
      | items => rfl
      | property name =>
        obtain ⟨hnames, hcells⟩ := equalProperties_cell properties properties' hl.1 hl.2 hr.2 hproperties
        rw [Plain.cells, Plain.cells]
        by_cases hname : name ∈ properties.map fun e => e.1
        · exact hcells name hname path
        have hperm : (properties.map fun e => e.1).Perm (properties'.map fun e => e.1) :=
          (List.subperm_of_subset hl.1 hnames).perm_of_length_le (by simp [hlength])
        have hname' : name ∉ properties'.map fun e => e.1 := fun h => hname (hperm.mem_iff.mpr h)
        rw [cellsOf_absent hname, cellsOf_absent hname']
  | .array d items, .array d' items', hl, hr, h, path => by
    simp only [equal, Bool.and_eq_true] at h
    cases path with
    | nil =>
      ext permit
      cases permit <;> rfl
    | cons step path => cases step with
      | items => exact equal_cell items items' hl hr h.2 path
      | property name => rfl
  | .scalar d kind b, .scalar d' kind' b', _, _, h, path => by
    simp only [equal, Bool.and_eq_true, decide_eq_true_eq] at h
    obtain ⟨⟨_, hkind⟩, hbounds⟩ := h
    cases path with
    | nil =>
      subst hkind
      ext permit
      exact permits_equal hbounds permit
    | cons step path => cases step <;> rfl
  | .object .., .array .., _, _, h, _ => nomatch h
  | .object .., .scalar .., _, _, h, _ => nomatch h
  | .array .., .object .., _, _, h, _ => nomatch h
  | .array .., .scalar .., _, _, h, _ => nomatch h
  | .scalar .., .object .., _, _, h, _ => nomatch h
  | .scalar .., .array .., _, _, h, _ => nomatch h

theorem equalProperties_cell : ∀ (l r : Fields), (l.map fun e => e.1).Nodup → (∀ e ∈ l, e.2.Proper) →
    (∀ e ∈ r, e.2.Proper) → equalProperties l r = true → ((l.map fun e => e.1) ⊆ r.map fun e => e.1) ∧
      ∀ name ∈ l.map fun e => e.1, ∀ path, cellsOf l name path = cellsOf r name path
  | [], _, _, _, _, _ => ⟨List.nil_subset _, fun _ h => nomatch h⟩
  | (key, s) :: rest, r, hnodup, hl, hr, h => by
    rw [List.map_cons, List.nodup_cons] at hnodup
    rw [equalProperties, Bool.and_eq_true] at h
    obtain ⟨hhead, hrest⟩ := h
    obtain ⟨hnames, hcells⟩ := equalProperties_cell rest r hnodup.2 (fun e he => hl e (List.mem_cons_of_mem _ he)) hr hrest
    cases hlookup : r.lookup key with
    | none => rw [hlookup] at hhead; cases hhead
    | some t =>
      rw [hlookup] at hhead
      have hmem := mem_of_lookup hlookup
      have hcell := equal_cell s t (hl _ List.mem_cons_self) (hr _ hmem) hhead
      refine ⟨List.cons_subset.mpr ⟨List.mem_map_of_mem (f := fun e => e.1) hmem, hnames⟩, fun name hname path => ?_⟩
      by_cases hk : key = name
      · subst hk
        rw [cellsOf, if_pos rfl, cellsOf_lookup r, hlookup]
        exact hcell path
      · rw [cellsOf, if_neg hk]
        exact hcells name ((List.mem_cons.mp hname).resolve_left fun h => hk h.symm) path

end

theorem cellsOf_append (a b : Fields) (name : String) (path : List Step) :
    cellsOf (a ++ b) name path = if name ∈ a.map fun e => e.1 then cellsOf a name path else cellsOf b name path := by
  induction a with
  | nil => rfl
  | cons e a ih =>
    by_cases hk : e.1 = name
    · simp [cellsOf, hk]
    have hk' : name ≠ e.1 := fun h => hk h.symm
    rw [List.cons_append, cellsOf, cellsOf, if_neg hk, if_neg hk, ih, List.map_cons]
    simp only [List.mem_cons, hk', false_or]

theorem cellsOf_filter {p : String → Bool} {name : String} (hp : p name = true) (l : Fields) (path : List Step) :
    cellsOf (l.filter fun e => p e.1) name path = cellsOf l name path := by
  induction l with
  | nil => rfl
  | cons e l ih =>
    by_cases hk : e.1 = name
    · simp [cellsOf, hk, hp]
    rw [cellsOf, if_neg hk, List.filter_cons]
    split
    · rw [cellsOf, if_neg hk, ih]
    · exact ih

def Conflict (s : Set Permit) : Prop := ∃ t t', t ≠ t' ∧ .tag t ∈ s ∧ .tag t' ∈ s

def Plain.tag : Plain → Tag
  | .object _ _ _ => .object
  | .array _ _ => .array
  | .scalar _ kind _ => .scalar kind

theorem tag_mem (s : Plain) : .tag s.tag ∈ s.cells [] := by
  cases s <;> rfl

theorem conflict_of_tag {l r : Plain} (h : l.tag ≠ r.tag) : ∃ path, Conflict (l.cells path ∪ r.cells path) :=
  ⟨[], l.tag, r.tag, h, .inl (tag_mem l), .inr (tag_mem r)⟩

def Joins (cells : Cells) : Except String Plain → Prop
  | .ok e => e.Proper ∧ ∀ path, e.cells path = cells path
  | .error _ => ∃ path, Conflict (cells path)

def JoinsProperties (l r : Fields) : Except String (Fields) → Prop
  | .ok common => ((common.map fun e => e.1) = l.map fun e => e.1) ∧ (∀ e ∈ common, e.2.Proper) ∧
      ∀ name ∈ l.map fun e => e.1, ∀ path, cellsOf common name path = cellsOf l name path ∪ cellsOf r name path
  | .error _ => ∃ name ∈ l.map fun e => e.1, ∃ path, Conflict (cellsOf l name path ∪ cellsOf r name path)

theorem JoinsProperties.cons {l r : Fields} {result : Except String (Fields)} {key : String}
    {s merged : Plain} (h : JoinsProperties l r result) (hkey : key ∉ l.map fun e => e.1) (hmerged : merged.Proper)
    (hcell : ∀ path, merged.cells path = s.cells path ∪ cellsOf r key path) :
    JoinsProperties ((key, s) :: l) r (result >>= fun rest => .ok ((key, merged) :: rest)) := by
  have hne {name : String} (hname : name ∈ l.map fun e => e.1) : key ≠ name := fun h => hkey (h ▸ hname)
  cases result with
  | error t =>
    obtain ⟨name, hname, path, hconflict⟩ := h
    refine ⟨name, List.mem_cons_of_mem _ hname, path, ?_⟩
    rwa [cellsOf, if_neg (hne hname)]
  | ok common =>
    obtain ⟨hnames, hproper, hcells⟩ := h
    refine ⟨congrArg (key :: ·) hnames, List.forall_mem_cons.mpr ⟨hmerged, hproper⟩, fun name hname path => ?_⟩
    by_cases hk : key = name
    · subst hk
      rw [cellsOf, cellsOf, if_pos rfl, if_pos rfl]
      exact hcell path
    · rw [cellsOf, cellsOf, if_neg hk, if_neg hk]
      exact hcells name ((List.mem_cons.mp hname).resolve_left fun h => hk h.symm) path

mutual

theorem envelope_spec : ∀ (l r : Plain), l.Proper → r.Proper →
    Joins (fun path => l.cells path ∪ r.cells path) (envelope l r)
  | l, r, hl, hr => by
    unfold envelope
    split
    · rename_i hequal
      refine ⟨hl, fun path => ?_⟩
      dsimp only
      rw [← equal_cell l r hl hr hequal path, Set.union_self]
    cases l with
    | object d properties required =>
      cases r with
      | object d' properties' required' =>
        have hspec := envelopeProperties_spec properties properties' (proper_iff.mp hl).1 (proper_iff.mp hl).2
          (proper_iff.mp hr).2
        dsimp only
        cases hcommon : envelopeProperties properties properties' with
        | error t =>
          rw [hcommon] at hspec
          obtain ⟨name, _, path, hconflict⟩ := hspec
          exact ⟨.property name :: path, hconflict⟩
        | ok common =>
          rw [hcommon] at hspec
          obtain ⟨hnames, hproper, hcells⟩ := hspec
          rw [proper_iff] at hl hr
          refine ⟨proper_iff.mpr ⟨?_, ?_⟩, ?_⟩
          · rw [List.map_append, hnames, List.nodup_append]
            refine ⟨hl.1, hr.1.sublist (List.filter_sublist.map _), fun a ha b hb hab => ?_⟩
            obtain ⟨e, he, rfl⟩ := List.mem_map.mp hb
            simp only [List.mem_filter, Bool.not_eq_true', decide_eq_false_iff_not] at he
            exact he.2 (hab ▸ ha)
          · intro e he
            rcases List.mem_append.mp he with he | he
            · exact hproper e he
            · exact hr.2 e (List.mem_of_mem_filter he)
          intro path
          cases path with
          | nil =>
            ext permit
            cases permit with
            | tag t => exact (or_self_iff).symm
            | without name =>
              change name ∉ (required.filter fun name => name ∈ required').dedup.insertionSort (· ≤ ·) ↔
                name ∉ required ∨ name ∉ required'
              rw [List.mem_insertionSort, List.mem_dedup, List.mem_filter, decide_eq_true_eq, not_and_or]
            | _ => exact (or_self_iff).symm
          | cons step path => cases step with
            | items => exact (Set.union_self _).symm
            | property name =>
              change cellsOf (common ++ _) name path = cellsOf properties name path ∪ cellsOf properties' name path
              rw [cellsOf_append, hnames]
              split
              · rename_i hname
                exact hcells name hname path
              rename_i hname
              rw [cellsOf_filter (p := fun name => !(name ∈ properties.map fun e => e.1)) (by simpa using hname),
                cellsOf_absent hname]
              exact (Set.empty_union _).symm
      | _ => exact conflict_of_tag nofun
    | array d items =>
      cases r with
      | array d' items' =>
        have hspec := envelope_spec items items' hl hr
        dsimp only
        cases hitems : envelope items items' with
        | error t =>
          rw [hitems] at hspec
          obtain ⟨path, hconflict⟩ := hspec
          exact ⟨.items :: path, hconflict⟩
        | ok e =>
          rw [hitems] at hspec
          refine ⟨hspec.1, fun path => ?_⟩
          cases path with
          | nil =>
            ext permit
            cases permit <;> exact (or_self_iff).symm
          | cons step path => cases step with
            | items => exact hspec.2 path
            | property name => exact (Set.union_self _).symm
      | _ => exact conflict_of_tag nofun
    | scalar d kind b =>
      cases r with
      | scalar d' kind' b' =>
        dsimp only
        split
        · rename_i hkind
          subst hkind
          refine ⟨trivial, fun path => ?_⟩
          cases path with
          | nil =>
            ext permit
            exact permits_envelope kind b b' permit
          | cons step path => cases step <;> exact (Set.union_self _).symm
        · rename_i hkind
          exact conflict_of_tag fun h => hkind (Tag.scalar.inj h)
      | _ => exact conflict_of_tag nofun

theorem envelopeProperties_spec : ∀ (l r : Fields), (l.map fun e => e.1).Nodup → (∀ e ∈ l, e.2.Proper) →
    (∀ e ∈ r, e.2.Proper) → JoinsProperties l r (envelopeProperties l r)
  | [], _, _, _, _ => ⟨rfl, by simp, by simp⟩
  | (key, s) :: rest, r, hnodup, hl, hr => by
    rw [List.map_cons, List.nodup_cons] at hnodup
    have hspec := envelopeProperties_spec rest r hnodup.2 (fun e he => hl e (List.mem_cons_of_mem _ he)) hr
    have hs := hl _ List.mem_cons_self
    rw [envelopeProperties]
    cases hlookup : r.lookup key with
    | none =>
      apply hspec.cons hnodup.1 hs
      intro path
      rw [cellsOf_lookup r, hlookup]
      exact (Set.union_empty _).symm
    | some t =>
      have hjoin := envelope_spec s t hs (hr _ (mem_of_lookup hlookup))
      dsimp only
      cases hhead : envelope s t with
      | error e =>
        rw [hhead] at hjoin
        obtain ⟨path, hconflict⟩ := hjoin
        refine ⟨key, List.mem_cons_self, path, ?_⟩
        rw [cellsOf, if_pos rfl, cellsOf_lookup r, hlookup]
        exact hconflict
      | ok merged =>
        rw [hhead] at hjoin
        apply hspec.cons hnodup.1 hjoin.1
        intro path
        rw [cellsOf_lookup r, hlookup]
        exact hjoin.2 path

end

/-! Folding the envelope over several schemas -/

def envelopes (first : Plain) (rest : List Plain) : Except String Plain := rest.foldlM envelope first

theorem Conflict.mono {s t : Set Permit} (h : Conflict s) (hsub : s ⊆ t) : Conflict t := by
  obtain ⟨tag, tag', hne, htag, htag'⟩ := h
  exact ⟨tag, tag', hne, hsub htag, hsub htag'⟩

mutual

theorem not_conflict : ∀ (s : Plain) (path : List Step), ¬ Conflict (s.cells path)
  | s, path => by
    rintro ⟨t, t', hne, ht, ht'⟩
    cases path with
    | nil => cases s <;> exact hne (Eq.trans ht (Eq.symm ht'))
    | cons step path =>
      cases s with
      | object d properties required => cases step with
        | property name => exact not_conflictOf properties name path ⟨t, t', hne, ht, ht'⟩
        | items => exact ht
      | array d items => cases step with
        | property name => exact ht
        | items => exact not_conflict items path ⟨t, t', hne, ht, ht'⟩
      | scalar d kind b => cases step <;> exact ht

theorem not_conflictOf : ∀ (properties : Fields) (name : String) (path : List Step),
    ¬ Conflict (cellsOf properties name path)
  | [], _, _ => fun ⟨_, _, _, ht, _⟩ => ht
  | (key, s) :: rest, name, path => by
    rw [cellsOf]
    split
    · exact not_conflict s path
    · exact not_conflictOf rest name path

end

def Within (l r : Fields) : Prop := ∀ name path, cellsOf l name path ⊆ cellsOf r name path

variable {m : ModuleManifest} {d : ToolDescriptor}

variable {descriptors : List ToolDescriptor}

def call (action : String) (arguments : Json) : Json :=
  ⟨.obj [("action", .str action), ("arguments", arguments.value)], by
    simp [Value.Proper, properEntries, arguments.proper]⟩

namespace Nested

def counted : Plain := .scalar none .integer ⟨none, some 1, some 9, none, none⟩

def nest (n : ℕ) : Plain := n.rec counted fun _ items => .array none items

def nestValue (n : ℕ) : Value := n.rec (.int 3) fun _ v => .arr [v]

theorem nest_proper (n : ℕ) : (nest n).Proper := by
  induction n with
  | zero => trivial
  | succ n ih => exact ih

theorem nestValue_proper (n : ℕ) : (nestValue n).Proper := by
  induction n with
  | zero => trivial
  | succ n ih => exact ⟨ih, trivial⟩

def manifest (n : ℕ) : ModuleManifest where
  capabilities := [("tree", .object none [("items", nest n)] ["items"])]
  proper := by
    intro e he
    simp only [List.mem_cons, List.not_mem_nil, or_false] at he
    subst he
    exact proper_iff.mpr ⟨by simp, by simpa using nest_proper n⟩

def descriptor : ToolDescriptor := ⟨"show", "tree", [("items", "items")], by decide +kernel⟩

def arguments (n : ℕ) : Json := ⟨.obj [("items", nestValue n)], by simp [Value.Proper, properEntries, nestValue_proper]⟩

end Nested

end GameLink.Schemas

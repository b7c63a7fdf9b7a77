import GameLink.Schemas.Validators

namespace GameLink.Schemas

theorem mem_of_lookup {β : Type} {l : List (String × β)} {key : String} {b : β} (h : l.lookup key = some b) :
    (key, b) ∈ l := by
  obtain ⟨l₁, l₂, rfl, -⟩ := List.lookup_eq_some_iff.mp h
  simp

theorem lookup_iff {β : Type} {l : List (String × β)} (h : (l.map fun e => e.1).Nodup) (key : String) (b : β) :
    l.lookup key = some b ↔ (key, b) ∈ l := by
  constructor
  · exact mem_of_lookup
  intro hm
  obtain ⟨l₁, l₂, rfl⟩ := List.append_of_mem hm
  apply List.lookup_eq_some_iff.mpr
  refine ⟨l₁, l₂, rfl, ?_⟩
  intro e he
  have hk : e.1 ≠ key := by
    intro hk
    rw [List.map_append, List.nodup_append] at h
    exact h.2.2 e.1 (List.mem_map_of_mem he) key (by simp) hk
  simpa using Ne.symm hk

theorem properEntries_iff (l : List (String × Value)) : properEntries l ↔ ∀ e ∈ l, e.2.Proper := by
  induction l with
  | nil => simp [properEntries]
  | cons e rest ih =>
    obtain ⟨k, v⟩ := e
    simp [properEntries, ih]

theorem properItems_iff (l : List Value) : properItems l ↔ ∀ v ∈ l, v.Proper := by
  induction l with
  | nil => simp [properItems]
  | cons v rest ih => simp [properItems, ih]

/-! What the contract admits is proper. -/

def ProperFields (properties : List (String × Schema)) : Prop :=
  (properties.map fun e => e.1).Nodup ∧ properProperties properties

namespace Reading

structure Proper (r : Reading) : Prop where
  schema : ∀ s, r.schema = some s → s.Proper
  properties : ∀ l, r.properties = some l → ProperFields l

end Reading

namespace Freeze

variable {fields : List (String × Reading)} {s : Schema}

theorem scalar_proper {kind : Kind} (h : scalar kind fields = some s) : s.Proper := by
  unfold scalar at h
  simp only [Option.bind_eq_bind, Option.bind_eq_some_iff, Option.ite_none_right_eq_some, Option.map_eq_some_iff] at h
  obtain ⟨values, -, -, b, -, rfl⟩ := h
  trivial

section

variable (hf : ∀ e ∈ fields, e.2.Proper)
include hf

theorem object_proper (h : object fields = some s) : s.Proper := by
  unfold object at h
  simp only [Option.bind_eq_bind, Option.bind_eq_some_iff, Option.ite_none_right_eq_some, Option.some.injEq] at h
  obtain ⟨l, hl, names, -, -, rfl⟩ := h
  unfold properties at hl
  split at hl
  next =>
    cases hl
    exact ⟨by simp, trivial⟩
  next r hr => exact (hf _ (mem_of_lookup hr)).properties _ hl

theorem array_proper (h : array fields = some s) : s.Proper := by
  unfold array at h
  simp only [Option.bind_eq_bind, Option.bind_eq_some_iff, Option.ite_none_right_eq_some, Option.some.injEq] at h
  obtain ⟨r, hr, items, hi, -, rfl⟩ := h
  change items.Proper
  exact (hf _ (mem_of_lookup hr)).schema _ hi

theorem assemble_proper (h : assemble fields = some s) : s.Proper := by
  unfold assemble at h
  split at h
  · cases h
  split at h
  · exact object_proper hf h
  · exact array_proper hf h
  · exact scalar_proper h
  · exact scalar_proper h
  · exact scalar_proper h
  · exact scalar_proper h
  · cases h

end

end Freeze

theorem readChildren_names {entries : List (String × Value)} {l : List (String × Schema)}
    (h : readChildren entries = some l) : (l.map fun e => e.1) = entries.map fun e => e.1 := by
  induction entries generalizing l with
  | nil => simp_all [readChildren]
  | cons e rest ih =>
    obtain ⟨name, child⟩ := e
    rw [readChildren] at h
    split at h
    · split at h
      next schema more hs hm =>
        cases h
        simp [ih hm]
      next => cases h
    · cases h

mutual

theorem freezeInputSchema_proper : ∀ {v : Value} {s : Schema}, v.Proper → freezeInputSchema v = some s → s.Proper
  | .obj entries, s, hv, h => by
    rw [freezeInputSchema] at h
    rw [Value.Proper] at hv
    exact Freeze.assemble_proper (readEntries_proper hv.2) h
  | .null, s, hv, h => by simp [freezeInputSchema] at h
  | .bool _, s, hv, h => by simp [freezeInputSchema] at h
  | .int _, s, hv, h => by simp [freezeInputSchema] at h
  | .float _, s, hv, h => by simp [freezeInputSchema] at h
  | .str _, s, hv, h => by simp [freezeInputSchema] at h
  | .arr _, s, hv, h => by simp [freezeInputSchema] at h

theorem readEntries_proper : ∀ {entries : List (String × Value)}, properEntries entries →
    ∀ e ∈ readEntries entries, e.2.Proper
  | [], _, e, he => by simp [readEntries] at he
  | (key, v) :: rest, hv, e, he => by
    rw [properEntries] at hv
    rw [readEntries, List.mem_cons] at he
    cases he with
    | inl he =>
      subst he
      constructor
      · intro s hs
        exact freezeInputSchema_proper hv.1 hs
      · intro l hl
        exact readProperties_proper hv.1 hl
    | inr he => exact readEntries_proper hv.2 e he

theorem readProperties_proper : ∀ {v : Value} {l : List (String × Schema)}, v.Proper → readProperties v = some l →
    ProperFields l
  | .obj entries, l, hv, h => by
    rw [readProperties] at h
    rw [Value.Proper] at hv
    constructor
    · rw [readChildren_names h]
      exact hv.1
    · exact readChildren_proper hv.2 h
  | .null, l, hv, h => by simp [readProperties] at h
  | .bool _, l, hv, h => by simp [readProperties] at h
  | .int _, l, hv, h => by simp [readProperties] at h
  | .float _, l, hv, h => by simp [readProperties] at h
  | .str _, l, hv, h => by simp [readProperties] at h
  | .arr _, l, hv, h => by simp [readProperties] at h

theorem readChildren_proper : ∀ {entries : List (String × Value)} {l : List (String × Schema)}, properEntries entries →
    readChildren entries = some l → properProperties l
  | [], l, _, h => by
    simp only [readChildren, Option.some.injEq] at h
    subst h
    trivial
  | (name, child) :: rest, l, hv, h => by
    rw [properEntries] at hv
    rw [readChildren] at h
    split at h
    · split at h
      next schema more hs hm =>
        cases h
        exact ⟨freezeInputSchema_proper hv.1 hs, readChildren_proper hv.2 hm⟩
      next => cases h
    · cases h

end

/-! The two interpreters -/

theorem validateScalar_iff (kind : Kind) (bounds : Bounds) (value : Value) (path : String) :
    validateScalar kind bounds value path = .ok () ↔ scalarMatches kind bounds value = true := by
  have hfinite : (kind.admits value && value.finite) = (kind.admits value && (kind ≠ .number || value.finite)) := by
    cases kind <;> cases value <;> simp [Kind.admits, Value.finite]
  unfold validateScalar scalarMatches
  rw [← hfinite]
  cases hv : kind.admits value && value.finite
  · have hn : (!kind.admits value || !value.finite) = true := by
      rw [← Bool.not_and, hv]
      rfl
    simp [hn, throw, throwThe, MonadExceptOf.throw, bind, Except.bind]
  have hn : (!kind.admits value || !value.finite) = false := by
    rw [← Bool.not_and, hv]
    rfl
  simp only [hn]
  cases bounds.enum.any fun choices => !choices.any value.same
  all_goals cases below bounds.minimum value.numeric
  all_goals cases above bounds.maximum value.numeric
  all_goals cases bounds.minLength.any fun b => decide (value.length < b)
  all_goals cases bounds.maxLength.any fun b => decide (b < value.length)
  all_goals simp [throw, throwThe, MonadExceptOf.throw, bind, Except.bind, pure, Except.pure]

theorem forM_ok {α : Type} (f : α → Except String Unit) (l : List α) : l.forM f = .ok () ↔ ∀ a ∈ l, f a = .ok () := by
  induction l with
  | nil => simp [pure, Except.pure]
  | cons a rest ih =>
    change (f a >>= fun _ => rest.forM f) = .ok () ↔ _
    cases h : f a with
    | error e => simp [bind, Except.bind, h]
    | ok u =>
      change rest.forM f = .ok () ↔ _
      rw [ih]
      simp [h]

theorem validateProperties_iff (properties : List (String × Schema)) (entries : List (String × Value)) (path : String)
    (depth : ℕ) :
    validateProperties properties entries path depth = .ok () ↔
      ∀ p ∈ properties, ∀ item, entries.lookup p.1 = some item →
        validate p.2 item (path ++ "." ++ p.1) depth = .ok () := by
  induction properties with
  | nil => simp [validateProperties]
  | cons p rest ih =>
    obtain ⟨name, child⟩ := p
    rw [validateProperties]
    cases hl : entries.lookup name with
    | none => simp [hl, ih]
    | some item =>
      dsimp only
      cases hv : validate child item (path ++ "." ++ name) depth with
      | error e => simp [hl, hv, bind, Except.bind]
      | ok u => simp [hl, hv, ih, bind, Except.bind]

theorem propertyMatches_of_mem {properties : List (String × Schema)} (hp : (properties.map fun p => p.1).Nodup)
    {name : String} {child : Schema} (hm : (name, child) ∈ properties) (item : Value) (depth : ℕ) :
    propertyMatches properties name item depth = schemaMatches child item depth := by
  induction properties with
  | nil => cases hm
  | cons p rest ih =>
    obtain ⟨n, c⟩ := p
    simp only [List.map_cons, List.nodup_cons] at hp
    rw [propertyMatches]
    cases hm with
    | head => simp
    | tail _ hm =>
      have hne : n ≠ name := by
        intro he
        subst he
        exact hp.1 (List.mem_map_of_mem (f := fun p => p.1) hm)
      rw [if_neg hne]
      exact ih hp.2 hm

theorem closed_declared {properties : List (String × Schema)} {required : List String} {entries : List (String × Value)}
    (h : closed properties required entries = true) {e : String × Value} (he : e ∈ entries) :
    ∃ child, (e.1, child) ∈ properties := by
  rw [closed, Bool.and_eq_true, List.all_eq_true] at h
  have hm : e.1 ∈ properties.map fun p => p.1 := by simpa using h.1 e he
  obtain ⟨p, hp, hpe⟩ := List.mem_map.mp hm
  rw [← hpe]
  exact ⟨p.2, hp⟩

theorem validate_deep {depth : ℕ} (hd : depth > 64) (s : Schema) (v : Value) (path : String) :
    validate s v path depth = .error "parameters exceed supported nesting depth" := by
  unfold validate
  simp [hd, throw, throwThe, MonadExceptOf.throw, bind, Except.bind]

theorem schemaMatches_deep {depth : ℕ} (hd : depth > 64) (s : Schema) (v : Value) : schemaMatches s v depth = false := by
  unfold schemaMatches
  simp [hd]

mutual

theorem validate_iff : ∀ (s : Schema), s.Proper → ∀ v : Value, v.Proper → ∀ (path : String) (depth : ℕ),
    validate s v path depth = .ok () ↔ schemaMatches s v depth = true
  | .object properties required, hs, v, hv, path, depth => by
    rw [Schema.Proper] at hs
    by_cases hd : depth > 64
    · rw [validate_deep hd, schemaMatches_deep hd]
      simp
    cases v with
    | obj entries =>
      rw [Value.Proper] at hv
      rw [validate, schemaMatches]
      simp only [hd, if_false]
      cases hc : closed properties required entries with
      | false => simp [throw, throwThe, MonadExceptOf.throw, bind, Except.bind]
      | true =>
        have hbound := validateProperties_iff properties entries path (depth + 1)
        simp only [bind, Except.bind, Bool.not_true, Bool.false_eq_true, if_false, hbound, List.all_eq_true]
        constructor
        · intro h e he
          obtain ⟨child, hm⟩ := closed_declared hc he
          rw [propertyMatches_of_mem hs.1 hm, ← properties_iff properties hs.2 _ hm _ ((properEntries_iff _).mp hv.2 e he)]
          exact h _ hm e.2 ((lookup_iff hv.1 e.1 e.2).mpr he)
        intro h p hp item hl
        have hm := mem_of_lookup hl
        have hmatch := h _ hm
        rw [propertyMatches_of_mem hs.1 hp] at hmatch
        exact (properties_iff properties hs.2 p hp item ((properEntries_iff _).mp hv.2 _ hm) _ _).mpr hmatch
    | _ => simp [validate, schemaMatches, hd, throw, throwThe, MonadExceptOf.throw]
  | .array items, hs, v, hv, path, depth => by
    rw [Schema.Proper] at hs
    by_cases hd : depth > 64
    · rw [validate_deep hd, schemaMatches_deep hd]
      simp
    cases v with
    | arr values =>
      rw [Value.Proper] at hv
      rw [validate, schemaMatches]
      simp only [hd, if_false]
      simp only [forM_ok, List.all_eq_true]
      constructor
      · intro h item hi
        exact (validate_iff items hs item ((properItems_iff _).mp hv item hi) _ _).mp (h item hi)
      · intro h item hi
        exact (validate_iff items hs item ((properItems_iff _).mp hv item hi) _ _).mpr (h item hi)
    | _ => simp [validate, schemaMatches, hd, throw, throwThe, MonadExceptOf.throw]
  | .scalar kind bounds, _, v, _, path, depth => by
    by_cases hd : depth > 64
    · rw [validate_deep hd, schemaMatches_deep hd]
      simp
    rw [validate, schemaMatches]
    simp only [hd, if_false, bind, Except.bind]
    exact validateScalar_iff kind bounds v path

theorem properties_iff : ∀ (properties : List (String × Schema)), properProperties properties → ∀ p ∈ properties,
    ∀ v : Value, v.Proper → ∀ (path : String) (depth : ℕ),
      validate p.2 v path depth = .ok () ↔ schemaMatches p.2 v depth = true
  | [], _, p, hp, _, _, _, _ => by cases hp
  | (name, child) :: rest, hs, p, hp, v, hv, path, depth => by
    rw [properProperties] at hs
    rw [List.mem_cons] at hp
    cases hp with
    | inl hp =>
      rw [hp]
      exact validate_iff child hs.1 v hv path depth
    | inr hp => exact properties_iff rest hs.2 p hp v hv path depth

end

/-! What matches is frozen as it is. -/

theorem freezeItems_self {l : List Value} (h : ∀ v ∈ l, freezeJson v = .ok v) : freezeItems l = .ok l := by
  induction l with
  | nil => rw [freezeItems]
  | cons v rest ih =>
    rw [freezeItems, h v (by simp), ih fun w hw => h w (by simp [hw])]
    rfl

theorem freezeEntries_self {l : List (String × Value)} (h : ∀ e ∈ l, freezeJson e.2 = .ok e.2) :
    freezeEntries l = .ok l := by
  induction l with
  | nil => rw [freezeEntries]
  | cons e rest ih =>
    obtain ⟨key, v⟩ := e
    rw [freezeEntries, h (key, v) (by simp), ih fun e he => h e (by simp [he])]
    rfl

theorem scalarMatches_freeze {kind : Kind} {bounds : Bounds} {v : Value} (h : scalarMatches kind bounds v = true) :
    freezeJson v = .ok v := by
  unfold scalarMatches at h
  split at h
  · cases h
  next hv =>
    cases v with
    | float x =>
      cases x with
      | none => cases kind <;> simp [Kind.admits, Value.finite] at hv
      | some x => simp [freezeJson]
    | arr items => cases kind <;> simp [Kind.admits] at hv
    | obj entries => cases kind <;> simp [Kind.admits] at hv
    | _ => simp [freezeJson]

mutual

theorem schemaMatches_freeze : ∀ (s : Schema) (v : Value) (depth : ℕ), schemaMatches s v depth = true →
    freezeJson v = .ok v
  | s, v, depth, h => by
    by_cases hd : depth > 64
    · rw [schemaMatches_deep hd] at h
      cases h
    cases s with
    | object properties required =>
      cases v with
      | obj entries =>
        rw [schemaMatches] at h
        simp only [hd, if_false, Bool.if_false_left, Bool.and_eq_true, List.all_eq_true] at h
        rw [freezeJson, freezeEntries_self fun e he => propertyMatches_freeze properties e.1 e.2 _ (h.2 e he)]
        rfl
      | _ => simp [schemaMatches] at h
    | array items =>
      cases v with
      | arr values =>
        rw [schemaMatches] at h
        simp only [hd, if_false, List.all_eq_true] at h
        rw [freezeJson, freezeItems_self fun w hw => schemaMatches_freeze items w _ (h w hw)]
        rfl
      | _ => simp [schemaMatches] at h
    | scalar kind bounds =>
      rw [schemaMatches] at h
      simp only [hd, if_false] at h
      exact scalarMatches_freeze h

theorem propertyMatches_freeze : ∀ (properties : List (String × Schema)) (key : String) (v : Value) (depth : ℕ),
    propertyMatches properties key v depth = true → freezeJson v = .ok v
  | [], _, _, _, h => by simp [propertyMatches] at h
  | (name, child) :: rest, key, v, depth, h => by
    rw [propertyMatches] at h
    split at h
    · exact schemaMatches_freeze child v depth h
    · exact propertyMatches_freeze rest key v depth h

end

structure Json where
  value : Value
  proper : value.Proper

/-- Under every admitted schema the invocation path accepts the parameters that the filter path accepts, as they are. -/
theorem validators_agree (raw : Json) (s : Schema) (hs : freezeInputSchema raw.value = some s) (json : Json) :
    (∀ path depth, validate s json.value path depth = .ok () ↔ schemaMatches s json.value depth = true) ∧
      (∀ properties required, s = .object properties required →
        ∀ accepted, validateParameters s json.value = .ok accepted ↔
          schemaMatches s json.value 0 = true ∧ accepted = json.value) := by
  have hp : s.Proper := freezeInputSchema_proper raw.proper hs
  constructor
  · intro path depth
    exact validate_iff s hp json.value json.proper path depth
  intro properties required ho accepted
  subst ho
  have hiff := validate_iff _ hp json.value json.proper "parameters" 0
  unfold validateParameters
  cases hv : validate (.object properties required) json.value "parameters" 0 with
  | error e =>
    rw [hv] at hiff
    have hm : ¬schemaMatches (.object properties required) json.value 0 = true := by
      intro hm
      cases hiff.mpr hm
    simp [hm, bind, Except.bind]
  | ok u =>
    have hm := hiff.mp hv
    have hfreeze := schemaMatches_freeze _ _ _ hm
    have hobj : ∃ entries, json.value = .obj entries := by
      cases hval : json.value with
      | obj entries => exact ⟨entries, rfl⟩
      | _ => simp [hval, schemaMatches] at hm
    obtain ⟨entries, hval⟩ := hobj
    rw [hval] at hm hfreeze ⊢
    simp only [bind, Except.bind, hfreeze, pure, Except.pure, Except.ok.injEq, hm, true_and]
    exact eq_comm

namespace Sample

def worlds : Json where
  value := .obj
    [("type", .str "object"), ("properties", .obj [("worlds", .obj [("type", .str "array"), ("items", .obj
              [("type", .str "object"), ("properties", .obj
                  [("name", .obj [("type", .str "string"), ("minLength", .int 1)]),
                    ("level", .obj [("type", .str "integer"), ("minimum", .int 1), ("maximum", .int 100)])]),
                ("required", .arr [.str "name"])])])]), ("required", .arr [.str "worlds"])]
  proper := by simp [Value.Proper, properEntries, properItems]

def frozen : Schema :=
  .object
    [("worlds", .array (.object [("name", .scalar .string ⟨none, none, none, some 1, none⟩),
        ("level", .scalar .integer ⟨none, some 1, some 100, none, none⟩)] ["name"]))]
    ["worlds"]

def twoWorlds : Json where
  value := .obj
    [("worlds", .arr [.obj [("level", .int 90), ("name", .str "a")], .obj [("name", .str "b")]])]
  proper := by simp [Value.Proper, properEntries, properItems]

def matching : {json : Json // schemaMatches frozen json.value 0 = true} := ⟨twoWorlds, by decide +kernel⟩

end Sample

theorem validators_agree_worlds : validateParameters Sample.frozen Sample.twoWorlds.value = .ok Sample.twoWorlds.value := by
  have hs : freezeInputSchema Sample.worlds.value = some Sample.frozen := by rfl
  have h := (validators_agree Sample.worlds Sample.frozen hs Sample.twoWorlds).2 _ _ rfl Sample.twoWorlds.value
  exact h.mpr ⟨Sample.matching.property, rfl⟩

end GameLink.Schemas

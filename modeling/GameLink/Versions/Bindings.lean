import GameLink.Versions.Records

namespace GameLink.Versions

open Foundation Work Contracts

structure ConversationKey where
  adapterId : String
  conversationId : String
  deriving DecidableEq

structure BindingScope where
  principalId : String
  moduleId : String
  conversation : ConversationKey
  deriving DecidableEq

structure Binding where
  bindingId : String
  revision : ℕ
  scope : BindingScope
  objectType : String
  objectId : String
  origin : String
  deriving DecidableEq

structure DefaultRow where
  scope : BindingScope
  bindingId : String
  revision : ℕ

structure BindingStore where
  principals : List String
  conversations : List ConversationKey
  bindings : Table Binding.bindingId
  defaults : Table DefaultRow.scope

abbrev BindingWork := Work BindingStore Failure

def ensureConversationScope (conversation : ConversationKey) : BindingWork Unit := do
  let s ← read
  raiseIf (conversation ∉ s.conversations) (.valueError "conversation does not exist")

def bindsSame (b r : Binding) : Bool :=
  r.bindingId ≠ b.bindingId && r.scope = b.scope && r.objectType = b.objectType && r.objectId = b.objectId

def insertBinding (b : Binding) : BindingWork Unit := do
  let s ← read
  raiseIf (b.scope.principalId ∉ s.principals) (.valueError "referenced identity or conversation does not exist")
  raiseIf (s.bindings.rows.any (bindsSame b)) .uniqueConstraintViolation
  let table ← orRaise (s.bindings.insert b) .uniqueConstraintViolation
  write fun s => { s with bindings := table }

def rebind (b r : Binding) : Binding :=
  { r with revision := b.revision, objectType := b.objectType, objectId := b.objectId, origin := b.origin }

def atBinding (bindingId : String) (expected : ℕ) (r : Binding) : Bool :=
  decide (r.bindingId = bindingId) && decide (r.revision = expected)

def atDefault (scope : BindingScope) (expected : ℕ) (r : DefaultRow) : Bool :=
  decide (r.scope = scope) && decide (r.revision = expected)

theorem atBinding_key {bindingId : String} {expected : ℕ} {r : Binding} (h : atBinding bindingId expected r = true) :
    r.bindingId = bindingId := by
  simp only [atBinding, Bool.and_eq_true, decide_eq_true_eq] at h
  exact h.1

theorem atDefault_key {scope : BindingScope} {expected : ℕ} {r : DefaultRow} (h : atDefault scope expected r = true) :
    r.scope = scope := by
  simp only [atDefault, Bool.and_eq_true, decide_eq_true_eq] at h
  exact h.1

theorem rebind_bindingId (b r : Binding) : (rebind b r).bindingId = r.bindingId := rfl

def updateBinding (b : Binding) (expected : ℕ) : BindingWork Unit := do
  let s ← read
  raiseIf (s.bindings.rows.any (bindsSame b)) .uniqueConstraintViolation
  write fun s => { s with
    bindings := s.bindings.update (atBinding b.bindingId expected) (rebind b) (rebind_bindingId b) }
  raiseIf (s.bindings.matching (atBinding b.bindingId expected) ≠ 1) (.revisionConflict "binding" expected expected)

def checkBinding (existing : Option Binding) (b : Binding) (expected : ℕ) : BindingWork Unit :=
  match existing with
  | none => raiseIf (expected ≠ 0 ∨ b.revision ≠ 1) (.revisionConflict "binding" expected 0)
  | some e => do
    raiseIf (expected ≠ e.revision ∨ b.revision ≠ e.revision + 1) (.revisionConflict "binding" expected e.revision)
    raiseIf (e.scope ≠ b.scope) (.valueError "binding ownership is immutable")

def saveBinding (existing : Option Binding) (b : Binding) (expected : ℕ) : BindingWork Unit :=
  match existing with
  | none => insertBinding b
  | some _ => updateBinding b expected

def redirect (bindingId : String) (revision : ℕ) (r : DefaultRow) : DefaultRow :=
  { r with bindingId := bindingId, revision := revision }

theorem redirect_scope (bindingId : String) (revision : ℕ) (r : DefaultRow) :
    (redirect bindingId revision r).scope = r.scope := rfl

def writeDefault (current : Option DefaultRow) (scope : BindingScope) (bindingId : String) (expected : ℕ) :
    BindingWork Unit :=
  match current with
  | none => do
    let s ← read
    let table ← orRaise (s.defaults.insert ⟨scope, bindingId, 1⟩) .uniqueConstraintViolation
    write fun s => { s with defaults := table }
  | some row => do
    let s ← read
    write fun s => { s with
      defaults := s.defaults.update (atDefault scope expected) (redirect bindingId (row.revision + 1))
        (redirect_scope bindingId (row.revision + 1)) }
    raiseIf (s.defaults.matching (atDefault scope expected) ≠ 1) (.revisionConflict "binding_default" expected row.revision)

def defaultRevision (current : Option DefaultRow) : ℕ := current.elim 0 DefaultRow.revision

def bindDefault (b : Binding) (expectedBinding expectedDefault : ℕ) (moduleError : Option Failure) :
    BindingWork Binding := do
  match moduleError with
  | some e => raise e
  | none => do
    ensureConversationScope b.scope.conversation
    let s ← read
    let existing := s.bindings.get b.bindingId
    checkBinding existing b expectedBinding
    let current := s.defaults.get b.scope
    raiseIf (expectedDefault ≠ defaultRevision current)
      (.revisionConflict "binding_default" expectedDefault (defaultRevision current))
    saveBinding existing b expectedBinding
    writeDefault current b.scope b.bindingId expectedDefault
    pure b

def replaceDefault (scope : BindingScope) (bindingId : String) (expected : ℕ) (moduleError : Option Failure) :
    BindingWork Unit := do
  match moduleError with
  | some e => raise e
  | none => do
    ensureConversationScope scope.conversation
    let s ← read
    raiseIf ((s.bindings.get bindingId).all fun b => b.scope ≠ scope)
      (.valueError "binding is outside the requested scope")
    let current := s.defaults.get scope
    raiseIf (expected ≠ defaultRevision current) (.revisionConflict "binding_default" expected (defaultRevision current))
    writeDefault current scope bindingId expected

def clearDefault (scope : BindingScope) (expected : ℕ) (moduleError : Option Failure) : BindingWork Unit := do
  match moduleError with
  | some e => raise e
  | none => do
    ensureConversationScope scope.conversation
    let s ← read
    let current := s.defaults.get scope
    raiseIf (expected ≠ defaultRevision current) (.revisionConflict "binding_default" expected (defaultRevision current))
    write fun s => { s with defaults := s.defaults.delete (atDefault scope expected) }
    raiseIf (current.isSome ∧ s.defaults.matching (atDefault scope expected) ≠ 1)
      (.revisionConflict "binding_default" expected (defaultRevision current))

def deleteBinding (bindingId : String) (expected : ℕ) : BindingWork Unit := do
  let s ← read
  let row := s.bindings.get bindingId
  raiseIf (row.all fun r => r.revision ≠ expected)
    (.revisionConflict "binding" expected (row.elim 0 Binding.revision))
  write fun s => { s with
    bindings := s.bindings.delete fun r => r.bindingId = bindingId
    defaults := s.defaults.delete fun r => r.bindingId = bindingId }

inductive BindingCall where
  | bind (b : Binding) (expectedBinding expectedDefault : ℕ) (moduleError : Option Failure)
  | replace (scope : BindingScope) (bindingId : String) (expected : ℕ) (moduleError : Option Failure)
  | clear (scope : BindingScope) (expected : ℕ) (moduleError : Option Failure)
  | delete (bindingId : String) (expected : ℕ)
  | addPrincipal (principalId : String)
  | addConversation (conversation : ConversationKey)

def BindingCall.run (s : BindingStore) : BindingCall → BindingStore
  | bind b expectedBinding expectedDefault moduleError =>
    (transaction (bindDefault b expectedBinding expectedDefault moduleError) s).2
  | replace scope bindingId expected moduleError => (transaction (replaceDefault scope bindingId expected moduleError) s).2
  | clear scope expected moduleError => (transaction (clearDefault scope expected moduleError) s).2
  | delete bindingId expected => (transaction (deleteBinding bindingId expected) s).2
  | addPrincipal principalId => { s with principals := principalId :: s.principals }
  | addConversation conversation => { s with conversations := conversation :: s.conversations }

def bindingDefaults : System BindingStore BindingCall where
  start s := s.bindings = .empty ∧ s.defaults = .empty
  allowed _ _ := True
  next := BindingCall.run

/-- `current_default_snapshot`: the binding that the default of a scope names, under the revision of the default. -/
def defaultVersion (scope : BindingScope) (s : BindingStore) : Option (Versioned (Option Binding)) :=
  (s.defaults.get scope).map fun row => ⟨row.revision, s.bindings.get row.bindingId⟩

def Referring (s : BindingStore) : Prop :=
  ∀ scope row, s.defaults.get scope = some row → ∃ b, s.bindings.get row.bindingId = some b ∧ b.scope = scope

section

variable {s s' : BindingStore} {scope : BindingScope} {b : Binding} {bindingId : String} {expected : ℕ}
  {u u' : UnitOfWork BindingStore Failure}

structure DefaultWritten (scope : BindingScope) (bindingId : String) (s s' : BindingStore) : Prop where
  named : ∃ b, s'.bindings.get bindingId = some b ∧ b.scope = scope
  bindings : ∀ id b, s.bindings.get id = some b → b.scope ≠ scope → s'.bindings.get id = some b
  written : s'.defaults.get scope = some ⟨scope, bindingId, defaultRevision (s.defaults.get scope) + 1⟩
  others : ∀ scope', scope' ≠ scope → s'.defaults.get scope' = s.defaults.get scope'

theorem DefaultWritten.referring (h : DefaultWritten scope bindingId s s') (hs : Referring s) : Referring s' := by
  intro scope' row hrow
  by_cases hk : scope' = scope
  · subst hk
    rw [h.written] at hrow
    obtain rfl := Option.some.inj hrow
    exact h.named
  rw [h.others scope' hk] at hrow
  obtain ⟨b, hb, hscope⟩ := hs scope' row hrow
  exact ⟨b, h.bindings _ b hb (hscope ▸ hk), hscope⟩

theorem DefaultWritten.turn (h : DefaultWritten scope bindingId s s') (hs : Referring s) (k : BindingScope) :
    Turn (defaultVersion k s) (defaultVersion k s') := by
  by_cases hk : k = scope
  · subst hk
    rw [defaultVersion, defaultVersion, h.written]
    cases hrow : s.defaults.get k with
    | none => exact .created _
    | some row => exact .replaced ⟨row.revision, s.bindings.get row.bindingId⟩ _
  have hsame : defaultVersion k s' = defaultVersion k s := by
    rw [defaultVersion, defaultVersion, h.others k hk]
    cases hrow : s.defaults.get k with
    | none => rfl
    | some row =>
      obtain ⟨b, hb, hscope⟩ := hs k row hrow
      rw [Option.map_some, Option.map_some, h.bindings _ b hb (hscope ▸ hk), hb]
  rw [hsame]
  exact .kept _

variable {x : Unit}

theorem writeDefault_gives {current : Option DefaultRow} (hcurrent : u.store.defaults.get scope = current)
    (h : (writeDefault current scope bindingId expected).Gives u x u') :
    u'.store.bindings = u.store.bindings ∧
      u'.store.defaults.get scope = some ⟨scope, bindingId, defaultRevision current + 1⟩ ∧
      ∀ scope', scope' ≠ scope → u'.store.defaults.get scope' = u.store.defaults.get scope' := by
  cases current with
  | none =>
    simp only [writeDefault, gives_bind, gives_read, gives_orRaise, gives_write] at h
    obtain ⟨_, _, ⟨rfl, rfl⟩, table, _, ⟨hinsert, rfl⟩, rfl⟩ := h
    refine ⟨rfl, ?_, ?_⟩
    · simp only [Table.get_insert hinsert, ↓reduceIte]
      rfl
    intro scope' hne
    change table.get scope' = _
    rw [Table.get_insert hinsert, if_neg (Ne.symm hne)]
  | some row =>
    simp only [writeDefault, gives_bind, gives_read, gives_raiseIf, gives_write] at h
    obtain ⟨_, _, ⟨rfl, rfl⟩, _, v, rfl, hone, rfl⟩ := h
    obtain ⟨r, hr, hrevision⟩ := (Table.matching_eq_one _ scope fun r : DefaultRow =>
      decide (r.revision = expected)).mp (not_not.mp hone)
    obtain rfl : r = row := Option.some.inj (hr.symm.trans hcurrent)
    refine ⟨rfl, ?_, ?_⟩
    · have hscope := Table.key_of_get hr
      simp only [Table.get_update, hr, Option.map_some, atDefault, hscope, decide_true, hrevision, Bool.and_self,
        ↓reduceIte]
      rw [redirect, hscope]
      rfl
    intro scope' hne
    change (u.store.defaults.update _ _ (redirect_scope bindingId (r.revision + 1))).get scope' = _
    rw [Table.get_update_other hne fun r' hr' => atDefault_key hr']

theorem saveBinding_gives (hscope : ∀ e, u.store.bindings.get b.bindingId = some e → e.scope = b.scope)
    (h : (saveBinding (u.store.bindings.get b.bindingId) b expected).Gives u x u') :
    u'.store.defaults = u.store.defaults ∧ (∃ b', u'.store.bindings.get b.bindingId = some b' ∧ b'.scope = b.scope) ∧
      ∀ id e, u.store.bindings.get id = some e → e.scope ≠ b.scope → u'.store.bindings.get id = some e := by
  cases hexisting : u.store.bindings.get b.bindingId with
  | none =>
    rw [hexisting] at h
    simp only [saveBinding, insertBinding, gives_bind, gives_read, gives_raiseIf, gives_orRaise, gives_write] at h
    obtain ⟨_, _, ⟨rfl, rfl⟩, _, _, ⟨-, rfl⟩, _, _, ⟨-, rfl⟩, table, _, ⟨hinsert, rfl⟩, rfl⟩ := h
    refine ⟨rfl, ⟨b, ?_, rfl⟩, fun id e he _ => Table.kept_of_insert hinsert he⟩
    change table.get b.bindingId = some b
    rw [Table.get_insert hinsert, if_pos rfl]
  | some existing =>
    rw [hexisting] at h
    simp only [saveBinding, updateBinding, gives_bind, gives_read, gives_raiseIf, gives_write] at h
    obtain ⟨_, _, ⟨rfl, rfl⟩, _, _, ⟨-, rfl⟩, _, v, rfl, hone, rfl⟩ := h
    have hown := hscope existing hexisting
    refine ⟨rfl, ?_, ?_⟩
    · change ∃ b', (u.store.bindings.update _ _ (rebind_bindingId b)).get b.bindingId = some b' ∧ _
      rw [Table.get_update, hexisting]
      refine ⟨_, rfl, ?_⟩
      dsimp only
      split
      · exact hown
      · exact hown
    · intro id e he hne
      have hid : id ≠ b.bindingId := by
        rintro rfl
        rw [hexisting] at he
        obtain rfl := Option.some.inj he
        exact hne hown
      change (u.store.bindings.update _ _ (rebind_bindingId b)).get id = some e
      rw [Table.get_update_other hid fun r hr => atBinding_key hr, he]

theorem checkBinding_gives {existing : Option Binding} (h : (checkBinding existing b expected).Gives u x u') :
    u = u' ∧ ∀ e, existing = some e → e.scope = b.scope := by
  cases existing with
  | none =>
    simp only [checkBinding, gives_raiseIf] at h
    exact ⟨h.2, fun e he => by cases he⟩
  | some e =>
    simp only [checkBinding, gives_bind, gives_raiseIf] at h
    obtain ⟨_, _, ⟨-, rfl⟩, hscope, rfl⟩ := h
    refine ⟨rfl, fun e' he => ?_⟩
    obtain rfl := Option.some.inj he
    exact not_not.mp hscope

variable {moduleError : Option Failure}

theorem bindDefault_gives {expectedDefault : ℕ} {saved : Binding}
    (h : (bindDefault b expected expectedDefault moduleError).Gives u saved u') :
    DefaultWritten b.scope b.bindingId u.store u'.store := by
  unfold bindDefault at h
  cases moduleError with
  | some e => exact (gives_raise.mp h).elim
  | none =>
    simp only [ensureConversationScope, gives_bind, gives_read, gives_raiseIf, gives_pure] at h
    obtain ⟨_, _, ⟨_, _, ⟨rfl, rfl⟩, -, rfl⟩, _, _, ⟨rfl, rfl⟩, _, v, hcheck, _, _, ⟨-, rfl⟩, _, w, hsave, _, w', hwrite,
      -, rfl⟩ := h
    obtain ⟨rfl, hscope⟩ := checkBinding_gives hcheck
    obtain ⟨hdefaults, ⟨b', hb', hb'scope⟩, hothers⟩ := saveBinding_gives hscope hsave
    obtain ⟨hbindings, hwritten, hrest⟩ := writeDefault_gives (by rw [hdefaults]) hwrite
    refine ⟨⟨b', ?_, hb'scope⟩, ?_, hwritten, ?_⟩
    · rw [hbindings]
      exact hb'
    · intro id e he hne
      rw [hbindings]
      exact hothers id e he hne
    · intro scope' hne
      rw [hrest scope' hne, hdefaults]

theorem replaceDefault_gives (h : (replaceDefault scope bindingId expected moduleError).Gives u x u') :
    DefaultWritten scope bindingId u.store u'.store := by
  unfold replaceDefault at h
  cases moduleError with
  | some e => exact (gives_raise.mp h).elim
  | none =>
    simp only [ensureConversationScope, gives_bind, gives_read, gives_raiseIf] at h
    obtain ⟨_, _, ⟨_, _, ⟨rfl, rfl⟩, -, rfl⟩, _, _, ⟨rfl, rfl⟩, _, _, ⟨hinside, rfl⟩, _, _, ⟨-, rfl⟩, hwrite⟩ := h
    obtain ⟨hbindings, hwritten, hrest⟩ := writeDefault_gives rfl hwrite
    refine ⟨?_, ?_, hwritten, hrest⟩
    · rw [hbindings]
      cases hb : u.store.bindings.get bindingId with
      | none => simp [hb] at hinside
      | some b => exact ⟨b, rfl, by simpa [hb] using hinside⟩
    intro id e he _
    rw [hbindings]
    exact he

structure DefaultsRemoved (s s' : BindingStore) : Prop where
  defaults : ∀ scope row, s'.defaults.get scope = some row → s.defaults.get scope = some row
  bindings : ∀ scope row, s'.defaults.get scope = some row → s'.bindings.get row.bindingId = s.bindings.get row.bindingId

theorem DefaultsRemoved.referring (h : DefaultsRemoved s s') (hs : Referring s) : Referring s' := by
  intro scope row hrow
  rw [h.bindings scope row hrow]
  exact hs scope row (h.defaults scope row hrow)

theorem DefaultsRemoved.turn (h : DefaultsRemoved s s') (k : BindingScope) :
    Turn (defaultVersion k s) (defaultVersion k s') := by
  cases hrow : s'.defaults.get k with
  | none =>
    have hnone : defaultVersion k s' = none := by simp [defaultVersion, hrow]
    rw [hnone]
    cases hold : defaultVersion k s with
    | none => exact .kept none
    | some r => exact .removed r
  | some row =>
    have hsame : defaultVersion k s' = defaultVersion k s := by
      rw [defaultVersion, defaultVersion, hrow, h.defaults k row hrow, Option.map_some, Option.map_some,
        h.bindings k row hrow]
    rw [hsame]
    exact .kept _

theorem clearDefault_gives
    (h : (clearDefault scope expected moduleError).Gives u x u') : DefaultsRemoved u.store u'.store := by
  unfold clearDefault at h
  cases moduleError with
  | some e => exact (gives_raise.mp h).elim
  | none =>
    simp only [ensureConversationScope, gives_bind, gives_read, gives_raiseIf, gives_write] at h
    obtain ⟨_, _, ⟨_, _, ⟨rfl, rfl⟩, -, rfl⟩, _, _, ⟨rfl, rfl⟩, _, _, ⟨-, rfl⟩, _, _, rfl, -, rfl⟩ := h
    refine ⟨?_, fun _ _ _ => rfl⟩
    intro scope' row hrow
    rw [Table.get_delete, Option.filter_eq_some_iff] at hrow
    exact hrow.1

theorem deleteBinding_gives (h : (deleteBinding bindingId expected).Gives u x u') :
    DefaultsRemoved u.store u'.store := by
  simp only [deleteBinding, gives_bind, gives_read, gives_raiseIf, gives_write] at h
  obtain ⟨_, _, ⟨rfl, rfl⟩, _, _, ⟨-, rfl⟩, rfl⟩ := h
  have hkept : ∀ scope row, (u.store.defaults.delete fun r => decide (r.bindingId = bindingId)).get scope = some row →
      u.store.defaults.get scope = some row ∧ row.bindingId ≠ bindingId := by
    intro scope row hrow
    rw [Table.get_delete, Option.filter_eq_some_iff] at hrow
    exact ⟨hrow.1, by simpa using hrow.2⟩
  refine ⟨fun scope row hrow => (hkept scope row hrow).1, ?_⟩
  intro scope row hrow
  apply Table.get_delete_other (hkept scope row hrow).2
  intro r hr
  exact of_decide_eq_true hr

theorem BindingCall.turn (hs : Referring s) (call : BindingCall) :
    Referring (call.run s) ∧ ∀ k, Turn (defaultVersion k s) (defaultVersion k (call.run s)) := by
  have hkept : Referring s ∧ ∀ k, Turn (defaultVersion k s) (defaultVersion k s) := ⟨hs, fun k => .kept _⟩
  cases call with
  | bind b expectedBinding expectedDefault moduleError =>
    apply transaction_store (P := fun t => Referring t ∧ ∀ k, Turn (defaultVersion k s) (defaultVersion k t)) hkept
    intro saved u h
    have hwritten := bindDefault_gives h
    exact ⟨hwritten.referring hs, hwritten.turn hs⟩
  | replace scope bindingId expected moduleError =>
    apply transaction_store (P := fun t => Referring t ∧ ∀ k, Turn (defaultVersion k s) (defaultVersion k t)) hkept
    intro x u h
    have hwritten := replaceDefault_gives h
    exact ⟨hwritten.referring hs, hwritten.turn hs⟩
  | clear scope expected moduleError =>
    apply transaction_store (P := fun t => Referring t ∧ ∀ k, Turn (defaultVersion k s) (defaultVersion k t)) hkept
    intro x u h
    have hremoved := clearDefault_gives h
    exact ⟨hremoved.referring hs, hremoved.turn⟩
  | delete bindingId expected =>
    apply transaction_store (P := fun t => Referring t ∧ ∀ k, Turn (defaultVersion k s) (defaultVersion k t)) hkept
    intro x u h
    have hremoved := deleteBinding_gives h
    exact ⟨hremoved.referring hs, hremoved.turn⟩
  | addPrincipal principalId => exact hkept
  | addConversation conversation => exact hkept

theorem referring_of_start (h : bindingDefaults.start s) : Referring s := by
  intro scope row hrow
  rw [h.2] at hrow
  cases hrow

end

end GameLink.Versions

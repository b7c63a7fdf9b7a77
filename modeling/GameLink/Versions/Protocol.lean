import GameLink.Versions.Bindings

namespace GameLink.Versions

open Foundation Work Contracts

variable {σ α : Type}

/-- A compare-and-set of the default of a scope that carries `revision` goes through. -/
def DefaultSwapped (scope : BindingScope) (revision : ℕ) (s : BindingStore) : Prop :=
  (∃ b expectedBinding moduleError saved s', b.scope = scope ∧
    transaction (bindDefault b expectedBinding revision moduleError) s = (.ok saved, s')) ∨
  (∃ bindingId moduleError s', transaction (replaceDefault scope bindingId revision moduleError) s = (.ok (), s')) ∨
  ∃ moduleError s', transaction (clearDefault scope revision moduleError) s = (.ok (), s')

/-- A compare-and-set of a record that carries `revision` goes through. -/
def RecordSwapped (k : RecordKey) (revision : ℕ) (t : RecordTable) : Prop :=
  (∃ c key value fence record t', c.row key = k ∧
    transaction (replace c key value revision fence) t = (.ok record, t')) ∨
  ∃ c key fence t', c.row key = k ∧ transaction (delete c key revision fence) t = (.ok (), t')

theorem RecordSwapped.current {k : RecordKey} {revision : ℕ} {t : RecordTable} (h : RecordSwapped k revision t) :
    ∃ r, recordVersion k t = some r ∧ r.revision = revision := by
  rcases h with ⟨c, key, value, fence, record, t', rfl, h⟩ | ⟨c, key, fence, t', rfl, h⟩
  · obtain ⟨⟨r, hr, hrevision⟩, -⟩ := replace_ok h
    exact ⟨r.version, by rw [recordVersion, hr]; rfl, hrevision⟩
  · obtain ⟨⟨r, hr, hrevision⟩, -⟩ := delete_ok h
    exact ⟨r.version, by rw [recordVersion, hr]; rfl, hrevision⟩

def readRevision (x : Option (Versioned (Option Binding))) : ℕ := x.elim 0 Versioned.revision

theorem readRevision_default (scope : BindingScope) (s : BindingStore) :
    readRevision (defaultVersion scope s) = defaultRevision (s.defaults.get scope) := by
  unfold defaultVersion
  cases s.defaults.get scope with
  | none => rfl
  | some row => rfl

variable {s : BindingStore}

theorem DefaultSwapped.current {scope : BindingScope} {revision : ℕ}
    (h : DefaultSwapped scope revision s) : readRevision (defaultVersion scope s) = revision := by
  rw [readRevision_default]
  rcases h with ⟨b, expectedBinding, moduleError, saved, s', rfl, h⟩ | ⟨bindingId, moduleError, s', h⟩ |
    ⟨moduleError, s', h⟩
  · obtain ⟨gs, h, -⟩ := transaction_ok.mp h
    unfold bindDefault at h
    cases moduleError with
    | some e => exact (gives_raise.mp h).elim
    | none =>
      simp only [ensureConversationScope, gives_bind, gives_read, gives_raiseIf] at h
      obtain ⟨_, _, ⟨_, _, ⟨rfl, rfl⟩, -, rfl⟩, _, _, ⟨rfl, rfl⟩, _, v, hcheck, _, _, ⟨hrevision, rfl⟩, -⟩ := h
      exact (not_not.mp hrevision).symm
  · obtain ⟨gs, h, -⟩ := transaction_ok.mp h
    unfold replaceDefault at h
    cases moduleError with
    | some e => exact (gives_raise.mp h).elim
    | none =>
      simp only [ensureConversationScope, gives_bind, gives_read, gives_raiseIf] at h
      obtain ⟨_, _, ⟨_, _, ⟨rfl, rfl⟩, -, rfl⟩, _, _, ⟨rfl, rfl⟩, _, _, ⟨-, rfl⟩, _, _, ⟨hrevision, rfl⟩, -⟩ := h
      exact (not_not.mp hrevision).symm
  · obtain ⟨gs, h, -⟩ := transaction_ok.mp h
    unfold clearDefault at h
    cases moduleError with
    | some e => exact (gives_raise.mp h).elim
    | none =>
      simp only [ensureConversationScope, gives_bind, gives_read, gives_raiseIf] at h
      obtain ⟨_, _, ⟨_, _, ⟨rfl, rfl⟩, -, rfl⟩, _, _, ⟨rfl, rfl⟩, _, _, ⟨hrevision, rfl⟩, -⟩ := h
      exact (not_not.mp hrevision).symm

theorem record_one_version {t t' : RecordTable} {k : RecordKey} {calls : List RecordCall} {r r' : Versioned Json}
    (h : (records.inside fun u => recordVersion k u ≠ none).Trace t calls t') (hr : recordVersion k t = some r)
    (hr' : recordVersion k t' = some r') (hrevision : r'.revision = r.revision) : r' = r :=
  Turn.one_version (I := fun _ => True) (fun _ _ _ _ => trivial) (fun u call _ _ => RecordCall.turn u k call) trivial h
    hr hr' hrevision

theorem default_one_version {s s' : BindingStore} {scope : BindingScope} {calls : List BindingCall}
    {r r' : Versioned (Option Binding)} (hs : Referring s)
    (h : (bindingDefaults.inside fun u => defaultVersion scope u ≠ none).Trace s calls s')
    (hr : defaultVersion scope s = some r) (hr' : defaultVersion scope s' = some r')
    (hrevision : r'.revision = r.revision) : r' = r :=
  Turn.one_version (I := Referring) (fun _ call hu _ => (BindingCall.turn hu call).1)
    (fun _ call hu _ => (BindingCall.turn hu call).2 scope) hs h hr hr' hrevision

theorem default_positive (hs : bindingDefaults.Reachable s) (scope : BindingScope) :
    Referring s ∧ ∀ r, defaultVersion scope s = some r → 1 ≤ r.revision := by
  refine hs.invariant (P := fun u => Referring u ∧ ∀ r, defaultVersion scope u = some r → 1 ≤ r.revision) ?_ ?_
  · intro u hu
    refine ⟨referring_of_start hu, ?_⟩
    intro r hr
    rw [defaultVersion, hu.2] at hr
    cases hr
  intro u call hu _
  obtain ⟨hreferring, hturn⟩ := BindingCall.turn hu.1 call
  exact ⟨hreferring, (hturn scope).positive hu.2⟩

/-- A revision names one version of a key, and zero always means that there is no default. -/
theorem revision_names_one_version : (∀ t k calls t' r, records.Reachable t →
      (records.inside fun u => recordVersion k u ≠ none).Trace t calls t' → recordVersion k t = some r →
      (∀ r', recordVersion k t' = some r' → r'.revision = r.revision → r' = r) ∧
        (RecordSwapped k r.revision t' → recordVersion k t' = some r)) ∧
    (∀ s scope calls s' r, bindingDefaults.Reachable s →
      (bindingDefaults.inside fun u => defaultVersion scope u ≠ none).Trace s calls s' →
      defaultVersion scope s = some r →
      (∀ r', defaultVersion scope s' = some r' → r'.revision = r.revision → r' = r) ∧
        (DefaultSwapped scope r.revision s' → defaultVersion scope s' = some r)) ∧
    ∀ s scope, bindingDefaults.Reachable s → DefaultSwapped scope 0 s → defaultVersion scope s = none := by
  refine ⟨?_, ?_, ?_⟩
  · intro t k calls t' r _ h hr
    refine ⟨fun r' hr' hrevision => record_one_version h hr hr' hrevision, ?_⟩
    intro hswapped
    obtain ⟨r', hr', hrevision⟩ := hswapped.current
    rw [hr', record_one_version h hr hr' hrevision]
  · intro s scope calls s' r hs h hr
    have hreferring := (default_positive hs scope).1
    refine ⟨fun r' hr' hrevision => default_one_version hreferring h hr hr' hrevision, ?_⟩
    intro hswapped
    have hpositive := (default_positive hs scope).2 r hr
    have hcurrent := hswapped.current
    cases hr' : defaultVersion scope s' with
    | none =>
      rw [hr'] at hcurrent
      simp only [readRevision, Option.elim_none] at hcurrent
      omega
    | some r' =>
      rw [hr'] at hcurrent
      rw [default_one_version hreferring h hr hr' hcurrent]
  · intro s scope hs hswapped
    have hcurrent := hswapped.current
    cases hr : defaultVersion scope s with
    | none => rfl
    | some r =>
      have hpositive := (default_positive hs scope).2 r hr
      rw [hr] at hcurrent
      simp only [readRevision, Option.elim_some] at hcurrent
      omega

theorem returned {w : Work σ Failure α} {s : σ} {x : Except Failure α} (h : (transaction w s).1 = x) :
    transaction w s = (x, (transaction w s).2) := Prod.ext h rfl

namespace Sample

def collection : RecordCollection := ⟨"p/m", "notes", 1, "public", "", "", 0⟩

def fence : Fence := ⟨none, none, none⟩

def scope : BindingScope := ⟨"o", "p/m", ⟨"a", "c"⟩⟩

def binding (bindingId : String) : Binding := ⟨bindingId, 1, scope, "account", bindingId, "user"⟩

def rewriting : List RecordCall :=
  [.create collection "k" (.int 1) fence, .delete collection "k" 1 fence, .create collection "k" (.int 2) fence]

def redirecting : List BindingCall :=
  [.addPrincipal "o", .addConversation ⟨"a", "c"⟩, .bind (binding "b1") 0 0 none, .clear scope 1 none,
   .bind (binding "b2") 0 0 none]

def written : {t : RecordTable // recordVersion (collection.row "k") t = some ⟨1, .int 1⟩} :=
  ⟨(rewriting.take 1).foldl records.next .empty, by decide +kernel⟩

end Sample

/-- A revision comes back with another value after a deletion, and a compare-and-set that carries it goes through. -/
theorem revision_names_two_versions :
    (∃ t as t' bs k r r', records.start t ∧ records.Trace t as t' ∧ recordVersion k t' = some r ∧
      ∃ t'', records.Trace t' bs t'' ∧ recordVersion k t'' = some r' ∧ r'.revision = r.revision ∧
        r'.value ≠ r.value ∧ RecordSwapped k r.revision t'') ∧
    ∃ s as s' bs scope r r', bindingDefaults.start s ∧ bindingDefaults.Trace s as s' ∧
      defaultVersion scope s' = some r ∧ ∃ s'', bindingDefaults.Trace s' bs s'' ∧ defaultVersion scope s'' = some r' ∧
        r'.revision = r.revision ∧ r'.value ≠ r.value ∧ DefaultSwapped scope r.revision s'' := by
  constructor
  · refine ⟨.empty, Sample.rewriting.take 1, _, Sample.rewriting.drop 1, Sample.collection.row "k", ⟨1, .int 1⟩,
      ⟨1, .int 2⟩, rfl, .of_always (fun _ _ _ => trivial) _, Sample.written.property, _,
      .of_always (fun _ _ _ => trivial) _, by decide +kernel, rfl, by decide, .inl ?_⟩
    exact ⟨Sample.collection, "k", .int 3, Sample.fence, ⟨"k", 2, .int 3⟩, _, rfl, returned (by decide +kernel)⟩
  refine ⟨⟨[], [], .empty, .empty⟩, Sample.redirecting.take 3, _, Sample.redirecting.drop 3, Sample.scope,
    ⟨1, some (Sample.binding "b1")⟩, ⟨1, some (Sample.binding "b2")⟩, ⟨rfl, rfl⟩,
    .of_always (fun _ _ _ => trivial) _, by decide +kernel, _, .of_always (fun _ _ _ => trivial) _,
    by decide +kernel, rfl, by decide, .inr (.inl ?_)⟩
  exact ⟨"b1", none, _, returned (by decide +kernel)⟩

theorem revision_names_one_version_kept : (∃ t : RecordTable, RecordSwapped (Sample.collection.row "k") 1 t ∧
      recordVersion (Sample.collection.row "k") t = some ⟨1, .int 1⟩) ∧
    (∃ s : BindingStore, DefaultSwapped Sample.scope 1 s ∧
      defaultVersion Sample.scope s = some ⟨1, some (Sample.binding "b1")⟩) ∧
    ∃ s : BindingStore, DefaultSwapped Sample.scope 0 s ∧ defaultVersion Sample.scope s = none := by
  obtain ⟨hrecord, hdefault, habsent⟩ := revision_names_one_version
  let create := Sample.rewriting.take 1
  let t := create.foldl records.next .empty
  have hcreate : records.Trace .empty create t := .of_always (fun _ _ _ => trivial) _
  let s := (Sample.redirecting.take 3).foldl bindingDefaults.next ⟨[], [], .empty, .empty⟩
  have hset : bindingDefaults.Trace ⟨[], [], .empty, .empty⟩ (Sample.redirecting.take 3) s :=
    .of_always (fun _ _ _ => trivial) _
  let others := (Sample.redirecting.take 2).foldl bindingDefaults.next ⟨[], [], .empty, .empty⟩
  have hothers : bindingDefaults.Trace ⟨[], [], .empty, .empty⟩ (Sample.redirecting.take 2) others :=
    .of_always (fun _ _ _ => trivial) _
  have hreplaced : RecordSwapped (Sample.collection.row "k") 1 t :=
    .inl ⟨Sample.collection, "k", .int 3, Sample.fence, ⟨"k", 2, .int 3⟩, _, rfl, returned (by decide +kernel)⟩
  have hredirected : DefaultSwapped Sample.scope 1 s :=
    .inr (.inl ⟨"b1", none, _, returned (by decide +kernel)⟩)
  have hfirst : DefaultSwapped Sample.scope 0 others :=
    .inl ⟨Sample.binding "b2", 0, none, Sample.binding "b2", _, rfl, returned (by decide +kernel)⟩
  refine ⟨⟨t, hreplaced, ?_⟩, ⟨s, hredirected, ?_⟩, ⟨others, hfirst, ?_⟩⟩
  · exact (hrecord t (Sample.collection.row "k") [] t ⟨1, .int 1⟩ ⟨_, _, rfl, hcreate⟩ (.nil t)
      (by decide +kernel)).2 hreplaced
  · exact (hdefault s Sample.scope [] s ⟨1, some (Sample.binding "b1")⟩ ⟨_, _, ⟨rfl, rfl⟩, hset⟩ (.nil s)
      (by decide +kernel)).2 hredirected
  · exact habsent others Sample.scope ⟨_, _, ⟨rfl, rfl⟩, hothers⟩ hfirst

end GameLink.Versions

import GameLink.Authorization.Sessions

namespace GameLink.Authorization

open Foundation Work Contracts

def Accounts (t : Table Grant.grantId) : Prop :=
  (∀ k k' r r', t.get k = some r → t.get k' = some r' → accountOf r r' = true → k = k') ∧
    ∀ k r, t.get k = some r → boundedField r.grantId "grant_id" = none

structure Grown (t t' : Table Grant.grantId) : Prop where
  rising : ∀ k g, t.get k = some g → ∃ g', t'.get k = some g' ∧ g.revision ≤ g'.revision
  accounts : Accounts t → Accounts t'

theorem Grown.refl (t : Table Grant.grantId) : Grown t t := ⟨fun _ g h => ⟨g, h, le_rfl⟩, id⟩

variable {t t' : Table Grant.grantId}

theorem Grown.of_eq (h : t' = t) : Grown t t' := h ▸ .refl _

theorem accountOf_iff {g r : Grant} : accountOf g r = true ↔
    r.principalId = g.principalId ∧ r.moduleId = g.moduleId ∧ r.accountId = g.accountId := by
  simp [accountOf, and_assoc]

theorem Grown.of_rows (hkept : ∀ k, (t.get k = none → t'.get k = none) ∧
    ∀ r, t.get k = some r → ∃ r', t'.get k = some r' ∧ r.revision ≤ r'.revision ∧ accountOf r r' = true) :
    Grown t t' where
  rising := by
    intro k g hg
    obtain ⟨g', hg', hle, -⟩ := (hkept k).2 g hg
    exact ⟨g', hg', hle⟩
  accounts := by
    have hback : ∀ k r', t'.get k = some r' → ∃ r, t.get k = some r ∧ accountOf r r' = true := by
      intro k r' hr'
      cases hr : t.get k with
      | none => rw [(hkept k).1 hr] at hr'; cases hr'
      | some r =>
        obtain ⟨r'', hr'', -, hsame⟩ := (hkept k).2 r hr
        cases hr''.symm.trans hr'
        exact ⟨r, rfl, hsame⟩
    rintro ⟨hunique, hnamed⟩
    constructor
    · intro k k' r r' hr hr' hsame
      obtain ⟨o, ho, hor⟩ := hback k r hr
      obtain ⟨o', ho', hor'⟩ := hback k' r' hr'
      rw [accountOf_iff] at hsame hor hor'
      apply hunique k k' o o' ho ho'
      rw [accountOf_iff, ← hor'.1, ← hor'.2.1, ← hor'.2.2, ← hor.1, ← hor.2.1, ← hor.2.2]
      exact hsame
    · intro k r' hr'
      obtain ⟨r, hr, -⟩ := hback k r' hr'
      rw [Table.key_of_get hr', ← Table.key_of_get hr]
      exact hnamed k r hr

theorem Grown.of_noted {now : Instant} {s s' : AuthStore} (h : Noted now s s') : Grown s.grants s'.grants := by
  apply Grown.of_rows
  intro k
  rcases h.grants k with hsame | ⟨g, hg, -, hlapsed⟩
  · rw [hsame]
    exact ⟨id, fun r hr => ⟨r, hr, le_rfl, accountOf_iff.mpr ⟨rfl, rfl, rfl⟩⟩⟩
  rw [hg, hlapsed]
  refine ⟨nofun, fun r hr => ?_⟩
  cases hr
  exact ⟨g.lapsed, rfl, Nat.le_succ _, accountOf_iff.mpr ⟨rfl, rfl, rfl⟩⟩

section Gives

variable {u u' : UnitOfWork AuthStore AuthFailure} {now : Instant} {g : Grant}

theorem insertGrant_grown {x : Unit} (h : (insertGrant g).Gives u x u')
    (hnamed : boundedField g.grantId "grant_id" = none) : Grown u.store.grants u'.store.grants := by
  simp only [insertGrant, gives_bind, gives_read, gives_raiseIf, gives_orRaise, gives_write] at h
  obtain ⟨_, _, ⟨rfl, rfl⟩, _, _, ⟨hnew, rfl⟩, table, _, ⟨htable, rfl⟩, rfl⟩ := h
  change Grown u.store.grants table
  have hother : ∀ k r, u.store.grants.get k = some r → accountOf g r = false := by
    intro k r hr
    by_contra hsame
    exact hnew (List.any_eq_true.mpr ⟨r, Table.mem_of_get hr, (Bool.not_eq_false _).mp hsame⟩)
  refine ⟨fun k r hr => ⟨r, Table.kept_of_insert htable hr, le_rfl⟩, fun hs => ⟨?_, ?_⟩⟩
  · intro k k' r r' hr hr' hsame
    rw [Table.get_insert htable] at hr hr'
    split at hr
    · rename_i hk
      split at hr'
      · rename_i hk'
        exact hk.symm.trans hk'
      cases hr
      rw [hother k' r' hr'] at hsame
      cases hsame
    · split at hr'
      · cases hr'
        rw [accountOf_iff] at hsame
        have hback := hother k r hr
        rw [accountOf_iff.mpr ⟨hsame.1.symm, hsame.2.1.symm, hsame.2.2.symm⟩] at hback
        cases hback
      · exact hs.1 k k' r r' hr hr' hsame
  · intro k r hr
    rw [Table.get_insert htable] at hr
    split at hr
    · cases hr
      exact hnamed
    · exact hs.2 k r hr

theorem replaceGrant_grown {p : Grant → Bool} {n : ℕ} (h : (replaceGrant p g).Gives u n u')
    (hp : ∀ r, p r = true → r.grantId = g.grantId ∧ r.revision ≤ g.revision) :
    Grown u.store.grants u'.store.grants := by
  simp only [replaceGrant, gives_bind, gives_read, gives_raiseIf, gives_write, gives_pure] at h
  obtain ⟨_, _, ⟨rfl, rfl⟩, _, _, ⟨hfree, rfl⟩, _, _, rfl, rfl, rfl⟩ := h
  have hget := get_withGrants p (overwrite g) (grantId_overwrite g) u.store
  have hother : ∀ k r, u.store.grants.get k = some r → p r = true → ∀ k' r', u.store.grants.get k' = some r' →
      accountOf g r' = true → k' = k := by
    intro k r hr hpr k' r' hr' hsame
    by_contra hne
    refine hfree ⟨?_, List.any_eq_true.mpr ⟨r', Table.mem_of_get hr', ?_⟩⟩
    · exact (List.countP_pos_iff.mpr ⟨r, Table.mem_of_get hr, hpr⟩).ne'
    · rw [← (hp r hpr).1, Table.key_of_get hr', Table.key_of_get hr, hsame]
      simpa using hne
  refine ⟨?_, fun hs => ⟨?_, ?_⟩⟩
  · intro k r hr
    refine ⟨_, (hget k).trans (by rw [hr, Option.map_some]), ?_⟩
    split
    · rename_i hpr
      exact (hp r hpr).2
    · exact le_rfl
  · intro k k' r r' hr hr' hsame
    obtain ⟨o, ho, rfl⟩ := Option.map_eq_some_iff.mp ((hget k).symm.trans hr)
    obtain ⟨o', ho', rfl⟩ := Option.map_eq_some_iff.mp ((hget k').symm.trans hr')
    by_cases hpo : p o = true
    · by_cases hpo' : p o' = true
      · rw [← Table.key_of_get ho, ← Table.key_of_get ho', (hp o hpo).1, (hp o' hpo').1]
      · rw [if_pos hpo, if_neg hpo'] at hsame
        exact (hother k o ho hpo k' o' ho' hsame).symm
    by_cases hpo' : p o' = true
    · rw [if_neg hpo, if_pos hpo', accountOf_iff] at hsame
      exact hother k' o' ho' hpo' k o ho (accountOf_iff.mpr ⟨hsame.1.symm, hsame.2.1.symm, hsame.2.2.symm⟩)
    · rw [if_neg hpo, if_neg hpo'] at hsame
      exact hs.1 k k' o o' ho ho' hsame
  · intro k r hr
    obtain ⟨o, ho, rfl⟩ := Option.map_eq_some_iff.mp ((hget k).symm.trans hr)
    have hkey : (if p o = true then overwrite g o else o).grantId = o.grantId := by
      split
      · rfl
      · rfl
    rw [hkey]
    exact hs.2 k o ho

theorem atGrant_spec {grantId : String} {revision : ℕ} {r : Grant} (h : atGrant grantId revision r = true) :
    r.grantId = grantId ∧ r.revision = revision := by simpa [atGrant] using h

theorem revokeGrantInUnit_grown {grant x : Grant} {expected : ℕ} {requireExact : Bool}
    (h : (revokeGrantInUnit grant expected requireExact).Gives u x u') : Grown u.store.grants u'.store.grants := by
  obtain ⟨current, v, v', n, -, habandon, rfl, hreplace, rfl⟩ := revokeGrantInUnit_spec h
  rw [← (abandonKeyOperation_gives habandon).2]
  have hgrown := replaceGrant_grown hreplace fun r hr => by
    obtain ⟨hkey, hrevision⟩ := atGrant_spec hr
    exact ⟨hkey, hrevision.le.trans (Nat.le_succ _)⟩
  exact hgrown

theorem resetKeys_grown {refusal : Option AuthFailure} {operationId : String} {x : Unit}
    (h : (resetKeys refusal operationId).Gives u x u') : Grown u.store.grants u'.store.grants := by
  simp only [resetKeys, gives_bind, gives_raiseAny, gives_write] at h
  obtain ⟨_, _, ⟨-, rfl⟩, _, _, rfl, _, _, hset, _, _, rfl, _, _, rfl, rfl⟩ := h
  obtain ⟨-, rfl⟩ := setStatus_gives hset
  apply Grown.of_rows
  intro k
  change (_ → (withGrants hasSecret withoutSecret grantId_withoutSecret u.store).grants.get k = none) ∧ ∀ r, _ →
    ∃ r', (withGrants hasSecret withoutSecret grantId_withoutSecret u.store).grants.get k = some r' ∧ _
  rw [get_withGrants]
  refine ⟨fun hnone => by rw [hnone]; rfl, fun r hr => ?_⟩
  rw [hr, Option.map_some]
  refine ⟨_, rfl, ?_⟩
  split
  · exact ⟨Nat.le_succ _, accountOf_iff.mpr ⟨rfl, rfl, rfl⟩⟩
  · exact ⟨le_rfl, accountOf_iff.mpr ⟨rfl, rfl, rfl⟩⟩

theorem checkGrant_eq_none : checkGrant g = none ↔
    boundedField g.grantId "grant_id" = none ∧ boundedField g.principalId "principal_id" = none ∧
      boundedField g.accountId "account_id" = none ∧ moduleIdText g.moduleId = true ∧ 1 ≤ g.revision ∧
      ¬ (g.scopes = [] ∨ (g.scopes.any fun scope => !identifier scope) = true) ∧ g.scopes.Nodup ∧
      g.secretRef.elim none (checkSecretRef g) = none := by
  unfold checkGrant
  rw [List.findSome?_eq_none_iff, Nat.one_le_iff_ne_zero]
  simp

theorem completeLogin_grown {manager : Option KeyManager} {session : LoginSession} {grant : Grant}
    {expectedGeneration : ℕ} {expected : Option ℕ} {x : LoginSession × Grant}
    (h : (completeLogin manager session grant expectedGeneration expected now).Gives u x u') :
    Grown u.store.grants u'.store.grants ∧ grant.revision = nextGrantRevision expected ∧
      (expected = none → ∀ r ∈ u.store.grants.rows, accountOf grant r = false) := by
  obtain ⟨row, u₁, hgrant, hrevision, -, -, -, hcomplete, rfl, rfl⟩ := completeLogin_spec h
  have hnamed : boundedField grant.grantId "grant_id" = none := by
    unfold Grant.build at hgrant
    split at hgrant
    · cases hgrant
    · rename_i hvalid
      exact (checkGrant_eq_none.mp hvalid).1
  cases expected with
  | none =>
    simp only [completeGrant, completeNew, gives_bind, gives_read, gives_raiseIf] at hcomplete
    obtain ⟨_, _, ⟨rfl, rfl⟩, _, _, ⟨-, rfl⟩, hinsert⟩ := hcomplete
    have hgrown := insertGrant_grown hinsert hnamed
    refine ⟨hgrown, hrevision, fun _ r hr => ?_⟩
    simp only [insertGrant, gives_bind, gives_read, gives_raiseIf] at hinsert
    obtain ⟨_, _, ⟨rfl, rfl⟩, _, _, ⟨hnew, rfl⟩, -⟩ := hinsert
    by_contra hsame
    exact hnew (List.any_eq_true.mpr ⟨r, hr, (Bool.not_eq_false _).mp hsame⟩)
  | some revision =>
    simp only [completeGrant, completeCurrent, gives_bind, gives_read, gives_orRaise, gives_raiseIf] at hcomplete
    obtain ⟨_, _, ⟨rfl, rfl⟩, current, _, ⟨hcurrent, rfl⟩, _, _, ⟨-, rfl⟩, _, _, ⟨-, rfl⟩, _, _, ⟨-, rfl⟩,
      _, _, ⟨-, rfl⟩, n, _, hreplace, -, rfl⟩ := hcomplete
    have hgrown := replaceGrant_grown hreplace fun r hr => by
      obtain ⟨hkey, hat⟩ := atGrant_spec (Bool.and_eq_true_iff.mp hr).1
      refine ⟨hkey.trans (Table.key_of_get hcurrent), ?_⟩
      rw [hat, hrevision]
      exact Nat.le_succ revision
    exact ⟨hgrown, hrevision, fun h => by cases h⟩

end Gives

theorem grown_transaction {s : AuthStore} {α : Type} {w : AuthWork α}
    (h : ∀ x u, w.Gives ⟨s, []⟩ x u → Grown s.grants u.store.grants) : Grown s.grants (transaction w s).2.grants :=
  transaction_store (P := fun s' : AuthStore => Grown s.grants s'.grants) (.refl _) h

theorem AuthCall.grown (s : AuthStore) (now : Instant) (c : AuthCall) : Grown s.grants (c.run s now).grants := by
  cases c with
  | currentSession sessionId => exact grown_transaction fun _ _ h => .of_noted (currentSession_gives h)
  | nextGeneration principalId moduleId expected sessionId =>
    exact grown_transaction fun _ _ h => .of_eq (nextGeneration_gives h).2
  | saveSession session expected => exact grown_transaction fun _ _ h => .of_eq (saveSession_gives h).2
  | supersedePending principalId moduleId generation =>
    exact grown_transaction fun _ _ h => .of_eq (supersedePending_gives h).2
  | expirePendingOnRestart => exact grown_transaction fun _ _ h => .of_eq (expirePendingOnRestart_gives h).2
  | currentGrant grantId => exact grown_transaction fun _ _ h => .of_noted (currentGrant_gives h)
  | revokeGrant grant expected => exact grown_transaction fun _ _ h => revokeGrantInUnit_grown h
  | revokeGrantWithInvalidation grant expected invalidation =>
    refine grown_transaction fun _ _ h => ?_
    simp only [Authorization.revokeGrantWithInvalidation, gives_bind, gives_raiseIf, gives_raiseAny, gives_pure] at h
    obtain ⟨_, _, ⟨-, rfl⟩, _, _, hrevoke, _, _, ⟨-, rfl⟩, -, rfl⟩ := h
    exact revokeGrantInUnit_grown hrevoke
  | completeLogin manager session grant expectedGeneration expected =>
    exact grown_transaction fun _ _ h => (completeLogin_grown h).1
  | resetKeys refusal operationId => exact grown_transaction fun _ _ h => resetKeys_grown h

theorem grown_step (w : World) (a : Action) : Grown w.store.grants (w.step a).store.grants := by
  rcases step_calls w a with ⟨-, hquiet⟩ | ⟨c, -, hcalled⟩
  · exact .of_eq hquiet.grants
  · rw [hcalled.store]
    exact c.grown _ _

theorem accounts_of_reachable {w : World} (h : authorization.Reachable w) : Accounts w.store.grants := by
  refine h.invariant (P := fun w => Accounts w.store.grants) ?_ fun w a hw _ => (grown_step w a).accounts hw
  intro w hstart
  rw [hstart.1]
  constructor
  · intro k k' r r' hr
    cases hr
  · intro k r hr
    cases hr

theorem revision_rising {v w : World} {as : List Action} (h : authorization.Trace v as w) {k : String} {g : Grant}
    (hg : v.store.grants.get k = some g) : ∃ g', w.store.grants.get k = some g' ∧ g.revision ≤ g'.revision := by
  refine h.invariant (P := fun w => ∃ g', w.store.grants.get k = some g' ∧ g.revision ≤ g'.revision) ?_ ⟨g, hg, le_rfl⟩
  rintro w a ⟨g', hg', hle⟩ -
  obtain ⟨g'', hg'', hle'⟩ := (grown_step w a).rising k g' hg'
  exact ⟨g'', hg'', hle.trans hle'⟩

/-- A grant row stays, its revision never falls, and no second row has its account. -/
theorem grant_rows_kept {v w : World} {as : List Action} (hv : authorization.Reachable v)
    (h : authorization.Trace v as w) {k : String} {g : Grant} (hg : v.store.grants.get k = some g) :
    ∃ g', w.store.grants.get k = some g' ∧ g.revision ≤ g'.revision ∧
      ∀ k' r, w.store.grants.get k' = some r → accountOf g' r = true → k' = k := by
  obtain ⟨g', hg', hle⟩ := revision_rising h hg
  refine ⟨g', hg', hle, ?_⟩
  intro k' r hr hsame
  exact ((accounts_of_reachable (hv.trace h)).1 k k' g' r hg' hr hsame).symm

namespace Sample

def loggedIn : {w : World // w.store.grants.get "grant_1" = some first} :=
  ⟨run (secrets :: login 0 "login_1" first), by decide +kernel⟩

end Sample

open Sample in
theorem grant_rows_kept_revoked : ∃ g', ((revocation 2 ⟨"grant_1", 1⟩).foldl World.step
    (run (secrets :: login 0 "login_1" first))).store.grants.get "grant_1" = some g' ∧ 1 ≤ g'.revision := by
  obtain ⟨g', hg', hle, -⟩ := grant_rows_kept (k := "grant_1") (g := first) (reachable (secrets :: login 0 "login_1" first))
    (.of_always (fun _ _ _ => trivial) _) loggedIn.property
  exact ⟨g', hg', hle⟩

structure CurrentLogin (w : World) (scope : Scope) (generation : Option ℕ) (now : Instant) (session : LoginSession) :
    Prop where
  stored : w.store.sessions.get session.sessionId = some session
  named : boundedText session.sessionId = true ∧ bounded session.sessionId "session_id" = none
  valid : checkLoginSession session = none
  unexpired : w.clock < session.expiresAt
  accepted : accepts w.memory scope generation now session = true
  conversation : (w.memory.sessionConversations session.sessionId).all (· = (scope.adapterId, scope.conversationId)) = true
  latest : latestGeneration w.store.sessions session.principalId session.moduleId = session.generation

structure Verified (w : World) (scope : Scope) (manager : Option KeyManager) (grant : Grant) : Prop where
  valid : checkGrant grant = none
  owner : grant.ofPair scope.principalId scope.moduleId = true
  active : grant.status = .active
  secret : hasSecret grant = true
  usable : ∀ m ref, manager = some m → grant.secretRef = some ref →
    keySelected m w.store = true ∧ receiptUsable w.store ref = true

structure Returning (w : World) (i : ℕ) (scope : Scope) (generation : Option ℕ) (now : Instant) (session : LoginSession)
    (manager : Option KeyManager) (grant : Grant) : Prop where
  reachable : authorization.Reachable w
  idle : w.flows i = .idle
  current : CurrentLogin w scope generation now session
  verified : Verified w scope manager grant
  inactive : ∀ r ∈ w.store.grants.rows, accountOf grant r = true → r.status ≠ .active
  alone : ∀ r ∈ w.store.grants.rows, r.ofPair scope.principalId scope.moduleId = true → r.live w.clock = false

def relogin (w : World) (i : ℕ) (scope : Scope) (generation : Option ℕ) (now : Instant) (session : LoginSession)
    (manager : Option KeyManager) (grant : Grant) : World :=
  [.completeLogin scope session.sessionId generation, .readSession now, .verify (some grant) true, .readGrant, .list,
    .commit manager].foldl (fun w step => w.flow i step) w

def Relogged (w w' : World) (i : ℕ) (grant : Grant) : Prop :=
  ∃ g, w'.flows i = .ended (.completed ⟨g.grantId, g.revision⟩) ∧ w'.store.grants.get g.grantId = some g ∧
    g.status = .active ∧ accountOf grant g = true ∧
    (∀ r ∈ w'.store.grants.rows, r.ofPair g.principalId g.moduleId = true → r.live w'.clock = true → r = g) ∧
    ∀ v as, authorization.Trace v as w → ∀ r, v.store.grants.get g.grantId = some r → r.revision < g.revision

def Readmits (s : AuthStore) (grant : Grant) : Prop :=
  bounded grant.grantId "grant_id" = none ∧
    ((s.grants.get grant.grantId = none ∧ grant.revision = 1 ∧ ∀ r ∈ s.grants.rows, accountOf grant r = false) ∨
      ∃ r, s.grants.get r.grantId = some r ∧ accountOf grant r = true ∧ r.status = .revoked ∧
        ∀ e, s.grants.get grant.grantId = some e → e = r)

structure At (w v : World) (i : ℕ) (flow : Flow) : Prop where
  store : v.store = w.store
  clock : v.clock = w.clock
  memory : v.memory = w.memory
  flow : v.flows i = flow

theorem Table.get_of_mem {ρ κ : Type} [DecidableEq κ] {key : ρ → κ} {t : Table key} {r : ρ} (h : r ∈ t.rows) :
    t.get (key r) = some r := Table.get_eq_some.mpr ⟨h, rfl⟩

theorem flow_ended {w : World} {i : ℕ} {o : Outcome} (h : w.flows i = .ended o) (m : Option KeyManager) :
    w.flow i .list = w ∧ w.flow i (.commit m) = w := by
  unfold World.flow
  rw [h]
  exact ⟨rfl, rfl⟩

section Stages

variable {w v : World} {i : ℕ} {scope : Scope} {generation : Option ℕ} {now : Instant} {session : LoginSession}
  {manager : Option KeyManager} {grant : Grant}

theorem flows_put (w : World) (i : ℕ) (flow : Flow) : (w.put i flow).flows i = flow := Function.update_self ..

theorem At.looking (hidle : w.flows i = .idle) (hc : CurrentLogin w scope generation now session)
    (hv : Verified w scope manager grant) :
    At w (((w.flow i (.completeLogin scope session.sessionId generation)).flow i (.readSession now)).flow i
      (.verify (some grant) true)) i (.looking scope session grant) := by
  have hread : transaction (currentSession session.sessionId w.clock) w.store = (.ok (some session), w.store) := by
    refine transaction_ok.mpr ⟨[], ?_, nofun⟩
    simp only [currentSession, gives_bind, gives_raiseAny, gives_read]
    refine ⟨(), _, ⟨hc.named.2, rfl⟩, _, _, ⟨rfl, rfl⟩, ?_⟩
    rw [hc.stored]
    dsimp only
    rw [if_neg fun h => absurd hc.unexpired (not_lt.mpr h.2)]
    exact gives_pure.mpr ⟨rfl, rfl⟩
  have hfirst : w.flow i (.completeLogin scope session.sessionId generation) =
      w.put i (.reading scope session.sessionId generation) := flow_completeLogin hidle hc.named.1
  have hsecond : (w.put i (.reading scope session.sessionId generation)).flow i (.readSession now) =
      ((w.put i (.reading scope session.sessionId generation)).call (.currentSession session.sessionId)).put i
        (.verifying scope session) := by
    rw [flow_readSession (flows_put ..)]
    change foundSession _ i scope generation now (transaction (currentSession session.sessionId w.clock) w.store).1 = _
    rw [hread]
    have haccepts : accepts w.memory scope generation now session = true := hc.accepted
    have hconversation := hc.conversation
    simp only [foundSession, World.call, World.put, haccepts, hconversation, Bool.not_true, Bool.false_eq_true, if_false,
      if_true]
  rw [hfirst, hsecond]
  have hstore : (AuthCall.currentSession session.sessionId).run w.store w.clock = w.store := by
    unfold AuthCall.run
    dsimp only
    rw [hread]
  have hthird : ∀ u : World, u.flows i = .verifying scope session →
      u.flow i (.verify (some grant) true) = u.put i (.looking scope session grant) := by
    intro u hu
    rw [flow_verify hu, verified, if_pos ⟨hv.owner, hv.active, hv.secret, rfl⟩]
  rw [hthird _ (flows_put ..)]
  exact ⟨hstore, rfl, rfl, flows_put ..⟩

def settle (now : Instant) (g : Grant) : Grant := if pastExpiry now g then g.lapsed else g

theorem grantId_settle (now : Instant) (g : Grant) : (settle now g).grantId = g.grantId := by
  unfold settle
  split
  · rfl
  · rfl

variable {g : Grant}

theorem settle_of_not_active (h : g.status ≠ .active) : settle now g = g := by
  unfold settle
  rw [if_neg (by simp [pastExpiry, h])]

theorem currentGrant_answer (now : Instant) (s : AuthStore) {grantId : String} (h : bounded grantId "grant_id" = none) :
    ∃ s', transaction (currentGrant grantId now) s = (.ok ((s.grants.get grantId).map (settle now)), s') ∧
      ((∀ e, s.grants.get grantId = some e → e.status ≠ .active) → s' = s) ∧
      s'.grants.get grantId = (s.grants.get grantId).map (settle now) := by
  cases hget : s.grants.get grantId with
  | none =>
    refine ⟨s, transaction_ok.mpr ⟨[], ?_, nofun⟩, fun _ => rfl, hget⟩
    simp only [currentGrant, gives_bind, gives_raiseAny, gives_read]
    refine ⟨(), _, ⟨h, rfl⟩, _, _, ⟨rfl, rfl⟩, ?_⟩
    rw [hget]
    exact gives_pure.mpr ⟨rfl, rfl⟩
  | some e =>
    by_cases hpast : pastExpiry now e = true
    · refine ⟨withGrants (activeAt grantId e.revision) Grant.lapsed Grant.grantId_lapsed s,
        transaction_ok.mpr ⟨[], ?_, nofun⟩, fun hinactive => ?_, ?_⟩
      · simp only [currentGrant, gives_bind, gives_raiseAny, gives_read]
        refine ⟨(), _, ⟨h, rfl⟩, _, _, ⟨rfl, rfl⟩, ?_⟩
        rw [hget]
        dsimp only
        rw [if_pos hpast, Option.map_some, settle, if_pos hpast]
        exact gives_bind.mpr ⟨(), _, gives_write.mpr rfl, gives_pure.mpr ⟨rfl, rfl⟩⟩
      · simp [pastExpiry, hinactive e rfl] at hpast
      · have hat : activeAt grantId e.revision e = true := by
          simp only [pastExpiry, Bool.and_eq_true] at hpast
          simp [activeAt, atGrant, Table.key_of_get hget, of_decide_eq_true hpast.1]
        rw [get_withGrants, hget, Option.map_some, Option.map_some, if_pos hat, settle, if_pos hpast]
    · refine ⟨s, transaction_ok.mpr ⟨[], ?_, nofun⟩, fun _ => rfl, by rw [hget, Option.map_some, settle, if_neg hpast]⟩
      simp only [currentGrant, gives_bind, gives_raiseAny, gives_read]
      refine ⟨(), _, ⟨h, rfl⟩, _, _, ⟨rfl, rfl⟩, ?_⟩
      rw [hget]
      dsimp only
      rw [if_neg hpast, Option.map_some, settle, if_neg hpast]
      exact gives_pure.mpr ⟨rfl, rfl⟩

variable {s : AuthStore} {r : Grant}

theorem mem_listFor {principalId moduleId : String} :
    r ∈ listFor s principalId moduleId ↔ r ∈ s.grants.rows ∧ r.ofPair principalId moduleId = true := by
  rw [listFor, List.mem_insertionSort, List.mem_filter]

theorem mem_account (howner : grant.ofPair scope.principalId scope.moduleId = true) :
    r ∈ (listFor s scope.principalId scope.moduleId).filter (fun g => g.accountId = grant.accountId) ↔
      r ∈ s.grants.rows ∧ accountOf grant r = true := by
  rw [Grant.ofPair_iff] at howner
  rw [List.mem_filter, mem_listFor, Grant.ofPair_iff, accountOf_iff, howner.1, howner.2]
  simp [and_assoc]

theorem accountRow_cases (howner : grant.ofPair scope.principalId scope.moduleId = true) :
    (∃ error, accountRow (listFor s scope.principalId scope.moduleId) grant = .error error) ∨
      (accountRow (listFor s scope.principalId scope.moduleId) grant = .ok none ∧
        ∀ r ∈ s.grants.rows, accountOf grant r = false) ∨ ∃ r ∈ s.grants.rows, accountOf grant r = true ∧
        accountRow (listFor s scope.principalId scope.moduleId) grant = .ok (some r) := by
  have hmem := fun r => mem_account (s := s) howner (r := r)
  unfold accountRow
  split
  · rename_i hnil
    refine .inr (.inl ⟨rfl, fun r hr => ?_⟩)
    by_contra hsame
    have hin := (hmem r).mpr ⟨hr, (Bool.not_eq_false _).mp hsame⟩
    rw [hnil] at hin
    cases hin
  · rename_i row hrow
    have hin := (hmem row).mp (hrow ▸ List.mem_cons_self)
    exact .inr (.inr ⟨row, hin.1, hin.2, rfl⟩)
  · exact .inl ⟨_, rfl⟩

theorem accountRow_of_mem (hs : Accounts s.grants)
    (howner : grant.ofPair scope.principalId scope.moduleId = true) (hr : r ∈ s.grants.rows)
    (hsame : accountOf grant r = true) :
    accountRow (listFor s scope.principalId scope.moduleId) grant = .ok (some r) := by
  have hmem : ∀ g, g ∈ (listFor s scope.principalId scope.moduleId).filter
      (fun g => g.accountId = grant.accountId) → g = r := by
    intro g hg
    obtain ⟨hg, hgrant⟩ := (mem_account howner).mp hg
    rw [accountOf_iff] at hgrant hsame
    apply s.grants.eq_of_key_eq hg hr
    apply hs.1 _ _ g r (Table.get_of_mem hg) (Table.get_of_mem hr)
    rw [accountOf_iff, hsame.1, hsame.2.1, hsame.2.2, hgrant.1, hgrant.2.1, hgrant.2.2]
    exact ⟨rfl, rfl, rfl⟩
  have hin := (mem_account howner).mpr ⟨hr, hsame⟩
  have hnodup : ((listFor s scope.principalId scope.moduleId).filter
      fun g => g.accountId = grant.accountId).Nodup := by
    apply List.Nodup.filter
    exact (List.perm_insertionSort _ _).nodup_iff.mpr ((List.Nodup.of_map _ s.grants.unique).filter _)
  unfold accountRow
  split
  · rename_i hnil
    rw [hnil] at hin
    cases hin
  · rename_i row hrow
    rw [hmem row (hrow ▸ List.mem_cons_self)]
  rename_i hnone hone
  exfalso
  match hl : (listFor s scope.principalId scope.moduleId).filter fun g => g.accountId = grant.accountId with
  | [] => exact hnone hl
  | [g] => exact hone g hl
  | g :: g' :: rest =>
    rw [hl] at hmem hnodup
    have hsame := (hmem g List.mem_cons_self).trans (hmem g' (List.mem_cons_of_mem _ List.mem_cons_self)).symm
    exact (List.nodup_cons.mp hnodup).1 (hsame ▸ List.mem_cons_self)

variable {existing : Option Grant} {v : World}

theorem listed_existing {e : Grant} (howner : grant.ofPair scope.principalId scope.moduleId = true)
    (hv : v.flows i = .listing scope session grant (some e)) :
    (∃ o, (v.flow i .list).flows i = .ended (.raised o)) ∨
      ∃ r ∈ v.store.grants.rows, accountOf grant r = true ∧ r.status = .revoked ∧ e.grantId = r.grantId := by
  rw [flow_list hv]
  rcases accountRow_cases (s := v.store) howner with ⟨error, h⟩ | ⟨h, -⟩ | ⟨r, hr, hsame, h⟩
  · left
    rw [listed, h]
    exact ⟨error, flows_put ..⟩
  · left
    rw [listed, h]
    exact ⟨.conflict, flows_put ..⟩
  by_cases hrevoked : r.status = .revoked
  · by_cases hkey : e.grantId = r.grantId
    · exact .inr ⟨r, hr, hsame, hrevoked, hkey⟩
    left
    rw [listed, h]
    simp only [Except.bind, reauthorized, Option.filter, hrevoked, decide_true, if_true, Option.any_some, ne_eq, hkey,
      not_false_eq_true]
    exact ⟨.conflict, flows_put ..⟩
  · left
    rw [listed, h]
    simp only [Except.bind, reauthorized, Option.filter, hrevoked, decide_false, Bool.false_eq_true, if_false,
      Option.isSome_some, if_true]
    exact ⟨.conflict, flows_put ..⟩

theorem LoginSession.build_withStatus (h : checkLoginSession session = none) (status : LoginSessionStatus) :
    (session.withStatus status).build = .ok (session.withStatus status) := by
  unfold LoginSession.build
  rw [show checkLoginSession (session.withStatus status) = none from h]

inductive Placing (s : AuthStore) (grant : Grant) : Option ℕ → Prop
  | fresh : s.grants.get grant.grantId = none → (∀ r ∈ s.grants.rows, accountOf grant r = false) → Placing s grant none
  | revived (current : Grant) : s.grants.get grant.grantId = some current → accountOf grant current = true →
      current.status = .revoked → Placing s grant (some current.revision)

variable {expected : Option ℕ}

theorem completeGrant_ok (hs : Accounts s.grants) (hplacing : Placing s grant expected)
    (halone : ∀ r ∈ s.grants.rows, r.ofPair grant.principalId grant.moduleId = true → r.live now = false) :
    ∃ s', (completeGrant grant expected now).Gives ⟨s, []⟩ () ⟨s', []⟩ := by
  cases hplacing with
  | fresh hnew haccount =>
    simp only [completeGrant, completeNew, insertGrant, gives_bind, gives_read, gives_raiseIf, gives_orRaise, gives_write]
    cases hinsert : s.grants.insert grant with
    | none =>
      obtain ⟨r, hr⟩ := Table.insert_eq_none.mp hinsert
      rw [hnew] at hr
      cases hr
    | some table =>
      refine ⟨{ s with grants := table }, s, _, ⟨rfl, rfl⟩, (), _, ⟨?_, rfl⟩, s, _, ⟨rfl, rfl⟩, (), _, ⟨?_, rfl⟩, table, _,
        ⟨hinsert, rfl⟩, rfl⟩
      · intro hany
        obtain ⟨r, hr, hlive⟩ := List.any_eq_true.mp hany
        obtain ⟨hpair, hlive⟩ := Bool.and_eq_true_iff.mp hlive
        rw [halone r hr hpair] at hlive
        cases hlive
      intro hany
      obtain ⟨r, hr, hsame⟩ := List.any_eq_true.mp hany
      rw [haccount r hr] at hsame
      cases hsame
  | revived current hcurrent hsame hrevoked =>
    have hsame' := accountOf_iff.mp hsame
    have hkey := Table.key_of_get hcurrent
    have hcount : s.grants.matching (rotatedAt current current.revision) = 1 := by
      have hsplit : rotatedAt current current.revision = fun r => decide (r.grantId = grant.grantId) &&
          (decide (r.revision = current.revision) && decide (r.status = current.status)) := by
        funext r
        rw [rotatedAt, atGrant, hkey, Bool.and_assoc]
      rw [hsplit, Table.matching_eq_one]
      exact ⟨current, hcurrent, by simp⟩
    simp only [completeGrant, completeCurrent, replaceGrant, gives_bind, gives_read, gives_raiseIf, gives_orRaise,
      gives_write, gives_pure]
    refine ⟨_, s, _, ⟨rfl, rfl⟩, current, _, ⟨hcurrent, rfl⟩, (), _, ⟨not_not.mpr rfl, rfl⟩, (), _, ⟨not_not.mpr ?_, rfl⟩,
      (), _, ⟨fun h => h.2 hsame'.2.2, rfl⟩, (), _, ⟨?_, rfl⟩, _, _, ⟨s, _, ⟨rfl, rfl⟩, (), _, ⟨?_, rfl⟩, (), _, rfl, rfl, rfl⟩,
      not_not.mpr hcount, rfl⟩
    · exact Grant.ofPair_iff.mpr ⟨hsame'.1, hsame'.2.1⟩
    · simp [unusable, pastExpiry, hrevoked]
    rintro ⟨-, hany⟩
    obtain ⟨r, hr, hother⟩ := List.any_eq_true.mp hany
    obtain ⟨hne, hsame''⟩ := Bool.and_eq_true_iff.mp hother
    rw [accountOf_iff] at hsame''
    have heq := hs.1 _ _ current r hcurrent (Table.get_of_mem hr) (accountOf_iff.mpr ⟨hsame''.1.trans hsame'.1.symm,
      hsame''.2.1.trans hsame'.2.1.symm, hsame''.2.2.trans hsame'.2.2.symm⟩)
    exact absurd heq.symm (by simpa using hne)

theorem completeLogin_ok (hs : Accounts w.store.grants)
    (hc : CurrentLogin w scope generation now session) (hvalid : checkGrant g = none)
    (howner : g.ofPair scope.principalId scope.moduleId = true) (hactive : g.status = .active)
    (husable : ∀ m ref, manager = some m → g.secretRef = some ref →
      keySelected m w.store = true ∧ receiptUsable w.store ref = true)
    (hrevision : g.revision = nextGrantRevision expected) (hplacing : Placing w.store g expected)
    (halone : ∀ r ∈ w.store.grants.rows, r.ofPair g.principalId g.moduleId = true → r.live w.clock = false) :
    ∃ x s', transaction (completeLogin manager (session.withStatus .completed) g session.generation expected w.clock)
      w.store = (.ok x, s') := by
  obtain ⟨s', hcomplete⟩ := completeGrant_ok hs hplacing halone
  have haccepted := hc.accepted
  simp only [accepts, Bool.and_eq_true, decide_eq_true_eq] at haccepted
  obtain ⟨⟨⟨⟨⟨hpair, hpending⟩, -⟩, -⟩, -⟩, -⟩ := haccepted
  have hgeneration : ¬ session.generation < 1 := by
    intro hlt
    have hvalid := hc.valid
    simp only [checkLoginSession, List.findSome?_eq_none_iff, List.mem_cons, forall_eq_or_imp, id, hlt, if_true] at hvalid
    cases hvalid.2.2.2.1
  have hbuild : g.build = .ok g := by
    unfold Grant.build
    rw [hvalid]
  have hkey : (checkGrantKey manager g).Gives ⟨w.store, []⟩ () ⟨w.store, []⟩ := by
    unfold checkGrantKey
    split
    · rename_i m ref href
      obtain ⟨hselected, hreceipt⟩ := husable m ref rfl href
      simp only [gives_bind, gives_read, gives_raiseIf]
      exact ⟨_, _, ⟨rfl, rfl⟩, (), _, ⟨not_not.mpr hselected, rfl⟩, not_not.mpr hreceipt, rfl⟩
    · exact gives_pure.mpr ⟨rfl, rfl⟩
  have howns : g.ofPair session.principalId session.moduleId = true := by
    rw [LoginSession.ofPair_iff] at hpair
    rw [hpair.1, hpair.2]
    exact howner
  have hself : session.ofPair session.principalId session.moduleId = true := LoginSession.ofPair_iff.mpr ⟨rfl, rfl⟩
  have hsessions := (completeGrant_gives hcomplete).1
  have hcount : s'.sessions.matching
      (stillPendingAt (session.withStatus .completed) session session.generation) = 1 := by
    have hsplit : stillPendingAt (session.withStatus .completed) session session.generation = fun r =>
        decide (r.sessionId = session.sessionId) && (r.ofPair session.principalId session.moduleId &&
          decide (r.generation = session.generation) && decide (r.status = .pending) &&
          decide (r.expiresAt = session.expiresAt)) := by
      funext r
      simp only [stillPendingAt, savedAt, LoginSession.withStatus, Bool.and_assoc]
      rfl
    rw [hsessions, hsplit, Table.matching_eq_one]
    exact ⟨session, hc.stored, by simp [hself, hpending]⟩
  refine ⟨(session.withStatus .completed, g), withSessions (stillPendingAt (session.withStatus .completed) session session.generation) .completed s',
    transaction_ok.mpr ⟨[], ?_, by rintro _ ⟨⟩⟩⟩
  simp only [completeLogin, checkCompletion, completableSession, setStatus, gives_bind, gives_ofExcept, gives_raiseIf,
    gives_read, gives_orRaise, gives_write, gives_pure]
  exact ⟨_, _, ⟨LoginSession.build_withStatus hc.valid _, rfl⟩, g, _, ⟨hbuild, rfl⟩, (), _,
    ⟨(), _, ⟨hgeneration, rfl⟩, (), _, ⟨not_not.mpr rfl, rfl⟩, (), _, ⟨not_not.mpr rfl, rfl⟩, (), _,
      ⟨not_not.mpr hrevision, rfl⟩, (), _, ⟨not_not.mpr hactive, rfl⟩, not_not.mpr howns, rfl⟩,
    (), _, hkey, session, _,
    ⟨w.store, _, ⟨rfl, rfl⟩, session, _, ⟨hc.stored, rfl⟩, (), _, ⟨not_not.mpr rfl, rfl⟩, (), _,
      ⟨not_not.mpr hself, rfl⟩, (), _, ⟨not_not.mpr hc.latest, rfl⟩, (), _, ⟨not_not.mpr hpending, rfl⟩, (), _,
      ⟨not_le.mpr hc.unexpired, rfl⟩, rfl, rfl⟩,
    (), _, hcomplete, _, _, ⟨s', _, ⟨rfl, rfl⟩, (), _, rfl, rfl, rfl⟩, (), _, ⟨not_not.mpr hcount, rfl⟩, rfl, rfl⟩

theorem At.relogged (hv : At w v i (.committing scope session g expected))
    (hs : Accounts w.store.grants) (hc : CurrentLogin w scope generation now session) (hvalid : checkGrant g = none)
    (howner : g.ofPair scope.principalId scope.moduleId = true) (hactive : g.status = .active)
    (husable : ∀ m ref, manager = some m → g.secretRef = some ref →
      keySelected m w.store = true ∧ receiptUsable w.store ref = true)
    (hrevision : g.revision = nextGrantRevision expected) (hplacing : Placing w.store g expected)
    (halone : ∀ r ∈ w.store.grants.rows, r.ofPair g.principalId g.moduleId = true → r.live w.clock = false)
    (hsame : accountOf grant g = true) : Relogged w (v.flow i (.commit manager)) i grant := by
  obtain ⟨x, s', ht⟩ := completeLogin_ok hs hc hvalid howner hactive husable hrevision hplacing halone
  obtain ⟨_, hgives, -⟩ := transaction_ok.mp ht
  have hcompleting := completeLogin_gives hgives
  have haccepted := hc.accepted
  simp only [accepts, Bool.and_eq_true] at haccepted
  have hholds : completionHolds scope session x = true := hcompleting.holds haccepted.1.1.1.1.1
  have hflow : v.flow i (.commit manager) =
      { v.call (.completeLogin manager (session.withStatus .completed) g session.generation expected) with
        memory := remembered v.memory scope session }.put i (.ended (.completed ⟨g.grantId, g.revision⟩)) := by
    rw [flow_commit hv.flow, hv.clock, hv.store, ht]
    simp only [committedLogin, hholds, if_true, hcompleting.answered.1]
    rfl
  have hstore : (v.flow i (.commit manager)).store = s' := by
    rw [hflow]
    change (AuthCall.completeLogin _ _ _ _ _).run v.store v.clock = s'
    unfold AuthCall.run
    dsimp only
    rw [hv.store, hv.clock, ht]
  have hclock : (v.flow i (.commit manager)).clock = w.clock := by
    rw [hflow]
    exact hv.clock
  refine ⟨g, by rw [hflow]; exact flows_put .., ?_, hactive, hsame, ?_, ?_⟩
  · rw [hstore]
    exact hcompleting.granting.written
  · intro r hr hpair hlive
    rw [hclock] at hlive
    rw [hstore] at hr
    have hr := Table.get_of_mem hr
    by_cases hkey : r.grantId = g.grantId
    · rw [hkey] at hr
      exact Option.some.inj (hr.symm.trans hcompleting.granting.written)
    rw [hcompleting.granting.others _ hkey] at hr
    rw [halone r (Table.mem_of_get hr) hpair] at hlive
    cases hlive
  · intro v₀ as htrace r hr
    obtain ⟨r', hr', hle⟩ := revision_rising htrace hr
    cases hplacing with
    | fresh hnew _ => rw [hnew] at hr'; cases hr'
    | revived current hcurrent _ _ =>
      rw [hcurrent] at hr'
      cases hr'
      rw [hrevision]
      exact Nat.lt_succ_of_le hle

theorem At.refused (hv : At w v i (.committing scope session grant none)) (manager : Option KeyManager)
    (hbad : grant.revision ≠ 1 ∨ ∃ r ∈ w.store.grants.rows, accountOf grant r = true) :
    ∃ o, (v.flow i (.commit manager)).flows i = .ended (.raised o) := by
  rcases transaction_cases (completeLogin manager (session.withStatus .completed) grant session.generation none v.clock)
    v.store with ⟨x, s', ht⟩ | ⟨e, ht⟩
  · obtain ⟨_, hgives, -⟩ := transaction_ok.mp ht
    obtain ⟨-, hrevision, hnew⟩ := completeLogin_grown hgives
    rcases hbad with hne | ⟨r, hr, hsame⟩
    · exact absurd hrevision hne
    rw [← hv.store] at hr
    rw [hnew rfl r hr] at hsame
    cases hsame
  · have hflow : v.flow i (.commit manager) = committedLogin
        (v.call (.completeLogin manager (session.withStatus .completed) grant session.generation none)) i scope session
        (.error e) := by
      rw [flow_commit hv.flow, ht]
    rw [hflow]
    cases e with
    | valueError message => exact ⟨_, flows_put ..⟩
    | _ => exact ⟨_, flows_put ..⟩

theorem checkGrant_revived (h : checkGrant grant = none) (hkey : boundedField r.grantId "grant_id" = none) :
    checkGrant { grant with grantId := r.grantId, revision := r.revision + 1 } = none := by
  obtain ⟨-, hprincipal, haccount, hmodule, -, hscopes, hunique, hsecret⟩ := checkGrant_eq_none.mp h
  exact checkGrant_eq_none.mpr ⟨hkey, hprincipal, haccount, hmodule, Nat.le_add_left 1 _, hscopes, hunique, hsecret⟩

variable {u : World} {o : AuthorizationError}

theorem not_relogged (h : u.flows i = .ended (.raised o)) : ¬ Relogged w u i grant := by
  rintro ⟨g, hend, -⟩
  rw [h] at hend
  cases hend

theorem not_relogged_listed (h : u.flows i = .ended (.raised o)) :
    ¬ Relogged w ((u.flow i .list).flow i (.commit manager)) i grant := by
  rw [(flow_ended h manager).1, (flow_ended h manager).2]
  exact not_relogged h

theorem At.listed (hu : At w u i (.listing scope session grant existing))
    (hgoes : (accountRow (listFor w.store scope.principalId scope.moduleId) grant).bind (reauthorized grant existing) =
      .ok (g, expected)) : At w (u.flow i .list) i (.committing scope session g expected) := by
  rw [flow_list hu.flow, hu.store, Authorization.listed, hgoes]
  exact ⟨hu.store, hu.clock, hu.memory, flows_put ..⟩

theorem accountRow_none (howner : grant.ofPair scope.principalId scope.moduleId = true)
    (h : ∀ r ∈ s.grants.rows, accountOf grant r = false) :
    accountRow (listFor s scope.principalId scope.moduleId) grant = .ok none := by
  have hnil : (listFor s scope.principalId scope.moduleId).filter (fun g => g.accountId = grant.accountId) = [] := by
    rw [List.eq_nil_iff_forall_not_mem]
    intro r hr
    obtain ⟨hr, hsame⟩ := (mem_account howner).mp hr
    rw [h r hr] at hsame
    cases hsame
  rw [accountRow, hnil]

theorem At.revived (hu : At w u i (.listing scope session grant existing))
    (hs : Accounts w.store.grants) (hc : CurrentLogin w scope generation now session)
    (hv : Verified w scope manager grant)
    (halone : ∀ r ∈ w.store.grants.rows, r.ofPair grant.principalId grant.moduleId = true → r.live w.clock = false) (hr : w.store.grants.get r.grantId = some r) (hsame : accountOf grant r = true)
    (hrevoked : r.status = .revoked) (hexisting : ∀ e, existing = some e → e = r) :
    Relogged w ((u.flow i .list).flow i (.commit manager)) i grant := by
  have hgoes : (accountRow (listFor w.store scope.principalId scope.moduleId) grant).bind (reauthorized grant existing) =
      .ok ({ grant with grantId := r.grantId, revision := r.revision + 1 }, some r.revision) := by
    rw [accountRow_of_mem hs hv.owner (Table.mem_of_get hr) hsame]
    cases existing with
    | none => simp [Except.bind, reauthorized, Option.filter, hrevoked]
    | some e => simp [Except.bind, reauthorized, Option.filter, hrevoked, hexisting e rfl]
  exact (hu.listed hgoes).relogged hs hc (checkGrant_revived hv.valid (hs.2 _ r hr)) hv.owner hv.active hv.usable rfl
    (.revived r hr hsame hrevoked) halone (accountOf_iff.mpr ⟨rfl, rfl, rfl⟩)

/-- Coming back to an account succeeds exactly when the account has no row, or a revoked one. -/
theorem relogin_exact (h : Returning w i scope generation now session manager grant) :
    Relogged w (relogin w i scope generation now session manager grant) i grant ↔ Readmits w.store grant := by
  obtain ⟨hreach, hidle, hc, hv, hinactive, halone⟩ := h
  have hs := accounts_of_reachable hreach
  have hlooking := At.looking hidle hc hv
  have howner := Grant.ofPair_iff.mp hv.owner
  have halone' : ∀ r ∈ w.store.grants.rows, r.ofPair grant.principalId grant.moduleId = true → r.live w.clock = false := by
    rw [howner.1, howner.2]
    exact halone
  rw [relogin, List.foldl_cons, List.foldl_cons, List.foldl_cons, List.foldl_cons, List.foldl_cons, List.foldl_cons,
    List.foldl_nil]
  generalize ((w.flow i (.completeLogin scope session.sessionId generation)).flow i (.readSession now)).flow i
    (.verify (some grant) true) = v at hlooking ⊢
  have hread : v.flow i .readGrant = foundGrant (v.call (.currentGrant grant.grantId)) i scope session grant
      (transaction (currentGrant grant.grantId w.clock) w.store).1 := by
    rw [flow_readGrant hlooking.flow, hlooking.store, hlooking.clock]
  by_cases hbounded : bounded grant.grantId "grant_id" = none
  · obtain ⟨s', ht, hstore, hsettle⟩ := currentGrant_answer w.clock w.store hbounded
    rw [ht] at hread
    have hcall : (v.call (.currentGrant grant.grantId)).store = s' := by
      change (AuthCall.currentGrant grant.grantId).run v.store v.clock = s'
      unfold AuthCall.run
      dsimp only
      rw [hlooking.store, hlooking.clock, ht]
    cases hget : w.store.grants.get grant.grantId with
    | none =>
      rw [hget] at hread hstore
      have hu : At w (v.flow i .readGrant) i (.listing scope session grant none) := by
        rw [hread]
        exact ⟨hcall.trans (hstore (by rintro _ ⟨⟩)), hlooking.clock, hlooking.memory, flows_put ..⟩
      by_cases haccount : ∃ r ∈ w.store.grants.rows, accountOf grant r = true
      · obtain ⟨r, hr, hsame⟩ := haccount
        by_cases hrevoked : r.status = .revoked
        · refine iff_of_true (hu.revived hs hc hv halone' (Table.get_of_mem hr) hsame hrevoked (by rintro _ ⟨⟩)) ⟨hbounded, .inr ?_⟩
          exact ⟨r, Table.get_of_mem hr, hsame, hrevoked, fun e he => by rw [hget] at he; cases he⟩
        have hgoes : (accountRow (listFor w.store scope.principalId scope.moduleId) grant).bind
            (reauthorized grant none) = .ok (grant, none) := by
          rw [accountRow_of_mem hs hv.owner hr hsame]
          simp [Except.bind, reauthorized, Option.filter, hrevoked]
        obtain ⟨o, ho⟩ := (hu.listed hgoes).refused manager (.inr ⟨r, hr, hsame⟩)
        refine iff_of_false (not_relogged ho) ?_
        rintro ⟨-, ⟨-, -, hnone⟩ | ⟨r', hr', hsame', hrevoked', -⟩⟩
        · rw [hnone r hr] at hsame
          cases hsame
        have hrow := accountRow_of_mem hs hv.owner hr hsame
        rw [accountRow_of_mem hs hv.owner (Table.mem_of_get hr') hsame'] at hrow
        cases hrow
        exact hrevoked hrevoked'
      · have hnone : ∀ r ∈ w.store.grants.rows, accountOf grant r = false := by
          intro r hr
          by_contra hsame
          exact haccount ⟨r, hr, (Bool.not_eq_false _).mp hsame⟩
        have hgoes : (accountRow (listFor w.store scope.principalId scope.moduleId) grant).bind
            (reauthorized grant none) = .ok (grant, none) := by
          rw [accountRow_none hv.owner hnone]
          rfl
        by_cases hrevision : grant.revision = 1
        · refine iff_of_true ?_ ⟨hbounded, .inl ⟨hget, hrevision, hnone⟩⟩
          exact (hu.listed hgoes).relogged hs hc hv.valid hv.owner hv.active hv.usable hrevision (.fresh hget hnone)
            halone' (accountOf_iff.mpr ⟨rfl, rfl, rfl⟩)
        obtain ⟨o, ho⟩ := (hu.listed hgoes).refused manager (.inl hrevision)
        refine iff_of_false (not_relogged ho) ?_
        rintro ⟨-, ⟨-, hone, -⟩ | ⟨r', hr', hsame', -⟩⟩
        · exact hrevision hone
        · exact haccount ⟨r', Table.mem_of_get hr', hsame'⟩
    | some e =>
      rw [hget] at hread hstore
      have hkey := Table.key_of_get hget
      have hreadmits : Readmits w.store grant ↔ accountOf grant e = true ∧ e.status = .revoked := by
        constructor
        · rintro ⟨-, ⟨hnone, -⟩ | ⟨r, -, hsame, hrevoked, honly⟩⟩
          · rw [hget] at hnone
            cases hnone
          · rw [honly e hget]
            exact ⟨hsame, hrevoked⟩
        rintro ⟨hsame, hrevoked⟩
        refine ⟨hbounded, .inr ⟨e, by rw [hkey]; exact hget, hsame, hrevoked, fun e' he' => ?_⟩⟩
        rw [hget] at he'
        exact (Option.some.inj he').symm
      rw [hreadmits]
      by_cases hpair : (settle w.clock e).ofPair scope.principalId scope.moduleId = true
      · have hdead : (settle w.clock e).status ≠ .active := by
          intro hactive
          have hnot : pastExpiry w.clock e = false := by
            by_contra hpast
            rw [settle, if_pos ((Bool.not_eq_false _).mp hpast)] at hactive
            cases hactive
          rw [settle, hnot, if_neg Bool.false_ne_true] at hactive hpair
          have hlive := halone e (Table.mem_of_get hget) hpair
          revert hnot hlive
          unfold pastExpiry Grant.live
          rw [hactive]
          cases e.expiresAt <;> simp
        have hflow : v.flow i .readGrant = (v.call (.currentGrant grant.grantId)).put i
            (.listing scope session grant (some (settle w.clock e))) := by
          rw [hread]
          simp only [Option.map_some, foundGrant, hpair, not_true_eq_false, if_false, hdead]
        by_cases hgood : accountOf grant e = true ∧ e.status = .revoked
        · have hinactive' : e.status ≠ .active := by
            rw [hgood.2]
            rintro ⟨⟩
          rw [settle_of_not_active hinactive'] at hflow
          have hu : At w (v.flow i .readGrant) i (.listing scope session grant (some e)) := by
            rw [hflow]
            refine ⟨hcall.trans (hstore ?_), hlooking.clock, hlooking.memory, flows_put ..⟩
            rintro e' ⟨⟩
            exact hinactive'
          refine iff_of_true (hu.revived hs hc hv halone' (by rw [hkey]; exact hget) hgood.1 hgood.2 ?_) hgood
          rintro e' ⟨⟩
          rfl
        · refine iff_of_false ?_ hgood
          rcases listed_existing hv.owner (v := v.flow i .readGrant) (by rw [hflow]; exact flows_put ..) with
            ⟨o, ho⟩ | ⟨r, hr, hsame, hrevoked, hsettled⟩
          · rw [(flow_ended ho manager).2]
            exact not_relogged ho
          -- The row has the key of the verified grant, so that it is the one read.
          exfalso
          have hstore' : (v.flow i .readGrant).store = s' := by
            rw [hflow]
            exact hcall
          rw [hstore'] at hr
          have hr := Table.get_of_mem hr
          rw [← hsettled, grantId_settle, hkey, hsettle, hget] at hr
          cases hr
          by_cases hpast : pastExpiry w.clock e = true
          · rw [settle, if_pos hpast] at hrevoked
            cases hrevoked
          · rw [settle, if_neg hpast] at hsame hrevoked
            exact hgood ⟨hsame, hrevoked⟩
      · refine iff_of_false (not_relogged_listed (o := .conflict) ?_) ?_
        · rw [hread]
          simp only [Option.map_some, foundGrant, hpair]
          exact flows_put ..
        rintro ⟨hsame, hrevoked⟩
        apply hpair
        rw [settle_of_not_active (by rw [hrevoked]; rintro ⟨⟩), Grant.ofPair_iff, ← howner.1, ← howner.2]
        exact ⟨(accountOf_iff.mp hsame).1, (accountOf_iff.mp hsame).2.1⟩
  · refine iff_of_false ?_ fun hr => hbounded hr.1
    rcases transaction_cases (currentGrant grant.grantId w.clock) w.store with ⟨x, s', ht⟩ | ⟨error, ht⟩
    · obtain ⟨_, hgives, -⟩ := transaction_ok.mp ht
      simp only [currentGrant, gives_bind, gives_raiseAny] at hgives
      obtain ⟨_, _, ⟨hnone, -⟩, -⟩ := hgives
      exact absurd hnone hbounded
    apply not_relogged_listed (o := .unavailable "grant authority is unavailable")
    rw [hread, ht]
    exact flows_put ..

end Stages

namespace Sample

def opening : List Action := [.flow 3 (.beginLogin scope), .flow 3 (.openSession "login_2" true)]

def comingBack : LoginSession := ⟨"login_2", "principal", "ff14/core", 2, .pending, 600000000⟩

def anew : Grant := exchanged "grant_3" "account_1" "secret_3" "login_2"

def newSecrets (generation : ℕ) : Action :=
  .keys ⟨[⟨secretRef "secret_3" "login_2", generation, .active⟩], List.nodup_singleton _⟩ (some ⟨generation, generation, .managed⟩) .empty

def afterRevocation : World :=
  run (secrets :: login 0 "login_1" first ++ revocation 2 ⟨"grant_1", 1⟩ ++ newSecrets 1 :: opening)

def afterReset : World :=
  run (secrets :: login 0 "login_1" first ++ [.call (.resetKeys none "reset_1"), newSecrets 2] ++ opening)

def managerAt (generation : ℕ) : KeyManager := ⟨some generation, some generation⟩

def idleAt (w : World) (i : ℕ) : Bool :=
  match w.flows i with
  | .idle => true
  | _ => false

def returnsTo (w : World) (generation : ℕ) : Bool :=
  idleAt w 4 && decide (w.store.sessions.get "login_2" = some comingBack) && decide (w.clock = 0) &&
    accepts w.memory scope none 0 comingBack &&
    ((w.memory.sessionConversations "login_2").all (· = ("qq", "room"))) &&
    decide (latestGeneration w.store.sessions "principal" "ff14/core" = 2) &&
    keySelected (managerAt generation) w.store && receiptUsable w.store (secretRef "secret_3" "login_2") &&
    w.store.grants.rows.all fun r => r.status ≠ .active

def revoked : {w : World // returnsTo w 1 = true} := ⟨afterRevocation, by decide +kernel⟩

theorem returning_of {actions : List Action} {generation : ℕ} (h : returnsTo (run actions) generation = true) :
    Returning (run actions) 4 scope none 0 comingBack (some (managerAt generation)) anew := by
  simp only [returnsTo, Bool.and_eq_true, decide_eq_true_eq] at h
  obtain ⟨⟨⟨⟨⟨⟨⟨⟨hidle, hstored⟩, hclock⟩, haccepts⟩, hroom⟩, hlatest⟩, hselected⟩, husable⟩, hrows⟩ := h
  have hinactive : ∀ r ∈ (run actions).store.grants.rows, r.status ≠ .active := by simpa using hrows
  refine ⟨reachable actions, ?_, ⟨hstored, by decide +kernel, by decide +kernel, ?_, haccepts, hroom, hlatest⟩,
    ⟨by decide +kernel, by decide, rfl, rfl, ?_⟩, fun r hr _ => hinactive r hr, ?_⟩
  · unfold idleAt at hidle
    split at hidle
    · assumption
    · cases hidle
  · rw [hclock]
    decide
  · rintro m ref ⟨⟩ ⟨⟩
    exact ⟨hselected, husable⟩
  · intro r hr _
    simp [Grant.live, hinactive r hr]

end Sample

open Sample in
theorem relogin_exact_revoked :
    Relogged afterRevocation (relogin afterRevocation 4 scope none 0 comingBack (some (managerAt 1)) anew) 4 anew := by
  have hreturns : Returning afterRevocation 4 scope none 0 comingBack (some (managerAt 1)) anew :=
    returning_of revoked.property
  apply (relogin_exact hreturns).mpr
  have hrow : afterRevocation.store.grants.get "grant_1" = some { first with revision := 2, status := .revoked } ∧
      afterRevocation.store.grants.get "grant_3" = none := by decide +kernel
  refine ⟨by decide +kernel, .inr ⟨{ first with revision := 2, status := .revoked }, hrow.1, by decide +kernel, rfl, ?_⟩⟩
  intro e he
  rw [show anew.grantId = "grant_3" from rfl, hrow.2] at he
  cases he

open Sample in
/-- After a reset of the master key the account cannot be authorized again. -/
theorem relogin_after_reset : ¬ ∀ w i scope generation now session manager grant,
    Returning w i scope generation now session manager grant →
      Relogged w (relogin w i scope generation now session manager grant) i grant := by
  intro h
  obtain ⟨g, hend, -⟩ := h afterReset 4 scope none 0 comingBack (some (managerAt 2)) anew (returning_of (by decide +kernel))
  have hrefused : (match (relogin afterReset 4 scope none 0 comingBack (some (managerAt 2)) anew).flows 4 with
      | .ended (.raised .conflict) => true
      | _ => false) = true := by decide +kernel
  rw [hend] at hrefused
  cases hrefused

end GameLink.Authorization

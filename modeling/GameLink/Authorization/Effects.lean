import GameLink.Authorization.Repository

namespace GameLink.Authorization

open Foundation Work Contracts

def SessionsKept (t t' : Table LoginSession.sessionId) : Prop :=
  ∀ k r, t.get k = some r → ∃ status, t'.get k = some (r.withStatus status) ∧ (r.status ≠ .pending → status = r.status)

theorem SessionsKept.refl (t : Table LoginSession.sessionId) : SessionsKept t t :=
  fun _ r h => ⟨r.status, h, fun _ => rfl⟩

theorem SessionsKept.trans {t t' t'' : Table LoginSession.sessionId} (h : SessionsKept t t') (h' : SessionsKept t' t'') :
    SessionsKept t t'' := by
  intro k r hr
  obtain ⟨status, hget, hkept⟩ := h k r hr
  obtain ⟨status', hget', hkept'⟩ := h' k _ hget
  refine ⟨status', hget', ?_⟩
  intro hpending
  have hstatus := hkept hpending
  exact (hkept' (hstatus ▸ hpending)).trans hstatus

def GrantsKept (now : Instant) (t t' : Table Grant.grantId) : Prop :=
  ∀ k g', t'.get k = some g' → g'.live now = true →
    ∃ g, t.get k = some g ∧ g.live now = true ∧ g'.principalId = g.principalId ∧ g'.moduleId = g.moduleId

theorem GrantsKept.refl (now : Instant) (t : Table Grant.grantId) : GrantsKept now t t :=
  fun _ g h hlive => ⟨g, h, hlive, rfl, rfl⟩

structure Noted (now : Instant) (s s' : AuthStore) : Prop where
  sessions : ∀ k, s'.sessions.get k = s.sessions.get k ∨ ∃ r, s.sessions.get k = some r ∧ r.status = .pending ∧
    r.expiresAt ≤ now ∧ s'.sessions.get k = some (r.withStatus .expired)
  grants : ∀ k, s'.grants.get k = s.grants.get k ∨ ∃ g, s.grants.get k = some g ∧ pastExpiry now g = true ∧
    s'.grants.get k = some g.lapsed
  receipts : s'.receipts = s.receipts

theorem Noted.refl (now : Instant) (s : AuthStore) : Noted now s s := ⟨fun _ => .inl rfl, fun _ => .inl rfl, rfl⟩

variable {s s' : AuthStore}

theorem Noted.sessionsKept {now : Instant} (h : Noted now s s') :
    SessionsKept s.sessions s'.sessions := by
  intro k r hr
  cases h.sessions k with
  | inl hsame => exact ⟨r.status, hsame.trans hr, fun _ => rfl⟩
  | inr hnoted =>
    obtain ⟨r', hr', hpending, -, hget⟩ := hnoted
    cases hr.symm.trans hr'
    exact ⟨.expired, hget, fun hne => absurd hpending hne⟩

theorem Noted.grantsKept {now : Instant} (h : Noted now s s') : GrantsKept now s.grants s'.grants := by
  intro k g' hg' hlive
  cases h.grants k with
  | inl hsame => exact ⟨g', hsame.symm.trans hg', hlive, rfl, rfl⟩
  | inr hnoted =>
    obtain ⟨g, -, -, hget⟩ := hnoted
    cases hg'.symm.trans hget
    simp [Grant.live, Grant.lapsed] at hlive

variable {u u' : UnitOfWork AuthStore AuthFailure} {now : Instant} {n : ℕ}

theorem le_foldr_max {l : List ℕ} (h : n ∈ l) : n ≤ l.foldr max 0 := by
  induction l with
  | nil => cases h
  | cons m l ih =>
    rw [List.foldr_cons]
    cases h with
    | head => exact le_max_left _ _
    | tail _ h => exact (ih h).trans (le_max_right _ _)

variable {r : LoginSession}

theorem le_latestGeneration {t : Table LoginSession.sessionId} {k : String} (h : t.get k = some r) :
    r.generation ≤ latestGeneration t r.principalId r.moduleId := by
  apply le_foldr_max
  apply List.mem_map_of_mem
  rw [List.mem_filter]
  exact ⟨Table.mem_of_get h, by simp [LoginSession.ofPair]⟩

variable {status : LoginSessionStatus} {p : LoginSession → Bool}

theorem setStatus_gives
    (h : (setStatus p status).Gives u n u') :
    n = u.store.sessions.matching p ∧ u' = { u with store := withSessions p status u.store } := by
  simp only [setStatus, gives_bind, gives_read, gives_write, gives_pure] at h
  obtain ⟨_, _, ⟨rfl, rfl⟩, _, _, rfl, rfl, rfl⟩ := h
  exact ⟨rfl, rfl⟩

theorem get_withSessions (p : LoginSession → Bool) (status : LoginSessionStatus) (s : AuthStore) (k : String) :
    (withSessions p status s).sessions.get k =
      (s.sessions.get k).map fun r => if p r = true then r.withStatus status else r :=
  Table.get_update s.sessions p (LoginSession.withStatus status) (LoginSession.sessionId_withStatus status) k

theorem sessionsKept_withSessions {s : AuthStore}
    (hp : ∀ r, p r = true → r.status = .pending ∨ status = r.status) :
    SessionsKept s.sessions (withSessions p status s).sessions := by
  intro k r hr
  rw [get_withSessions, hr, Option.map_some]
  by_cases h : p r = true
  · refine ⟨status, by rw [if_pos h], ?_⟩
    intro hne
    cases hp r h with
    | inl hpending => exact absurd hpending hne
    | inr hsame => exact hsame
  · exact ⟨r.status, by rw [if_neg h]; rfl, fun _ => rfl⟩

variable {x : Unit}

theorem insertSession_gives {l : LoginSession} (h : (insertSession l).Gives u x u') :
    SessionsKept u.store.sessions u'.store.sessions ∧ u'.store.grants = u.store.grants := by
  simp only [insertSession, gives_bind, gives_read, gives_raiseIf, gives_orRaise, gives_write] at h
  obtain ⟨_, _, ⟨rfl, rfl⟩, _, _, ⟨-, rfl⟩, table, _, ⟨htable, rfl⟩, rfl⟩ := h
  refine ⟨?_, rfl⟩
  intro k r hr
  exact ⟨r.status, Table.kept_of_insert htable hr, fun _ => rfl⟩

theorem currentSession_gives {sessionId : String} {x : Option LoginSession}
    (h : (currentSession sessionId now).Gives u x u') : Noted now u.store u'.store := by
  simp only [currentSession, gives_bind, gives_raiseAny, gives_read] at h
  obtain ⟨_, _, ⟨-, rfl⟩, _, _, ⟨rfl, rfl⟩, h⟩ := h
  split at h
  · simp only [gives_pure] at h
    rw [h.2]
    exact .refl ..
  rename_i session hsession
  split at h
  · rename_i hlapsed
    simp only [gives_bind, gives_pure] at h
    obtain ⟨_, _, hset, -, rfl⟩ := h
    obtain ⟨-, rfl⟩ := setStatus_gives hset
    refine ⟨?_, fun _ => .inl rfl, rfl⟩
    intro k
    change (withSessions (pendingAt sessionId) .expired u.store).sessions.get k = _ ∨ _
    rw [get_withSessions]
    cases hr : u.store.sessions.get k with
    | none => exact .inl rfl
    | some r =>
      rw [Option.map_some]
      by_cases hp : pendingAt sessionId r = true
      · rw [if_pos hp]
        have hk : r.sessionId = sessionId := by
          simp only [pendingAt, Bool.and_eq_true, decide_eq_true_eq] at hp
          exact hp.1
        rw [← hk, Table.key_of_get hr, hr] at hsession
        obtain rfl := Option.some.inj hsession
        exact .inr ⟨r, rfl, hlapsed.1, hlapsed.2, rfl⟩
      · exact .inl (by rw [if_neg hp])
  · simp only [gives_pure] at h
    rw [h.2]
    exact .refl ..

variable {expected : ℕ}

theorem nextGeneration_gives {principalId moduleId sessionId : String} {x : LoginSession}
    (h : (nextGeneration principalId moduleId expected sessionId now).Gives u x u') :
    SessionsKept u.store.sessions u'.store.sessions ∧ u'.store.grants = u.store.grants := by
  simp only [nextGeneration, gives_bind, gives_raiseAny, gives_read, gives_raiseIf, gives_ofExcept, gives_pure] at h
  obtain ⟨_, _, ⟨-, rfl⟩, _, _, ⟨-, rfl⟩, _, _, ⟨rfl, rfl⟩, _, _, ⟨-, rfl⟩, _, _, hset, _, _, ⟨-, rfl⟩, _, _, hinsert,
    -, rfl⟩ := h
  obtain ⟨-, rfl⟩ := setStatus_gives hset
  obtain ⟨hkept, hgrants⟩ := insertSession_gives hinsert
  refine ⟨SessionsKept.trans (sessionsKept_withSessions ?_) hkept, hgrants⟩
  intro r hr
  simp only [LoginSession.pendingOf, Bool.and_eq_true, decide_eq_true_eq] at hr
  exact .inl hr.2

theorem pending_of_stillPendingAt {l r row : LoginSession} (h : stillPendingAt l r expected row = true) :
    row.status = .pending := by
  simp only [stillPendingAt, Bool.and_eq_true, decide_eq_true_eq] at h
  exact h.1.2

theorem saveStatus_gives {session row : LoginSession} {x : LoginSession × Bool}
    (hrow : u.store.sessions.get session.sessionId = some row)
    (h : (saveStatus session row expected now).Gives u x u') :
    SessionsKept u.store.sessions u'.store.sessions ∧ u'.store.grants = u.store.grants := by
  unfold saveStatus at h
  split at h
  · simp only [gives_bind, gives_raiseIf, gives_pure] at h
    obtain ⟨_, _, hset, _, _, ⟨-, rfl⟩, -, rfl⟩ := h
    obtain ⟨-, rfl⟩ := setStatus_gives hset
    exact ⟨sessionsKept_withSessions fun r hr => .inl (pending_of_stillPendingAt hr), rfl⟩
  simp only [gives_bind, gives_raiseIf, gives_pure] at h
  obtain ⟨_, _, ⟨hstate, rfl⟩, _, _, hset, _, _, ⟨-, rfl⟩, -, rfl⟩ := h
  obtain ⟨-, rfl⟩ := setStatus_gives hset
  refine ⟨?_, rfl⟩
  intro k r hr
  change ∃ status, (withSessions (savedAt session expected) session.status u.store).sessions.get k = _ ∧ _
  rw [get_withSessions, hr, Option.map_some]
  by_cases hp : savedAt session expected r = true
  · refine ⟨session.status, by rw [if_pos hp], ?_⟩
    intro hne
    simp only [savedAt, Bool.and_eq_true, decide_eq_true_eq] at hp
    -- The row that the update selects is the one that was read.
    rw [← hp.1.1, Table.key_of_get hr, hr] at hrow
    obtain rfl := Option.some.inj hrow
    exact not_not.mp (not_and.mp hstate hne)
  · exact ⟨r.status, by rw [if_neg hp]; rfl, fun _ => rfl⟩

variable {session : LoginSession}

theorem saveSession_gives {x : LoginSession × Bool}
    (h : (saveSession session expected now).Gives u x u') :
    SessionsKept u.store.sessions u'.store.sessions ∧ u'.store.grants = u.store.grants := by
  simp only [saveSession, gives_bind, gives_ofExcept, gives_read] at h
  obtain ⟨valid, _, ⟨-, rfl⟩, _, _, ⟨rfl, rfl⟩, h⟩ := h
  split at h
  · simp only [saveNew, gives_bind, gives_raiseIf, gives_pure] at h
    obtain ⟨_, _, ⟨-, rfl⟩, _, _, hinsert, -, rfl⟩ := h
    exact insertSession_gives hinsert
  rename_i row hrow
  simp only [saveCurrent, gives_bind, gives_raiseIf, gives_read] at h
  obtain ⟨_, _, ⟨-, rfl⟩, _, _, ⟨-, rfl⟩, _, _, ⟨rfl, rfl⟩, _, _, ⟨-, rfl⟩, h⟩ := h
  exact saveStatus_gives hrow h

theorem supersedePending_gives {principalId moduleId : String} {generation : ℕ}
    (h : (supersedePending principalId moduleId generation).Gives u x u') :
    SessionsKept u.store.sessions u'.store.sessions ∧ u'.store.grants = u.store.grants := by
  simp only [supersedePending, gives_bind, gives_raiseAny, gives_raiseIf, gives_pure] at h
  obtain ⟨_, _, ⟨-, rfl⟩, _, _, ⟨-, rfl⟩, _, _, ⟨-, rfl⟩, _, _, hset, -, rfl⟩ := h
  obtain ⟨-, rfl⟩ := setStatus_gives hset
  refine ⟨sessionsKept_withSessions ?_, rfl⟩
  intro r hr
  simp only [supersededBy, LoginSession.pendingOf, Bool.and_eq_true, decide_eq_true_eq] at hr
  exact .inl hr.1.2

theorem pending_spec (h : pending r = true) : r.status = .pending := by
  simpa [pending] using h

theorem expirePendingOnRestart_gives (h : expirePendingOnRestart.Gives u n u') :
    SessionsKept u.store.sessions u'.store.sessions ∧ u'.store.grants = u.store.grants := by
  obtain ⟨-, rfl⟩ := setStatus_gives h
  exact ⟨sessionsKept_withSessions fun r hr => .inl (pending_spec hr), rfl⟩

theorem get_withGrants (p : Grant → Bool) (f : Grant → Grant) (hf : ∀ r, (f r).grantId = r.grantId) (s : AuthStore)
    (k : String) : (withGrants p f hf s).grants.get k = (s.grants.get k).map fun r => if p r = true then f r else r :=
  Table.get_update s.grants p f hf k

variable {p : Grant → Bool} {f : Grant → Grant}

theorem get_withGrants_other (hf : ∀ r, (f r).grantId = r.grantId) (s : AuthStore)
    {k k' : String} (hne : k' ≠ k) (hp : ∀ r, p r = true → r.grantId = k) :
    (withGrants p f hf s).grants.get k' = s.grants.get k' := by
  change (s.grants.update p f hf).get k' = s.grants.get k'
  exact Table.get_update_other hne hp

theorem currentGrant_gives {grantId : String} {x : Option Grant} (h : (currentGrant grantId now).Gives u x u') :
    Noted now u.store u'.store := by
  simp only [currentGrant, gives_bind, gives_raiseAny, gives_read] at h
  obtain ⟨_, _, ⟨-, rfl⟩, _, _, ⟨rfl, rfl⟩, h⟩ := h
  split at h
  · simp only [gives_pure] at h
    rw [h.2]
    exact .refl ..
  rename_i grant hgrant
  split at h
  · rename_i hpast
    simp only [gives_bind, gives_write, gives_pure] at h
    obtain ⟨_, _, rfl, -, rfl⟩ := h
    refine ⟨fun _ => .inl rfl, ?_, rfl⟩
    intro k
    change (withGrants (activeAt grantId grant.revision) Grant.lapsed Grant.grantId_lapsed u.store).grants.get k = _ ∨ _
    rw [get_withGrants]
    cases hr : u.store.grants.get k with
    | none => exact .inl rfl
    | some r =>
      rw [Option.map_some]
      by_cases hp : activeAt grantId grant.revision r = true
      · rw [if_pos hp]
        have hk : r.grantId = grantId := by
          simp only [activeAt, atGrant, Bool.and_eq_true, decide_eq_true_eq] at hp
          exact hp.1.1
        rw [← hk, Table.key_of_get hr, hr] at hgrant
        obtain rfl := Option.some.inj hgrant
        exact .inr ⟨r, rfl, hpast, rfl⟩
      · exact .inl (by rw [if_neg hp])
  · simp only [gives_pure] at h
    rw [h.2]
    exact .refl ..

theorem grantsKept_withGrants (hf : ∀ r, (f r).grantId = r.grantId) {s : AuthStore}
    (hdead : ∀ r, p r = true → (f r).live now = false) :
    GrantsKept now s.grants (withGrants p f hf s).grants := by
  intro k g' hg' hlive
  rw [get_withGrants] at hg'
  obtain ⟨g, hg, rfl⟩ := Option.map_eq_some_iff.mp hg'
  by_cases hp : p g = true
  · rw [if_pos hp, hdead g hp] at hlive
    cases hlive
  · rw [if_neg hp] at hlive ⊢
    exact ⟨g, hg, hlive, rfl, rfl⟩

theorem replaceGrant_gives {g : Grant} (h : (replaceGrant p g).Gives u n u') : n = u.store.grants.matching p ∧
      u' = { u with store := withGrants p (overwrite g) (grantId_overwrite g) u.store } := by
  simp only [replaceGrant, gives_bind, gives_read, gives_raiseIf, gives_write, gives_pure] at h
  obtain ⟨_, _, ⟨rfl, rfl⟩, _, _, ⟨-, rfl⟩, _, _, rfl, rfl, rfl⟩ := h
  exact ⟨rfl, rfl⟩

theorem abandonKeyOperation_gives {current : Grant} (h : (abandonKeyOperation current).Gives u x u') :
    u'.store.sessions = u.store.sessions ∧ u'.store.grants = u.store.grants := by
  unfold abandonKeyOperation at h
  split at h
  · simp only [gives_pure] at h
    rw [h.2]
    exact ⟨rfl, rfl⟩
  simp only [gives_write] at h
  rw [h]
  exact ⟨rfl, rfl⟩

/-- What a revocation that did not raise has read and written. -/
theorem revokeGrantInUnit_spec {grant x : Grant} {requireExact : Bool}
    (h : (revokeGrantInUnit grant expected requireExact).Gives u x u') :
    ∃ current v v' n, u.store.grants.get grant.grantId = some current ∧ (abandonKeyOperation current).Gives u () v ∧
      x = { current with revision := expected + 1, status := .revoked } ∧
      (replaceGrant (atGrant x.grantId expected) x).Gives v n v' ∧
      u' = { v' with
        store := withSessions (LoginSession.pendingOf current.principalId current.moduleId) .cancelled v'.store } := by
  simp only [revokeGrantInUnit, gives_bind, gives_raiseAny, gives_read, gives_orRaise] at h
  obtain ⟨_, _, ⟨-, rfl⟩, _, _, ⟨rfl, rfl⟩, current, _, ⟨hcurrent, rfl⟩, h⟩ := h
  simp only [gives_raiseIf] at h
  obtain ⟨_, _, ⟨-, rfl⟩, _, _, ⟨-, rfl⟩, _, _, ⟨-, rfl⟩, _, _, ⟨-, rfl⟩, _, v, habandon, h⟩ := h
  simp only [gives_ofExcept, gives_pure] at h
  obtain ⟨revoked, _, ⟨hrevoked, rfl⟩, n, v', hreplace, _, _, ⟨-, rfl⟩, _, _, hset, rfl, rfl⟩ := h
  obtain ⟨-, rfl⟩ := setStatus_gives hset
  exact ⟨current, v, v', n, hcurrent, habandon, (Grant.build_eq_ok hrevoked).symm, hreplace, rfl⟩

theorem revokeGrantInUnit_gives (now : Instant) {grant x : Grant} {requireExact : Bool}
    (h : (revokeGrantInUnit grant expected requireExact).Gives u x u') :
    SessionsKept u.store.sessions u'.store.sessions ∧ GrantsKept now u.store.grants u'.store.grants := by
  obtain ⟨current, v, v', n, -, habandon, rfl, hreplace, rfl⟩ := revokeGrantInUnit_spec h
  obtain ⟨hsessions, hgrants⟩ := abandonKeyOperation_gives habandon
  obtain ⟨-, rfl⟩ := replaceGrant_gives hreplace
  refine ⟨?_, ?_⟩
  · rw [← hsessions]
    refine sessionsKept_withSessions (s := withGrants _ _ _ v.store) ?_
    intro r hr
    simp only [LoginSession.pendingOf, Bool.and_eq_true, decide_eq_true_eq] at hr
    exact .inl hr.2
  rw [← hgrants]
  apply grantsKept_withGrants (grantId_overwrite _)
  intro r _
  rfl

theorem revokeGrantWithInvalidation_gives (now : Instant) {grant x : Grant} {invalidation : Option AuthFailure}
    (h : (revokeGrantWithInvalidation grant expected invalidation).Gives u x u') :
    SessionsKept u.store.sessions u'.store.sessions ∧ GrantsKept now u.store.grants u'.store.grants := by
  simp only [revokeGrantWithInvalidation, gives_bind, gives_raiseIf, gives_raiseAny, gives_pure] at h
  obtain ⟨_, _, ⟨-, rfl⟩, _, _, hrevoke, _, _, ⟨-, rfl⟩, -, rfl⟩ := h
  exact revokeGrantInUnit_gives now hrevoke

theorem resetKeys_gives (now : Instant) {refusal : Option AuthFailure} {operationId : String}
    (h : (resetKeys refusal operationId).Gives u x u') :
    SessionsKept u.store.sessions u'.store.sessions ∧ GrantsKept now u.store.grants u'.store.grants := by
  simp only [resetKeys, gives_bind, gives_raiseAny, gives_write] at h
  obtain ⟨_, _, ⟨-, rfl⟩, _, _, rfl, _, _, hset, _, _, rfl, _, _, rfl, rfl⟩ := h
  obtain ⟨-, rfl⟩ := setStatus_gives hset
  refine ⟨?_, ?_⟩
  · exact sessionsKept_withSessions (s := withGrants _ _ _ u.store) fun r hr => .inl (pending_spec hr)
  apply grantsKept_withGrants grantId_withoutSecret
  intro r _
  by_cases hactive : r.status = .active
  · simp [Grant.live, withoutSecret, hactive]
  · simp [Grant.live, withoutSecret, hactive]

structure Granting (now : Instant) (grant : Grant) (expected : Option ℕ) (t t' : Table Grant.grantId) : Prop where
  written : t'.get grant.grantId = some grant
  others : ∀ k, k ≠ grant.grantId → t'.get k = t.get k
  fresh : expected = none → ∀ k r, t.get k = some r → r.ofPair grant.principalId grant.moduleId = true →
    r.live now = false
  rotated : ∀ revision, expected = some revision → ∃ current, t.get grant.grantId = some current ∧
    current.ofPair grant.principalId grant.moduleId = true ∧ (current.live now = true ∨ current.status = .revoked)

variable {grant : Grant}

theorem completeNew_gives (h : (completeNew grant now).Gives u x u') :
    u'.store.sessions = u.store.sessions ∧ u'.store.receipts = u.store.receipts ∧
      Granting now grant none u.store.grants u'.store.grants := by
  simp only [completeNew, insertGrant, gives_bind, gives_read, gives_raiseIf, gives_orRaise, gives_write] at h
  obtain ⟨_, _, ⟨rfl, rfl⟩, _, _, ⟨hnone, rfl⟩, _, _, ⟨rfl, rfl⟩, _, _, ⟨-, rfl⟩, table, _, ⟨htable, rfl⟩, rfl⟩ := h
  refine ⟨rfl, rfl, ?_, ?_, ?_, fun _ h => by cases h⟩
  · exact (Table.get_insert htable grant.grantId).trans (if_pos rfl)
  · intro k hk
    exact (Table.get_insert htable k).trans (if_neg (Ne.symm hk))
  intro _ k r hr hpair
  by_contra hlive
  apply hnone
  rw [List.any_eq_true]
  refine ⟨r, Table.mem_of_get hr, ?_⟩
  rw [hpair, (Bool.not_eq_false _).mp hlive]
  rfl

theorem completeCurrent_gives (h : (completeCurrent grant expected now).Gives u x u') :
    u'.store.sessions = u.store.sessions ∧ u'.store.receipts = u.store.receipts ∧
      Granting now grant (some expected) u.store.grants u'.store.grants := by
  simp only [completeCurrent, gives_bind, gives_read, gives_orRaise, gives_raiseIf] at h
  obtain ⟨_, _, ⟨rfl, rfl⟩, current, _, ⟨hcurrent, rfl⟩, _, _, ⟨hrevision, rfl⟩, _, _, ⟨howner, rfl⟩, _, _, ⟨-, rfl⟩,
    _, _, ⟨husable, rfl⟩, n, _, hreplace, -, rfl⟩ := h
  obtain ⟨-, rfl⟩ := replaceGrant_gives hreplace
  have hkey := Table.key_of_get hcurrent
  have hp : rotatedAt current expected current = true := by
    simp [rotatedAt, atGrant, not_not.mp hrevision]
  refine ⟨rfl, rfl, ?_, ?_, (fun h => by cases h), ?_⟩
  · change (withGrants (rotatedAt current expected) (overwrite grant) (grantId_overwrite grant) u.store).grants.get _ = _
    rw [get_withGrants, hcurrent, Option.map_some, if_pos hp, overwrite, hkey]
  · intro k hk
    have hselects : ∀ r, rotatedAt current expected r = true → r.grantId = grant.grantId := by
      intro r hr
      simp only [rotatedAt, atGrant, Bool.and_eq_true, decide_eq_true_eq] at hr
      exact hr.1.1.trans hkey
    exact get_withGrants_other (grantId_overwrite grant) u.store hk hselects
  · rintro _ ⟨⟩
    refine ⟨current, hcurrent, not_not.mp howner, ?_⟩
    by_cases hrevoked : current.status = .revoked
    · exact .inr hrevoked
    left
    simp only [unusable, pastExpiry, Bool.or_eq_true, Bool.and_eq_true, decide_eq_true_eq, not_or, not_and] at husable
    have hactive : current.status = .active := by
      by_contra hne
      exact husable.1 hne hrevoked
    have hexpiry := husable.2 hactive
    rw [Grant.live, hactive]
    cases he : current.expiresAt with
    | none => rfl
    | some e => simpa [he] using hexpiry

variable {expected : Option ℕ}

theorem completeGrant_gives (h : (completeGrant grant expected now).Gives u x u') :
    u'.store.sessions = u.store.sessions ∧ u'.store.receipts = u.store.receipts ∧
      Granting now grant expected u.store.grants u'.store.grants := by
  cases expected with
  | none => exact completeNew_gives h
  | some revision => exact completeCurrent_gives h

variable {manager : Option KeyManager}

theorem checkGrantKey_gives
    (h : (checkGrantKey manager grant).Gives u x u') : u = u' := by
  unfold checkGrantKey at h
  split at h
  · simp only [gives_bind, gives_read, gives_raiseIf] at h
    obtain ⟨_, _, ⟨-, rfl⟩, _, _, ⟨-, rfl⟩, -, rfl⟩ := h
    rfl
  · simp only [gives_pure] at h
    exact h.2

structure Completing (now : Instant) (session : LoginSession) (grant : Grant) (expected : Option ℕ) (s s' : AuthStore)
    (answer : LoginSession × Grant) : Prop where
  completed : ∃ row, s.sessions.get session.sessionId = some row ∧ row.status = .pending ∧ now < row.expiresAt ∧
    row.generation = latestGeneration s.sessions row.principalId row.moduleId ∧
    s'.sessions.get session.sessionId = some (row.withStatus .completed)
  kept : SessionsKept s.sessions s'.sessions
  granting : Granting now grant expected s.grants s'.grants
  receipts : s'.receipts = s.receipts
  active : grant.status = .active
  owner : grant.ofPair session.principalId session.moduleId = true
  answered : answer.2 = grant ∧ answer.1.sessionId = session.sessionId ∧ answer.1.generation = session.generation ∧
    answer.1.status = .completed

variable {expectedGeneration : ℕ}

theorem checkCompletion_gives (h : (checkCompletion session grant expectedGeneration expected).Gives u x u') :
    grant.revision = nextGrantRevision expected ∧ grant.status = .active ∧
      grant.ofPair session.principalId session.moduleId = true ∧ u = u' := by
  simp only [checkCompletion, gives_bind, gives_raiseIf] at h
  obtain ⟨_, _, ⟨-, rfl⟩, _, _, ⟨-, rfl⟩, _, _, ⟨-, rfl⟩, _, _, ⟨hrevision, rfl⟩, _, _, ⟨hactive, rfl⟩, howner, rfl⟩ := h
  exact ⟨not_not.mp hrevision, not_not.mp hactive, not_not.mp howner, rfl⟩

structure Pending (now : Instant) (session : LoginSession) (expected : ℕ) (s : AuthStore) (row : LoginSession) :
    Prop where
  stored : s.sessions.get session.sessionId = some row
  generation : row.generation = expected
  owner : row.ofPair session.principalId session.moduleId = true
  latest : latestGeneration s.sessions row.principalId row.moduleId = expected
  status : row.status = .pending
  unexpired : now < row.expiresAt

theorem completableSession_gives {row : LoginSession}
    (h : (completableSession session expectedGeneration now).Gives u row u') :
    Pending now session expectedGeneration u.store row ∧ u = u' := by
  simp only [completableSession, gives_bind, gives_raiseIf, gives_read, gives_orRaise, gives_pure] at h
  obtain ⟨_, _, ⟨rfl, rfl⟩, _, _, ⟨hrow, rfl⟩, _, _, ⟨hgeneration, rfl⟩, _, _, ⟨howner, rfl⟩, _, _, ⟨hlatest, rfl⟩, _, _,
    ⟨hstatus, rfl⟩, _, _, ⟨hexpiry, rfl⟩, rfl, rfl⟩ := h
  exact ⟨⟨hrow, not_not.mp hgeneration, not_not.mp howner, not_not.mp hlatest, not_not.mp hstatus, not_le.mp hexpiry⟩, rfl⟩

/-- What a completion that did not raise has checked and written. -/
theorem completeLogin_spec {x : LoginSession × Grant}
    (h : (completeLogin manager session grant expectedGeneration expected now).Gives u x u') :
    ∃ row u₁, grant.build = .ok grant ∧ grant.revision = nextGrantRevision expected ∧ grant.status = .active ∧
      grant.ofPair session.principalId session.moduleId = true ∧ Pending now session expectedGeneration u.store row ∧
      (completeGrant grant expected now).Gives u () u₁ ∧
      u' = { u₁ with store := withSessions (stillPendingAt session row expectedGeneration) .completed u₁.store } ∧
      x = ({ session with status := .completed, expiresAt := row.expiresAt }, grant) := by
  simp only [completeLogin, gives_bind, gives_ofExcept] at h
  obtain ⟨_, _, ⟨hsession, rfl⟩, _, _, ⟨hgrant, rfl⟩, _, _, hcheck, _, _, hkey, row, _, hpersisted, h⟩ := h
  obtain rfl := LoginSession.build_eq_ok hsession
  obtain rfl := Grant.build_eq_ok hgrant
  obtain ⟨hrevision, hactive, howner, rfl⟩ := checkCompletion_gives hcheck
  obtain rfl := checkGrantKey_gives hkey
  obtain ⟨hpending, rfl⟩ := completableSession_gives hpersisted
  simp only [gives_raiseIf, gives_pure] at h
  obtain ⟨_, _, hcomplete, _, _, hset, _, _, ⟨-, rfl⟩, rfl, rfl⟩ := h
  obtain ⟨-, rfl⟩ := setStatus_gives hset
  exact ⟨row, _, hgrant, hrevision, hactive, howner, hpending, hcomplete, rfl, rfl⟩

theorem completeLogin_gives {x : LoginSession × Grant}
    (h : (completeLogin manager session grant expectedGeneration expected now).Gives u x u') :
    Completing now session grant expected u.store u'.store x := by
  obtain ⟨row, u₁, -, -, hactive, howner, hpending, hcomplete, rfl, rfl⟩ := completeLogin_spec h
  obtain ⟨hsessions, hreceipts, hgranting⟩ := completeGrant_gives hcomplete
  refine ⟨⟨row, hpending.stored, hpending.status, hpending.unexpired, hpending.generation.trans hpending.latest.symm, ?_⟩,
    ?_, hgranting, hreceipts, hactive, howner, rfl, rfl, rfl, rfl⟩
  · rw [get_withSessions, hsessions, hpending.stored, Option.map_some, if_pos ?_]
    simp [stillPendingAt, savedAt, Table.key_of_get hpending.stored, hpending.owner, hpending.generation, hpending.status]
  · rw [← hsessions]
    exact sessionsKept_withSessions fun r hr => .inl (pending_of_stillPendingAt hr)

end GameLink.Authorization

import GameLink.Authorization.Effects
import GameLink.Authorization.Service

namespace GameLink.Authorization

open Foundation Work Contracts

variable {s : AuthStore} {now : Instant}

theorem completeLogin_cases (s : AuthStore) (now : Instant) (manager : Option KeyManager) (session : LoginSession)
    (grant : Grant) (expectedGeneration : ℕ) (expected : Option ℕ) :
    (∃ x s', transaction (completeLogin manager session grant expectedGeneration expected now) s = (.ok x, s') ∧
        Completing now session grant expected s s' x) ∨
      ∃ e, transaction (completeLogin manager session grant expectedGeneration expected now) s = (.error e, s) := by
  rcases transaction_cases (completeLogin manager session grant expectedGeneration expected now) s with
    ⟨x, s', h⟩ | ⟨e, h⟩
  · obtain ⟨_, hgives, -⟩ := transaction_ok.mp h
    exact .inl ⟨x, s', h, completeLogin_gives hgives⟩
  · exact .inr ⟨e, h⟩

theorem AuthCall.completes_spec {c : AuthCall} {sessionId : String} (h : c.completes s now = some sessionId) :
    ∃ manager session grant expectedGeneration expected x,
      c = .completeLogin manager session grant expectedGeneration expected ∧ session.sessionId = sessionId ∧
        Completing now session grant expected s (c.run s now) x := by
  cases c with
  | completeLogin manager session grant expectedGeneration expected =>
    rcases completeLogin_cases s now manager session grant expectedGeneration expected with ⟨x, s', ht, hc⟩ | ⟨e, ht⟩
    · unfold completes at h
      dsimp only at h
      rw [ht] at h
      refine ⟨manager, session, grant, expectedGeneration, expected, x, rfl, Option.some.inj h, ?_⟩
      unfold run
      dsimp only
      rw [ht]
      exact hc
    · unfold completes at h
      dsimp only at h
      rw [ht] at h
      cases h
  | _ => cases h

theorem run_of_not_completes {manager : Option KeyManager} {session : LoginSession} {grant : Grant}
    {expectedGeneration : ℕ} {expected : Option ℕ}
    (h : (AuthCall.completeLogin manager session grant expectedGeneration expected).completes s now = none) :
    (AuthCall.completeLogin manager session grant expectedGeneration expected).run s now = s := by
  rcases completeLogin_cases s now manager session grant expectedGeneration expected with ⟨x, s', ht, -⟩ | ⟨e, ht⟩
  · unfold AuthCall.completes at h
    dsimp only at h
    rw [ht] at h
    cases h
  · unfold AuthCall.run
    dsimp only
    rw [ht]

theorem sessionsKept_transaction {α : Type} {w : AuthWork α}
    (h : ∀ x u, w.Gives ⟨s, []⟩ x u → SessionsKept s.sessions u.store.sessions) :
    SessionsKept s.sessions (transaction w s).2.sessions :=
  transaction_store (P := fun s' : AuthStore => SessionsKept s.sessions s'.sessions) (.refl _) h

theorem grantsKept_transaction {α : Type} {w : AuthWork α}
    (h : ∀ x u, w.Gives ⟨s, []⟩ x u → GrantsKept now s.grants u.store.grants) :
    GrantsKept now s.grants (transaction w s).2.grants :=
  transaction_store (P := fun s' : AuthStore => GrantsKept now s.grants s'.grants) (.refl _ _) h

theorem grantsKept_of_eq {t t' : Table Grant.grantId} (h : t' = t) : GrantsKept now t t' := h ▸ .refl _ _

theorem AuthCall.sessionsKept (s : AuthStore) (now : Instant) (c : AuthCall) :
    SessionsKept s.sessions (c.run s now).sessions := by
  cases c with
  | currentSession sessionId =>
    exact sessionsKept_transaction fun _ _ h => (currentSession_gives h).sessionsKept
  | nextGeneration principalId moduleId expected sessionId =>
    exact sessionsKept_transaction fun _ _ h => (nextGeneration_gives h).1
  | saveSession session expected => exact sessionsKept_transaction fun _ _ h => (saveSession_gives h).1
  | supersedePending principalId moduleId generation =>
    exact sessionsKept_transaction fun _ _ h => (supersedePending_gives h).1
  | expirePendingOnRestart => exact sessionsKept_transaction fun _ _ h => (expirePendingOnRestart_gives h).1
  | currentGrant grantId => exact sessionsKept_transaction fun _ _ h => (currentGrant_gives h).sessionsKept
  | revokeGrant grant expected =>
    exact sessionsKept_transaction fun _ _ h => (revokeGrantInUnit_gives now h).1
  | revokeGrantWithInvalidation grant expected invalidation =>
    exact sessionsKept_transaction fun _ _ h => (revokeGrantWithInvalidation_gives now h).1
  | completeLogin manager session grant expectedGeneration expected =>
    exact sessionsKept_transaction fun _ _ h => (completeLogin_gives h).kept
  | resetKeys refusal operationId =>
    exact sessionsKept_transaction fun _ _ h => (resetKeys_gives now h).1

theorem AuthCall.grants_cases (s : AuthStore) (now : Instant) (c : AuthCall) :
    GrantsKept now s.grants (c.run s now).grants ∨ ∃ sessionId, c.completes s now = some sessionId := by
  cases c with
  | completeLogin manager session grant expectedGeneration expected =>
    cases h : (AuthCall.completeLogin manager session grant expectedGeneration expected).completes s now with
    | none => exact .inl (by rw [run_of_not_completes h]; exact .refl _ _)
    | some sessionId => exact .inr ⟨sessionId, rfl⟩
  | currentSession sessionId =>
    exact .inl (grantsKept_transaction fun _ _ h => (currentSession_gives h).grantsKept)
  | nextGeneration principalId moduleId expected sessionId =>
    exact .inl (grantsKept_transaction fun _ _ h => grantsKept_of_eq (nextGeneration_gives h).2)
  | saveSession session expected =>
    exact .inl (grantsKept_transaction fun _ _ h => grantsKept_of_eq (saveSession_gives h).2)
  | supersedePending principalId moduleId generation =>
    exact .inl (grantsKept_transaction fun _ _ h => grantsKept_of_eq (supersedePending_gives h).2)
  | expirePendingOnRestart =>
    exact .inl (grantsKept_transaction fun _ _ h => grantsKept_of_eq (expirePendingOnRestart_gives h).2)
  | currentGrant grantId => exact .inl (grantsKept_transaction fun _ _ h => (currentGrant_gives h).grantsKept)
  | revokeGrant grant expected => exact .inl (grantsKept_transaction fun _ _ h => (revokeGrantInUnit_gives now h).2)
  | revokeGrantWithInvalidation grant expected invalidation =>
    exact .inl (grantsKept_transaction fun _ _ h => (revokeGrantWithInvalidation_gives now h).2)
  | resetKeys refusal operationId => exact .inl (grantsKept_transaction fun _ _ h => (resetKeys_gives now h).2)

structure Framed (w w' : World) : Prop where
  store : w'.store = w.store
  clock : w'.clock = w.clock
  completions : w'.completions = w.completions

variable {w : World} {i : ℕ} {scope : Scope} {loginSession : LoginSession} {grant : Grant}

theorem framed_opened {expected attempts : ℕ} {live : Bool} {x : Except AuthFailure LoginSession} :
    Framed w (opened w i scope expected attempts live x) := by
  unfold opened
  split
  · split <;> exact ⟨rfl, rfl, rfl⟩
  · split
    · exact ⟨rfl, rfl, rfl⟩
    · split <;> exact ⟨rfl, rfl, rfl⟩
  · exact ⟨rfl, rfl, rfl⟩

theorem framed_foundSession {generation : Option ℕ} {x : Except AuthFailure (Option LoginSession)} :
    Framed w (foundSession w i scope generation now x) := by
  unfold foundSession
  split
  · exact ⟨rfl, rfl, rfl⟩
  · exact ⟨rfl, rfl, rfl⟩
  split
  · exact ⟨rfl, rfl, rfl⟩
  · split <;> exact ⟨rfl, rfl, rfl⟩

theorem framed_verified {secret : Bool} {x : Option Grant} : Framed w (verified w i scope loginSession secret x) := by
  unfold verified
  split
  · exact ⟨rfl, rfl, rfl⟩
  · split <;> exact ⟨rfl, rfl, rfl⟩

theorem framed_foundGrant {x : Except AuthFailure (Option Grant)} :
    Framed w (foundGrant w i scope loginSession grant x) := by
  unfold foundGrant
  split
  · exact ⟨rfl, rfl, rfl⟩
  · exact ⟨rfl, rfl, rfl⟩
  split
  · exact ⟨rfl, rfl, rfl⟩
  · split <;> exact ⟨rfl, rfl, rfl⟩

theorem framed_listed {existing : Option Grant} {grants : List Grant} :
    Framed w (listed w i scope loginSession grant existing grants) := by
  unfold listed
  split <;> exact ⟨rfl, rfl, rfl⟩

theorem framed_committedLogin {x : Except AuthFailure (LoginSession × Grant)} :
    Framed w (committedLogin w i scope loginSession x) := by
  unfold committedLogin
  split
  · exact ⟨rfl, rfl, rfl⟩
  · exact ⟨rfl, rfl, rfl⟩
  · split <;> exact ⟨rfl, rfl, rfl⟩

theorem framed_foundRevoked {reference : GrantReference} {x : Except AuthFailure (Option Grant)} :
    Framed w (foundRevoked w i scope reference x) := by
  unfold foundRevoked
  split
  · exact ⟨rfl, rfl, rfl⟩
  · exact ⟨rfl, rfl, rfl⟩
  split
  · exact ⟨rfl, rfl, rfl⟩
  · split <;> exact ⟨rfl, rfl, rfl⟩

theorem framed_withdrawn {x : Except AuthFailure Grant} : Framed w (withdrawn w i scope x) := by
  unfold withdrawn
  split <;> exact ⟨rfl, rfl, rfl⟩

structure Quiet (w w' : World) : Prop where
  sessions : w'.store.sessions = w.store.sessions
  grants : w'.store.grants = w.store.grants
  completions : w'.completions = w.completions
  clock : w.clock ≤ w'.clock

structure Called (c : AuthCall) (w w' : World) : Prop where
  store : w'.store = c.run w.store w.clock
  completions : w'.completions = w.completions ++ (c.completes w.store w.clock).toList
  clock : w'.clock = w.clock

theorem Framed.quiet {w' : World} (h : Framed w w') : Quiet w w' where
  sessions := by rw [h.store]
  grants := by rw [h.store]
  completions := h.completions
  clock := h.clock.ge

theorem Framed.called {c : AuthCall} {w' : World} (h : Framed (w.call c) w') : Called c w w' where
  store := h.store
  completions := h.completions
  clock := h.clock

theorem flow_calls (w : World) (i : ℕ) (step : FlowStep) :
    (w.calls (.flow i step) = none ∧ Framed w (w.flow i step)) ∨
      ∃ c, w.calls (.flow i step) = some c ∧ Framed (w.call c) (w.flow i step) := by
  unfold World.calls World.flow
  dsimp only
  cases w.flows i with
  | idle =>
    cases step with
    | completeLogin scope sessionId generation =>
      left
      dsimp only
      split <;> exact ⟨rfl, rfl, rfl, rfl⟩
    | _ => exact .inl ⟨rfl, rfl, rfl, rfl⟩
  | opening scope expected attempts =>
    cases step with
    | openSession sessionId live => exact .inr ⟨_, rfl, framed_opened⟩
    | _ => exact .inl ⟨rfl, rfl, rfl, rfl⟩
  | reading scope sessionId generation =>
    cases step with
    | readSession now => exact .inr ⟨_, rfl, framed_foundSession⟩
    | _ => exact .inl ⟨rfl, rfl, rfl, rfl⟩
  | verifying scope session =>
    cases step with
    | verify answer secret => exact .inl ⟨rfl, framed_verified⟩
    | _ => exact .inl ⟨rfl, rfl, rfl, rfl⟩
  | looking scope session grant =>
    cases step with
    | readGrant => exact .inr ⟨_, rfl, framed_foundGrant⟩
    | _ => exact .inl ⟨rfl, rfl, rfl, rfl⟩
  | listing scope session grant existing =>
    cases step with
    | list => exact .inl ⟨rfl, framed_listed⟩
    | _ => exact .inl ⟨rfl, rfl, rfl, rfl⟩
  | committing scope session grant expected =>
    cases step with
    | commit manager => exact .inr ⟨_, rfl, framed_committedLogin⟩
    | _ => exact .inl ⟨rfl, rfl, rfl, rfl⟩
  | revoking scope reference =>
    cases step with
    | readRevoked => exact .inr ⟨_, rfl, framed_foundRevoked⟩
    | _ => exact .inl ⟨rfl, rfl, rfl, rfl⟩
  | withdrawing scope current =>
    cases step with
    | withdraw invalidation => exact .inr ⟨_, rfl, framed_withdrawn⟩
    | _ => exact .inl ⟨rfl, rfl, rfl, rfl⟩
  | ended outcome => cases step <;> exact .inl ⟨rfl, rfl, rfl, rfl⟩

theorem flow_completeLogin {sessionId : String} {generation : Option ℕ} (h : w.flows i = .idle)
    (hid : boundedText sessionId = true) :
    w.flow i (.completeLogin scope sessionId generation) = w.put i (.reading scope sessionId generation) := by
  unfold World.flow
  rw [h]
  exact if_pos hid

theorem flow_readSession {sessionId : String} {generation : Option ℕ} {now : Instant}
    (h : w.flows i = .reading scope sessionId generation) : w.flow i (.readSession now) =
      foundSession (w.call (.currentSession sessionId)) i scope generation now
        (transaction (currentSession sessionId w.clock) w.store).1 := by
  unfold World.flow
  rw [h]

theorem flow_verify {answer : Option Grant} {secret : Bool} (h : w.flows i = .verifying scope loginSession) :
    w.flow i (.verify answer secret) = verified w i scope loginSession secret answer := by
  unfold World.flow
  rw [h]

theorem flow_readGrant (h : w.flows i = .looking scope loginSession grant) : w.flow i .readGrant =
      foundGrant (w.call (.currentGrant grant.grantId)) i scope loginSession grant
        (transaction (currentGrant grant.grantId w.clock) w.store).1 := by
  unfold World.flow
  rw [h]

theorem flow_list {existing : Option Grant} (h : w.flows i = .listing scope loginSession grant existing) :
    w.flow i .list =
      listed w i scope loginSession grant existing (listFor w.store scope.principalId scope.moduleId) := by
  unfold World.flow
  rw [h]

theorem flow_commit {expected : Option ℕ} {manager : Option KeyManager}
    (h : w.flows i = .committing scope loginSession grant expected) : w.flow i (.commit manager) =
      committedLogin
        (w.call (.completeLogin manager (loginSession.withStatus .completed) grant loginSession.generation expected)) i scope
        loginSession (transaction (completeLogin manager (loginSession.withStatus .completed) grant loginSession.generation
          expected w.clock) w.store).1 := by
  unfold World.flow
  rw [h]

/-- The calls of the store that a request makes, by where it stands. -/
inductive Calls : Flow → FlowStep → AuthCall → Prop
  | opening (scope : Scope) (expected attempts : ℕ) (sessionId : String) (live : Bool) :
      Calls (.opening scope expected attempts) (.openSession sessionId live)
        (.nextGeneration scope.principalId scope.moduleId expected sessionId)
  | reading (scope : Scope) (sessionId : String) (generation : Option ℕ) (now : Instant) :
      Calls (.reading scope sessionId generation) (.readSession now) (.currentSession sessionId)
  | looking (scope : Scope) (session : LoginSession) (grant : Grant) :
      Calls (.looking scope session grant) .readGrant (.currentGrant grant.grantId)
  | committing (scope : Scope) (session : LoginSession) (grant : Grant) (expected : Option ℕ)
      (manager : Option KeyManager) :
      Calls (.committing scope session grant expected) (.commit manager)
        (.completeLogin manager (session.withStatus .completed) grant session.generation expected)
  | revoking (scope : Scope) (reference : GrantReference) :
      Calls (.revoking scope reference) .readRevoked (.currentGrant reference.grantId)
  | withdrawing (scope : Scope) (current : Grant) (invalidation : Option AuthFailure) :
      Calls (.withdrawing scope current) (.withdraw invalidation)
        (.revokeGrantWithInvalidation current current.revision invalidation)

theorem calls_spec {step : FlowStep} {c : AuthCall} (h : w.calls (.flow i step) = some c) :
    Calls (w.flows i) step c := by
  unfold World.calls at h
  dsimp only at h
  cases hs : w.flows i with
  | opening scope expected attempts =>
    rw [hs] at h
    cases step with
    | openSession sessionId live => cases h; exact .opening ..
    | _ => cases h
  | reading scope sessionId generation =>
    rw [hs] at h
    cases step with
    | readSession now => cases h; exact .reading ..
    | _ => cases h
  | looking scope session grant =>
    rw [hs] at h
    cases step with
    | readGrant => cases h; exact .looking ..
    | _ => cases h
  | committing scope session grant expected =>
    rw [hs] at h
    cases step with
    | commit manager => cases h; exact .committing ..
    | _ => cases h
  | revoking scope reference =>
    rw [hs] at h
    cases step with
    | readRevoked => cases h; exact .revoking ..
    | _ => cases h
  | withdrawing scope current =>
    rw [hs] at h
    cases step with
    | withdraw invalidation => cases h; exact .withdrawing ..
    | _ => cases h
  | _ =>
    rw [hs] at h
    cases step <;> cases h

theorem step_calls (w : World) (a : Action) :
    (w.calls a = none ∧ Quiet w (w.step a)) ∨ ∃ c, w.calls a = some c ∧ Called c w (w.step a) := by
  cases a with
  | tick now => exact .inl ⟨rfl, rfl, rfl, rfl, le_max_left _ _⟩
  | call c => exact .inr ⟨c, rfl, rfl, rfl, rfl⟩
  | keys receipts masterKey keyOperations => exact .inl ⟨rfl, rfl, rfl, rfl, le_rfl⟩
  | flow i step =>
    cases flow_calls w i step with
    | inl h => exact .inl ⟨h.1, h.2.quiet⟩
    | inr h =>
      obtain ⟨c, hcalls, hframed⟩ := h
      exact .inr ⟨c, hcalls, hframed.called⟩
  | restart => exact .inl ⟨rfl, rfl, rfl, rfl, le_rfl⟩

end GameLink.Authorization

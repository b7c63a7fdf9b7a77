import GameLink.Authorization.Grants

namespace GameLink.Authorization

open Foundation Contracts

def World.completing (w : World) : Action → Option String
  | .call (.completeLogin _ session _ _ _) => some session.sessionId
  | .flow i _ => (w.flows i).sessionId
  | _ => none

def Settled (w : World) (sessionId : String) : Prop :=
  ∃ row, w.store.sessions.get sessionId = some row ∧ (row.status ≠ .pending ∨ row.expiresAt ≤ w.clock ∨
    ∃ k later, w.store.sessions.get k = some later ∧ later.ofPair row.principalId row.moduleId = true ∧
      row.generation < later.generation)

def Completable (w : World) (sessionId : String) (row : LoginSession) : Prop :=
  w.store.sessions.get sessionId = some row ∧ row.status = .pending ∧ w.clock < row.expiresAt ∧
    ∀ k later, w.store.sessions.get k = some later → later.ofPair row.principalId row.moduleId = true →
      later.generation ≤ row.generation

def Flow.Owned : Flow → Prop
  | .verifying scope session => session.ofPair scope.principalId scope.moduleId = true
  | .looking scope session _ => session.ofPair scope.principalId scope.moduleId = true
  | .listing scope session _ _ => session.ofPair scope.principalId scope.moduleId = true
  | .committing scope session _ _ => session.ofPair scope.principalId scope.moduleId = true
  | _ => True

variable {w w' : World} {a : Action} {as : List Action} {i : ℕ} {scope : Scope} {sessionId : String}

theorem LoginSession.ofPair_iff {l : LoginSession} {principalId moduleId : String} :
    l.ofPair principalId moduleId = true ↔ l.principalId = principalId ∧ l.moduleId = moduleId := by
  simp [LoginSession.ofPair]

theorem sessions_step (w : World) (a : Action) :
    SessionsKept w.store.sessions (w.step a).store.sessions ∧ w.clock ≤ (w.step a).clock := by
  rcases step_calls w a with ⟨-, hquiet⟩ | ⟨c, -, hcalled⟩
  · rw [hquiet.sessions]
    exact ⟨.refl _, hquiet.clock⟩
  · rw [hcalled.store, hcalled.clock]
    exact ⟨c.sessionsKept _ _, le_rfl⟩

theorem completions_step (w : World) (a : Action) :
    (w.step a).completions = w.completions ++ (w.completes a).toList := by
  rcases step_calls w a with ⟨hcalls, hquiet⟩ | ⟨c, hcalls, hcalled⟩
  · rw [hquiet.completions, World.completes, hcalls]
    exact (List.append_nil _).symm
  · rw [hcalled.completions, World.completes, hcalls]
    rfl

theorem completes_spec (h : w.completes a = some sessionId) :
    ∃ row, Completable w sessionId row ∧ (w.step a).store.sessions.get sessionId = some (row.withStatus .completed) := by
  rcases step_calls w a with ⟨hcalls, -⟩ | ⟨c, hcalls, hcalled⟩
  · rw [World.completes, hcalls] at h
    cases h
  rw [World.completes, hcalls, Option.bind_some] at h
  obtain ⟨manager, session, grant, generation, expected, x, -, rfl, hc⟩ := AuthCall.completes_spec h
  obtain ⟨row, hrow, hpending, hexpiry, hlatest, hafter⟩ := hc.completed
  refine ⟨row, ⟨hrow, hpending, hexpiry, ?_⟩, by rw [hcalled.store]; exact hafter⟩
  intro k later hlater hpair
  rw [LoginSession.ofPair_iff] at hpair
  rw [hlatest, ← hpair.1, ← hpair.2]
  exact le_latestGeneration hlater

section

variable (h : Settled w sessionId)
include h

theorem Settled.step (a : Action) : Settled (w.step a) sessionId := by
  obtain ⟨hkept, hclock⟩ := sessions_step w a
  obtain ⟨row, hrow, hreason⟩ := h
  obtain ⟨status, hget, hstatus⟩ := hkept _ row hrow
  refine ⟨row.withStatus status, hget, ?_⟩
  rcases hreason with hdone | hexpired | ⟨k, later, hlater, hpair, hlt⟩
  · left
    change status ≠ .pending
    rw [hstatus hdone]
    exact hdone
  · exact .inr (.inl (hexpired.trans hclock))
  · obtain ⟨status', hget', -⟩ := hkept _ later hlater
    exact .inr (.inr ⟨k, later.withStatus status', hget', hpair, hlt⟩)

theorem Settled.trace (ht : authorization.Trace w as w') : Settled w' sessionId :=
  ht.invariant (P := fun w => Settled w sessionId) (fun _ a hs _ => hs.step a) h

theorem Settled.not_completes (a : Action) : w.completes a ≠ some sessionId := by
  intro hcompletes
  obtain ⟨row, ⟨hrow, hpending, hexpiry, hlatest⟩, -⟩ := completes_spec hcompletes
  obtain ⟨row', hrow', hreason⟩ := h
  obtain rfl := Option.some.inj (hrow.symm.trans hrow')
  rcases hreason with hdone | hexpired | ⟨k, later, hlater, hpair, hlt⟩
  · exact hdone hpending
  · exact absurd hexpiry (not_lt.mpr hexpired)
  · exact absurd (hlatest k later hlater hpair) (not_le.mpr hlt)

end

theorem noted_currentSession (s : AuthStore) (now : Instant) (sessionId : String) :
    Noted now s ((AuthCall.currentSession sessionId).run s now) :=
  transaction_store (P := Noted now s) (.refl now s) fun _ _ h => currentSession_gives h

theorem noted_currentGrant (s : AuthStore) (now : Instant) (grantId : String) :
    Noted now s ((AuthCall.currentGrant grantId).run s now) :=
  transaction_store (P := Noted now s) (.refl now s) fun _ _ h => currentGrant_gives h

variable {now : Instant} {s s' : AuthStore}

theorem noted_of_eq (h : s' = s) : Noted now s s' := h ▸ .refl now s

theorem completing_cases (h : w.completing a = some sessionId) :
    w.completes a = some sessionId ∨ w.completes a = none ∧ Noted w.clock w.store (w.step a).store := by
  have hcompletion : ∀ manager session grant generation expected,
      (AuthCall.completeLogin manager session grant generation expected).completes w.store w.clock = some
          session.sessionId ∨
        (AuthCall.completeLogin manager session grant generation expected).completes w.store w.clock = none ∧
          (AuthCall.completeLogin manager session grant generation expected).run w.store w.clock = w.store := by
    intro manager session grant generation expected
    cases hc : (AuthCall.completeLogin manager session grant generation expected).completes w.store w.clock with
    | none => exact .inr ⟨rfl, run_of_not_completes hc⟩
    | some k =>
      obtain ⟨_, _, _, _, _, _, hcall, hk, -⟩ := AuthCall.completes_spec hc
      cases hcall
      exact .inl (by rw [hk])
  cases a with
  | call c =>
    cases c with
    | completeLogin manager session grant generation expected =>
      obtain rfl := Option.some.inj h
      cases hcompletion manager session grant generation expected with
      | inl hc => exact .inl hc
      | inr hc => exact .inr ⟨hc.1, noted_of_eq hc.2⟩
    | _ => cases h
  | flow i step =>
    change (w.flows i).sessionId = some sessionId at h
    rcases flow_calls w i step with ⟨hcalls, hframed⟩ | ⟨c, hcalls, hframed⟩
    · refine .inr ⟨by rw [World.completes, hcalls]; rfl, ?_⟩
      exact noted_of_eq hframed.store
    change w.completes (.flow i step) = _ ∨ w.completes (.flow i step) = none ∧ Noted _ _ (w.flow i step).store
    rw [World.completes, hcalls, Option.bind_some, hframed.store]
    have hflow := calls_spec hcalls
    generalize w.flows i = flow at h hflow
    cases hflow with
    | reading => exact .inr ⟨rfl, noted_currentSession ..⟩
    | looking => exact .inr ⟨rfl, noted_currentGrant ..⟩
    | committing scope session grant expected manager =>
      obtain rfl := Option.some.inj h
      cases hcompletion manager (session.withStatus .completed) grant session.generation expected with
      | inl hc => exact .inl hc
      | inr hc => exact .inr ⟨hc.1, noted_of_eq hc.2⟩
    | _ => cases h
  | _ => cases h

def OwnedIn (w : World) : Prop := ∀ i, (w.flows i).Owned

theorem OwnedIn.put {flow : Flow} (h : OwnedIn w) (hflow : flow.Owned) : OwnedIn (w.put i flow) := by
  intro j
  by_cases hj : j = i
  · subst hj
    change (Function.update w.flows j flow j).Owned
    rw [Function.update_self]
    exact hflow
  change (Function.update w.flows i flow j).Owned
  rw [Function.update_of_ne hj]
  exact h j

theorem OwnedIn.fail {error : AuthorizationError} (h : OwnedIn w) : OwnedIn (w.fail i error) := h.put trivial

theorem owned_foundSession {generation : Option ℕ} {x : Except AuthFailure (Option LoginSession)}
    (h : OwnedIn w) : OwnedIn (foundSession w i scope generation now x) := by
  unfold foundSession
  split
  · exact h.fail
  · exact h.fail
  split
  · exact h.fail
  rename_i haccepts
  split
  · simp only [accepts, Bool.not_eq_true', Bool.and_eq_true, Bool.not_eq_false] at haccepts
    exact h.put haccepts.1.1.1.1.1
  · exact h.fail

variable {session : LoginSession}

theorem owned_verified {secret : Bool} {x : Option Grant} (h : OwnedIn w)
    (hs : session.ofPair scope.principalId scope.moduleId = true) : OwnedIn (verified w i scope session secret x) := by
  unfold verified
  split
  · exact h.fail
  split
  · exact h.put hs
  · exact h.fail

variable {grant : Grant}

theorem owned_foundGrant {x : Except AuthFailure (Option Grant)}
    (h : OwnedIn w) (hs : session.ofPair scope.principalId scope.moduleId = true) :
    OwnedIn (foundGrant w i scope session grant x) := by
  unfold foundGrant
  split
  · exact h.fail
  · exact h.put hs
  split
  · exact h.fail
  · split <;> exact h.put hs

theorem owned_listed {existing : Option Grant} {grants : List Grant}
    (h : OwnedIn w) (hs : session.ofPair scope.principalId scope.moduleId = true) :
    OwnedIn (listed w i scope session grant existing grants) := by
  unfold listed
  split
  · exact h.fail
  · exact h.put hs

theorem owned_opened {expected attempts : ℕ} {live : Bool} {x : Except AuthFailure LoginSession} (h : OwnedIn w) :
    OwnedIn (opened w i scope expected attempts live x) := by
  unfold opened
  split
  · split
    · exact OwnedIn.put h trivial
    · exact h.fail
  · split
    · exact h.fail
    split
    · exact h.fail
    · exact h.put trivial
  · exact h.fail

theorem owned_committedLogin {x : Except AuthFailure (LoginSession × Grant)}
    (h : OwnedIn w) : OwnedIn (committedLogin w i scope session x) := by
  unfold committedLogin
  split
  · exact h.fail
  · exact h.fail
  split
  · exact OwnedIn.put h trivial
  · exact h.fail

theorem owned_foundRevoked {reference : GrantReference} {x : Except AuthFailure (Option Grant)} (h : OwnedIn w) :
    OwnedIn (foundRevoked w i scope reference x) := by
  unfold foundRevoked
  split
  · exact h.fail
  · exact h.fail
  split
  · exact h.fail
  split
  · exact h.fail
  · exact h.put trivial

theorem owned_withdrawn {x : Except AuthFailure Grant} (h : OwnedIn w) : OwnedIn (withdrawn w i scope x) := by
  unfold withdrawn
  split
  · exact OwnedIn.put h trivial
  · exact h.fail
  · exact h.fail

theorem owned_flow (h : OwnedIn w) (step : FlowStep) : OwnedIn (w.flow i step) := by
  have howned := h i
  unfold World.flow
  split
  · exact h.put trivial
  · exact owned_opened (w := w.call _) h
  · split
    · exact h.put trivial
    · exact h.fail
  · exact owned_foundSession (w := w.call _) h
  · rename_i hflow
    rw [hflow] at howned
    exact owned_verified h howned
  · rename_i hflow
    rw [hflow] at howned
    exact owned_foundGrant (w := w.call _) h howned
  · rename_i hflow
    rw [hflow] at howned
    exact owned_listed h howned
  · exact owned_committedLogin (w := w.call _) h
  · exact h.put trivial
  · exact owned_foundRevoked (w := w.call _) h
  · exact owned_withdrawn (w := w.call _) h
  · exact h
  · exact h
  · exact h.fail
  · exact h

theorem owned_of_reachable (h : authorization.Reachable w) : OwnedIn w := by
  refine h.invariant (P := OwnedIn) ?_ ?_
  · intro w hstart i
    rw [hstart.2.2.2.1 i]
    trivial
  intro w a hw _
  cases a with
  | flow i step => exact owned_flow hw step
  | restart => exact fun _ => trivial
  | _ => exact hw

theorem Completing.holds {expected : Option ℕ}
    {x : LoginSession × Grant} (h : Completing now (session.withStatus .completed) grant expected s s' x)
    (howned : session.ofPair scope.principalId scope.moduleId = true) : completionHolds scope session x = true := by
  obtain ⟨hgrant, hid, hgeneration, hstatus⟩ := h.answered
  have howner := h.owner
  change grant.ofPair session.principalId session.moduleId = true at howner
  rw [LoginSession.ofPair_iff] at howned
  rw [howned.1, howned.2, ← hgrant] at howner
  have hactive := h.active
  rw [← hgrant] at hactive
  simp [completionHolds, hid, hgeneration, hstatus, hactive, howner, LoginSession.withStatus]

theorem completed_flow (h : OwnedIn w) {step : FlowStep} (hc : w.completes (.flow i step) = some sessionId) :
    ∃ grant, (w.step (.flow i step)).flows i = .ended (.completed grant) := by
  have howned := h i
  rcases flow_calls w i step with ⟨hcalls, -⟩ | ⟨c, hcalls, -⟩
  · rw [World.completes, hcalls] at hc
    cases hc
  rw [World.completes, hcalls, Option.bind_some] at hc
  obtain ⟨manager, session, grant, generation, expected, x, rfl, -, hcompleting⟩ := AuthCall.completes_spec hc
  have hflow := calls_spec hcalls
  generalize hs : w.flows i = flow at howned hflow
  cases hflow with
  | committing scope loginSession =>
    rcases completeLogin_cases w.store w.clock manager (loginSession.withStatus .completed) grant loginSession.generation
      expected with ⟨x, s', ht, hx⟩ | ⟨e, ht⟩
    · have hholds : completionHolds scope loginSession x = true := hx.holds howned
      refine ⟨⟨x.2.grantId, x.2.revision⟩, ?_⟩
      change (w.flow i (.commit manager)).flows i = _
      rw [flow_commit hs, ht]
      simp only [committedLogin, hholds, if_true, World.put, Function.update_self]
    · unfold AuthCall.completes at hc
      dsimp only at hc
      rw [ht] at hc
      cases hc

theorem completing_of_completes (h : w.completes a = some sessionId) : w.completing a = some sessionId := by
  rcases step_calls w a with ⟨hcalls, -⟩ | ⟨c, hcalls, -⟩
  · rw [World.completes, hcalls] at h
    cases h
  rw [World.completes, hcalls, Option.bind_some] at h
  obtain ⟨manager, session, grant, generation, expected, x, rfl, hid, -⟩ := AuthCall.completes_spec h
  cases a with
  | call c =>
    obtain rfl := Option.some.inj hcalls
    exact congrArg some hid
  | flow i step =>
    change (w.flows i).sessionId = some sessionId
    have hflow := calls_spec hcalls
    generalize w.flows i = flow at hflow
    cases hflow
    exact congrArg some hid
  | _ => cases hcalls

theorem completions_nodup (h : authorization.Reachable w) :
    w.completions.Nodup ∧ ∀ k ∈ w.completions, Settled w k := by
  refine h.invariant (P := fun w => w.completions.Nodup ∧ ∀ k ∈ w.completions, Settled w k) ?_ ?_
  · intro w hstart
    rw [hstart.2.2.2.2]
    exact ⟨List.nodup_nil, fun _ h => nomatch h⟩
  intro w a hw _
  change (w.step a).completions.Nodup ∧ ∀ k ∈ (w.step a).completions, Settled (w.step a) k
  rw [completions_step]
  cases hc : w.completes a with
  | none => simpa using ⟨hw.1, fun k hk => (hw.2 k hk).step a⟩
  | some sessionId =>
    rw [Option.toList_some]
    refine ⟨?_, ?_⟩
    · rw [List.nodup_append_comm, List.singleton_append, List.nodup_cons]
      exact ⟨fun hk => (hw.2 sessionId hk).not_completes a hc, hw.1⟩
    intro k hk
    rcases List.mem_append.mp hk with hold | hnew
    · exact (hw.2 k hold).step a
    obtain rfl := List.mem_singleton.mp hnew
    obtain ⟨row, -, hrow⟩ := completes_spec hc
    refine ⟨row.withStatus .completed, hrow, .inl ?_⟩
    intro hpending
    cases hpending

/-- A login session completes at most once, while it is pending, unexpired and the latest. -/
theorem login_session_authorizes_at_most_once (h : authorization.Reachable w) : w.completions.Nodup ∧
    (∀ a sessionId, w.completes a = some sessionId → w.completing a = some sessionId ∧ ∃ row,
      Completable w sessionId row ∧ (w.step a).store.sessions.get sessionId = some (row.withStatus .completed)) ∧
    (∀ sessionId as w', Settled w sessionId → authorization.Trace w as w' → ∀ a, w'.completing a = some sessionId →
      w'.completes a = none ∧ Noted w'.clock w'.store (w'.step a).store) ∧
    ∀ a sessionId, w.completing a = some sessionId → (w.completes a = some sessionId ∧
        ∀ i step, a = .flow i step → ∃ grant, (w.step a).flows i = .ended (.completed grant)) ∨
      (w.completes a = none ∧ Noted w.clock w.store (w.step a).store) := by
  refine ⟨(completions_nodup h).1, ?_, ?_, ?_⟩
  · intro a sessionId hc
    exact ⟨completing_of_completes hc, completes_spec hc⟩
  · intro sessionId as w' hsettled ht a ha
    cases completing_cases ha with
    | inl hc => exact absurd hc ((hsettled.trace ht).not_completes a)
    | inr hnoted => exact hnoted
  intro a sessionId ha
  cases completing_cases ha with
  | inl hc =>
    refine .inl ⟨hc, ?_⟩
    rintro i step rfl
    exact completed_flow (owned_of_reachable h) hc
  | inr hnoted => exact .inr hnoted

namespace Sample

def authorizedTwice : {w : World // w.completions = ["login_1", "login_2"]} := ⟨run returning, by decide +kernel⟩

end Sample

open Sample in
theorem login_session_authorizes_at_most_once_returning :
    (run returning).completions = ["login_1", "login_2"] ∧ (run returning).completions.Nodup :=
  ⟨authorizedTwice.property, (login_session_authorizes_at_most_once (reachable returning)).1⟩

namespace Sample

def late : List Action :=
  [.flow 0 (.beginLogin Sample.scope), .flow 0 (.openSession "login_1" true),
   .flow 1 (.completeLogin Sample.scope "login_1" none), .tick 600000000]

end Sample

open Sample in
theorem raising_completion_writes : ¬ ∀ w i step error, authorization.Reachable w → (w.flows i).sessionId ≠ none →
    (w.step (.flow i step)).flows i = .ended (.raised error) →
    (w.step (.flow i step)).store.sessions = w.store.sessions ∧ (w.step (.flow i step)).store.grants = w.store.grants ∧
      (w.step (.flow i step)).store.receipts = w.store.receipts := by
  intro h
  have hrow : (((run late).step (.flow 1 (.readSession 600000000))).store.sessions.get "login_1").map
      LoginSession.status = some .expired ∧
      ((run late).store.sessions.get "login_1").map LoginSession.status = some .pending := by decide +kernel
  have hraised : ((run late).step (.flow 1 (.readSession 600000000))).flows 1 = .ended (.raised .loginSessionExpired) := by
    rfl
  obtain ⟨hsame, -⟩ := h (run late) 1 (.readSession 600000000) .loginSessionExpired (reachable late) (nofun) hraised
  rw [hsame, hrow.2] at hrow
  cases hrow.1

end GameLink.Authorization

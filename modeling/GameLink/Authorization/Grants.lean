import GameLink.Authorization.Steps

namespace GameLink.Authorization

open Foundation Contracts

def OneLive (now : Instant) (t : Table Grant.grantId) : Prop :=
  ∀ k k' g g', t.get k = some g → t.get k' = some g' → g.live now = true → g'.live now = true →
    g'.principalId = g.principalId → g'.moduleId = g.moduleId → k' = k

def AuthCall.revivesBeside (s : AuthStore) (now : Instant) : AuthCall → Bool
  | completeLogin _ _ grant _ (some _) =>
    ((s.grants.get grant.grantId).any fun current => current.status = .revoked) &&
      s.grants.rows.any fun other => other.grantId ≠ grant.grantId &&
        other.ofPair grant.principalId grant.moduleId && other.live now
  | _ => false

def spares (w : World) (a : Action) : Bool := (w.calls a).all fun c => !c.revivesBeside w.store w.clock

def guarded : System World Action where
  start := authorization.start
  allowed w a := spares w a = true
  next := World.step

variable {now : Instant} {t t' : Table Grant.grantId} {grant : Grant} {expected : Option ℕ}

theorem Grant.live_earlier {now now' : Instant} {g : Grant} (hle : now ≤ now') (h : g.live now' = true) :
    g.live now = true := by
  simp only [Grant.live, Bool.and_eq_true] at h ⊢
  refine ⟨h.1, ?_⟩
  cases he : g.expiresAt with
  | none => rfl
  | some e =>
    have hlater := h.2
    simp only [he, Option.all_some, decide_eq_true_eq] at hlater ⊢
    exact lt_of_le_of_lt hle hlater

theorem OneLive.later {now' : Instant} (h : OneLive now t) (hle : now ≤ now') : OneLive now' t :=
  fun k k' g g' hg hg' hlive hlive' => h k k' g g' hg hg' (Grant.live_earlier hle hlive)
    (Grant.live_earlier hle hlive')

theorem OneLive.kept (h : OneLive now t) (hkept : GrantsKept now t t') : OneLive now t' := by
  intro k k' g g' hg hg' hlive hlive' hprincipal hmodule
  obtain ⟨o, ho, holive, hop, hom⟩ := hkept k g hg hlive
  obtain ⟨o', ho', holive', hop', hom'⟩ := hkept k' g' hg' hlive'
  exact h k k' o o' ho ho' holive holive' (hop'.symm.trans (hprincipal.trans hop)) (hom'.symm.trans (hmodule.trans hom))

theorem Grant.ofPair_iff {g : Grant} {principalId moduleId : String} :
    g.ofPair principalId moduleId = true ↔ g.principalId = principalId ∧ g.moduleId = moduleId := by
  simp [Grant.ofPair]

theorem Granting.alone (h : Granting now grant expected t t') (hone : OneLive now t)
    (hspares : expected ≠ none → (∃ current, t.get grant.grantId = some current ∧ current.status = .revoked) →
      ∀ k other, k ≠ grant.grantId → t.get k = some other → other.ofPair grant.principalId grant.moduleId = true →
        other.live now = false)
    {k : String} {other : Grant} (hk : k ≠ grant.grantId) (hother : t.get k = some other)
    (howner : other.ofPair grant.principalId grant.moduleId = true) : other.live now = false := by
  cases he : expected with
  | none => exact h.fresh he k other hother howner
  | some revision =>
    obtain ⟨current, hcurrent, hpair, hstate⟩ := h.rotated revision he
    cases hstate with
    | inr hrevoked =>
      exact hspares (by simp [he]) ⟨current, hcurrent, hrevoked⟩ k other hk hother howner
    | inl hlive =>
      by_contra hne
      rw [Bool.not_eq_false] at hne
      rw [Grant.ofPair_iff] at hpair howner
      exact hk (hone grant.grantId k current other hcurrent hother hlive hne (howner.1.trans hpair.1.symm)
        (howner.2.trans hpair.2.symm))

theorem OneLive.granted (h : OneLive now t) (hg : Granting now grant expected t t')
    (halone : ∀ k other, k ≠ grant.grantId → t.get k = some other →
      other.ofPair grant.principalId grant.moduleId = true → other.live now = false) : OneLive now t' := by
  intro k k' g g' hget hget' hlive hlive' hprincipal hmodule
  by_cases hk : k = grant.grantId
  · by_cases hk' : k' = grant.grantId
    · rw [hk, hk']
    -- The other grant would have been live beside the one that was written.
    rw [hg.others k' hk'] at hget'
    rw [hk, hg.written] at hget
    obtain rfl := Option.some.inj hget
    rw [halone k' g' hk' hget' (Grant.ofPair_iff.mpr ⟨hprincipal, hmodule⟩)] at hlive'
    cases hlive'
  · rw [hg.others k hk] at hget
    by_cases hk' : k' = grant.grantId
    · rw [hk', hg.written] at hget'
      obtain rfl := Option.some.inj hget'
      rw [halone k g hk hget (Grant.ofPair_iff.mpr ⟨hprincipal.symm, hmodule.symm⟩)] at hlive
      cases hlive
    · rw [hg.others k' hk'] at hget'
      exact h k k' g g' hget hget' hlive hlive' hprincipal hmodule

theorem OneLive.call {s : AuthStore} {c : AuthCall} (h : OneLive now s.grants)
    (hspares : c.revivesBeside s now = false) : OneLive now (c.run s now).grants := by
  cases c.grants_cases s now with
  | inl hkept => exact h.kept hkept
  | inr hcompletes =>
    obtain ⟨sessionId, hcompletes⟩ := hcompletes
    obtain ⟨manager, session, grant, generation, expected, x, rfl, -, hc⟩ := AuthCall.completes_spec hcompletes
    refine h.granted hc.granting ?_
    intro k other hk hother howner
    refine hc.granting.alone h ?_ hk hother howner
    rintro hexpected ⟨current, hcurrent, hrevoked⟩ k other hk hother howner
    cases expected with
    | none => exact absurd rfl hexpected
    | some revision =>
      by_contra hne
      rw [Bool.not_eq_false] at hne
      simp only [AuthCall.revivesBeside, hcurrent, Option.any_some, hrevoked, decide_true, Bool.true_and,
        List.any_eq_false] at hspares
      refine hspares other (Table.mem_of_get hother) ?_
      rw [howner, hne, Table.key_of_get hother]
      simpa using hk

/-- As long as no completion re-authorizes a revoked grant beside a live one, every owner and module has at most one
grant that is active and unexpired. -/
theorem one_live_grant {w : World} (h : guarded.Reachable w) : OneLive w.clock w.store.grants := by
  refine h.invariant (P := fun w => OneLive w.clock w.store.grants) ?_ ?_
  · intro w hstart k k' g g' hg
    rw [hstart.1] at hg
    cases hg
  intro w a hone hspares
  change OneLive (w.step a).clock (w.step a).store.grants
  rcases step_calls w a with ⟨-, hquiet⟩ | ⟨c, hcalls, hcalled⟩
  · rw [hquiet.grants]
    exact hone.later hquiet.clock
  rw [hcalled.store, hcalled.clock]
  apply hone.call
  change spares w a = true at hspares
  simpa [spares, hcalls] using hspares

namespace Sample

def scope : Scope := ⟨"principal", "ff14/core", "qq", "room"⟩

def secretRef (token operationId : String) : SecretRef := ⟨token, "principal", "ff14/core", "cookie", operationId⟩

def exchanged (grantId accountId token operationId : String) : Grant :=
  ⟨grantId, 1, "principal", "ff14/core", accountId, ["profile"], some (secretRef token operationId), .active, none⟩

def first : Grant := exchanged "grant_1" "account_1" "secret_1" "login_1"

def second : Grant := exchanged "grant_2" "account_2" "secret_2" "login_2"

def receipts : Table SecretReceipt.token :=
  ⟨[⟨secretRef "secret_1" "login_1", 1, .active⟩, ⟨secretRef "secret_2" "login_2", 1, .active⟩], by decide +kernel⟩

def secrets : Action := .keys receipts (some ⟨1, 1, .managed⟩) .empty

def manager : KeyManager := ⟨some 1, some 1⟩

def login (i : ℕ) (sessionId : String) (grant : Grant) : List Action :=
  [.flow i (.beginLogin scope), .flow i (.openSession sessionId true), .flow (i + 1) (.completeLogin scope sessionId none),
   .flow (i + 1) (.readSession 0), .flow (i + 1) (.verify (some grant) true), .flow (i + 1) .readGrant,
   .flow (i + 1) .list, .flow (i + 1) (.commit (some manager))]

def revocation (i : ℕ) (grant : GrantReference) : List Action :=
  [.flow i (.revoke scope grant), .flow i .readRevoked, .flow i (.withdraw none)]

def initial : World := ⟨emptyStore, 0, .empty, fun _ => .idle, []⟩

def run (actions : List Action) : World := actions.foldl World.step initial

def returning : List Action :=
  secrets :: login 0 "login_1" first ++ revocation 2 ⟨"grant_1", 1⟩ ++ login 3 "login_2" first

def beside : List Action :=
  secrets :: login 0 "login_1" first ++ revocation 2 ⟨"grant_1", 1⟩ ++ login 3 "login_2" second ++
    login 5 "login_3" first

theorem starts : authorization.start initial := ⟨rfl, rfl, rfl, fun _ => rfl, rfl⟩

theorem reachable (actions : List Action) : authorization.Reachable (run actions) :=
  System.Reachable.trace (.of_start starts) (.of_always (fun _ _ _ => trivial) initial)

end Sample

open Sample in
theorem two_live_grants : ¬ ∀ w, authorization.Reachable w → OneLive w.clock w.store.grants := by
  intro h
  have hgrants : (run beside).store.grants.get "grant_1" = some { first with revision := 3 } ∧
      (run beside).store.grants.get "grant_2" = some second ∧ (run beside).clock = 0 := by decide +kernel
  obtain ⟨hfirst, hsecond, hclock⟩ := hgrants
  have hone := h _ (reachable beside)
  rw [hclock] at hone
  have hsame := hone "grant_1" "grant_2" _ _ hfirst hsecond rfl rfl rfl rfl
  revert hsame
  decide

open Sample in
theorem one_live_grant_returning : (run returning).store.grants.get "grant_1" = some { first with revision := 3 } ∧
      OneLive (run returning).clock (run returning).store.grants := by
  have hspared : System.checked World.step spares initial returning = true ∧
      (run returning).store.grants.get "grant_1" = some { first with revision := 3 } := by decide +kernel
  refine ⟨hspared.2, one_live_grant ?_⟩
  exact System.Reachable.trace (.of_start starts) (.of_checked (S := guarded) (fun _ _ hc => hc) hspared.1)

end GameLink.Authorization

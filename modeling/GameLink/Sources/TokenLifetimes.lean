import GameLink.Sources.TokenRuns

namespace GameLink.Sources.Tokens

open Foundation

def Stage.token : Stage → Option Token
  | .rechecking t => some t
  | .rechecked t _ => some t
  | .reopening t _ => some t
  | .reopened t _ _ => some t
  | _ => none

def World.gets (w : World) (i : ℕ) (t : Token) : Prop := ∃ stage, w.calls i = .inside stage ∧ stage.token = some t

structure Plain (w w' : World) : Prop where
  returned : w'.returned = w.returned
  kept : ∀ t, w'.state.accessToken = some t → w.state.accessToken = some t ∧ w'.state.expiresAt = w.state.expiresAt
  gets : ∀ i t, w'.gets i t → w.gets i t ∨ 0 < t.expiresIn
  closed : w.isClosed = true → w'.isClosed = true

section Plain

variable {w w' w'' : World} {i : ℕ} {b : Binding} {stage : Stage}

theorem Plain.refl (w : World) : Plain w w := ⟨rfl, fun _ ht => ⟨ht, rfl⟩, fun _ _ h => Or.inl h, fun hc => hc⟩

theorem Plain.trans (h : Plain w w') (h' : Plain w' w'') : Plain w w'' where
  returned := h'.returned.trans h.returned
  kept t ht := by
    obtain ⟨ht', hexpires'⟩ := h'.kept t ht
    obtain ⟨ht, hexpires⟩ := h.kept t ht'
    exact ⟨ht, hexpires'.trans hexpires⟩
  gets i t hg := by
    obtain hg' | hpos := h'.gets i t hg
    · exact h.gets i t hg'
    · exact Or.inr hpos
  closed hc := h'.closed (h.closed hc)

theorem Plain.setCall {call : Call} (hcall : ∀ stage t, call = .inside stage → stage.token = some t → w.gets i t ∨ 0 < t.expiresIn) :
    Plain w (w.setCall i call) := by
  refine ⟨rfl, fun _ ht => ⟨ht, rfl⟩, ?_, fun hc => hc⟩
  rintro j t ⟨stage, hj, htoken⟩
  rw [calls_setCall] at hj
  split at hj
  · rename_i heq
    rw [heq]
    exact hcall stage t hj htoken
  · exact Or.inl ⟨stage, hj, htoken⟩

theorem Plain.goOn (hs : ∀ t, stage.token = some t → w.gets i t ∨ 0 < t.expiresIn) : Plain w (w.goOn i stage) := by
  apply Plain.setCall
  intro stage' t heq htoken
  cases heq
  exact hs t htoken

theorem Plain.quiet (hreturned : w'.returned = w.returned) (hstate : w'.state = w.state) (hcalls : w'.calls = w.calls)
    (hclosed : w.isClosed = true → w'.isClosed = true) : Plain w w' := by
  refine ⟨hreturned, ?_, ?_, hclosed⟩
  · rw [hstate]
    exact fun _ ht => ⟨ht, rfl⟩
  rintro i t ⟨stage, hi, htoken⟩
  rw [hcalls] at hi
  exact Or.inl ⟨stage, hi, htoken⟩

theorem Plain.state {s : TokenState} (hs : s.accessToken = none ∨ s.accessToken = w.state.accessToken ∧ s.expiresAt = w.state.expiresAt) :
    Plain w { w with state := s } := by
  refine ⟨rfl, ?_, fun _ _ h => Or.inl h, fun hc => hc⟩
  intro t ht
  obtain hnone | ⟨hsame, hexpires⟩ := hs
  · exact absurd (hnone.symm.trans ht) (by rintro ⟨⟩)
  · exact ⟨hsame.symm.trans ht, hexpires⟩

theorem Plain.finish : Plain w (w.finish i) := by
  have hstate : Plain w { w with state := { w.state with holder := none } } := .state (Or.inr ⟨rfl, rfl⟩)
  exact hstate.trans (.setCall (by rintro stage t ⟨⟩))

theorem Plain.active {k : World → World} (hk : Plain w (k w)) : Plain w (w.active i k) := by
  unfold World.active
  split
  · exact .finish
  · exact hk

theorem Plain.select (ref : SecretRef) : Plain w { w with state := World.select w.state ref } := by
  apply Plain.state
  unfold World.select
  split
  · exact Or.inr ⟨rfl, rfl⟩
  · exact Or.inl rfl

theorem Plain.acquire : Plain w (w.acquire i) := by
  unfold World.acquire
  split
  · have hstate : Plain w { w with state := { w.state with holder := some i } } := .state (Or.inr ⟨rfl, rfl⟩)
    exact hstate.trans (.active (.goOn (by rintro t ⟨⟩)))
  · exact .refl w

theorem Plain.serve (hi : w.calls i = .inside stage) : Plain w (w.serve b i stage) := by
  unfold World.serve
  split
  · have hobserved : Plain w { w with observed := (b.currentSecretRef w.snapshot).elim w.observed fun ref => (i, ref) :: w.observed } :=
      .quiet rfl rfl rfl fun hc => hc
    exact hobserved.trans (.goOn (by rintro t ⟨⟩))
  · rename_i ref
    have hopened : Plain w { w with opened := (w.secrets ref).elim w.opened fun material => (ref, material) :: w.opened } :=
      .quiet rfl rfl rfl fun hc => hc
    exact hopened.trans (.goOn (by rintro t ⟨⟩))
  · apply Plain.goOn
    rintro t ⟨⟩
    exact Or.inl ⟨_, hi, rfl⟩
  · apply Plain.goOn
    rintro t ⟨⟩
    exact Or.inl ⟨_, hi, rfl⟩
  · exact .refl w

theorem Plain.exchange : Plain w (w.exchange i stage) := by
  unfold World.exchange
  split
  · have hfresh : Plain w { w with freshExchange := w.freshExchange + 1 } := .quiet rfl rfl rfl fun hc => hc
    exact hfresh.trans (.goOn (by rintro t ⟨⟩))
  · exact .refl w

theorem Plain.answer {value : String} {expiresIn : ℚ} : Plain w (w.answer i value expiresIn stage) := by
  unfold World.answer
  split
  · split
    · exact .finish
    rename_i hpos
    apply Plain.active
    apply Plain.goOn
    rintro t ⟨⟩
    exact Or.inr (not_le.mp hpos)
  · exact .refl w

theorem Plain.invalidate (lease : CredentialLease) : Plain w (w.invalidate lease) := by
  unfold World.invalidate
  split
  · have hlist : Plain w { w with
        invalidated := if ∃ r ∈ w.returned, r.lease = lease then lease.token.exchange.id :: w.invalidated else w.invalidated } :=
      .quiet rfl rfl rfl fun hc => hc
    dsimp only
    split
    · exact hlist.trans (.state (Or.inl rfl))
    · exact hlist
  · exact .refl w

theorem Plain.inside {k : Stage → World} (hk : ∀ stage, w.calls i = .inside stage → Plain w (k stage)) : Plain w (w.inside i k) := by
  unfold World.inside
  split
  · rename_i stage hi
    exact hk stage hi
  · exact .refl w

theorem Plain.next {a : Action} (ha : ∀ i, a ≠ .resume i) : Plain w (w.next b a) := by
  cases a with
  | authorize i bound =>
    unfold World.next
    dsimp only
    split
    · split
      · exact .setCall (by rintro stage t ⟨⟩)
      · exact .setCall (by rintro stage t ⟨⟩)
    · exact .refl w
  | acquire i =>
    unfold World.next
    dsimp only
    split
    · exact .acquire
    · exact .refl w
  | serve i => exact .inside fun stage hi => .serve hi
  | resume i => exact absurd rfl (ha i)
  | exchange i => exact .inside fun stage hi => .exchange
  | answer i value expiresIn => exact .inside fun stage hi => .answer
  | raised i =>
    unfold World.next
    dsimp only
    split
    · exact .setCall (by rintro stage t ⟨⟩)
    · exact .finish
    · exact .refl w
  | invalidate lease => exact .invalidate lease
  | retire =>
    have hclosed : Plain w { w with isClosed := true } := .quiet rfl rfl rfl fun _ => rfl
    exact hclosed.trans (.state (Or.inl rfl))
  | close => exact .quiet rfl rfl rfl fun _ => rfl
  | clear =>
    change Plain w (if w.isClosed = true ∧ w.state.holder = none then { w with state := World.cleared w.state } else w)
    split
    · exact .state (Or.inl rfl)
    · exact .refl w
  | configure snapshot => exact .quiet rfl rfl rfl fun hc => hc
  | store ref material => exact .quiet rfl rfl rfl fun hc => hc
  | advance now => exact .quiet rfl rfl rfl fun hc => hc

end Plain

section Returns

variable {w : World} {i : ℕ} {b : Binding} {stage : Stage}

theorem resume_cases (hi : w.calls i = .inside stage) : Plain w (w.resume i stage) ∨
    (w.isClosed = false ∧ w.resume i stage = w.lease i ∧ w.clock < w.state.expiresAt) ∨
    ∃ t ref material, w.isClosed = false ∧ stage = .reopened t ref (some material) ∧
      w.resume i stage = { w with state := World.keep w.state t w.clock }.lease i := by
  unfold World.resume
  split
  · exact Or.inl .finish
  · rename_i ref
    exact Or.inl (.active ((Plain.select ref).trans (.goOn (by rintro t ⟨⟩))))
  · exact Or.inl .finish
  · unfold World.active
    split
    · exact Or.inl .finish
    rename_i hopen
    dsimp only
    by_cases hlive : w.state.accessToken.isSome = true ∧ w.clock < w.state.expiresAt
    · rw [if_pos hlive]
      exact Or.inr (Or.inl ⟨Bool.eq_false_iff.mpr hopen, rfl, hlive.2⟩)
    · rw [if_neg hlive]
      exact Or.inl (.goOn (by rintro t ⟨⟩))
  · exact Or.inl .finish
  · refine Or.inl (.active (.goOn ?_))
    rintro t ⟨⟩
    exact Or.inl ⟨_, hi, rfl⟩
  · exact Or.inl .finish
  · rename_i token ref material
    unfold World.active
    split
    · exact Or.inl .finish
    rename_i hopen
    dsimp only
    by_cases hdiff : ref ≠ token.exchange.secret ∨ material ≠ token.exchange.material
    · rw [if_pos hdiff]
      have hcleared : Plain w { w with state := World.cleared w.state } := .state (Or.inl rfl)
      exact Or.inl (hcleared.trans .finish)
    · rw [if_neg hdiff]
      exact Or.inr (Or.inr ⟨token, ref, material, Bool.eq_false_iff.mpr hopen, rfl, rfl⟩)
  · exact Or.inl (.refl w)

theorem lease_returned {r : Return} (hr : r ∈ (w.lease i).returned) :
    r ∈ w.returned ∨ (w.state.accessToken = some r.lease.token ∧ r.time = w.clock ∧ r.call = i) := by
  unfold World.lease at hr
  split at hr
  · rename_i token secretToken ht hs
    cases List.mem_cons.mp hr with
    | inl heq =>
      rw [heq]
      exact Or.inr ⟨ht, rfl, rfl⟩
    | inr hin => exact Or.inl hin
  · exact Or.inl hr

theorem next_returned {a : Action} {r : Return} (hr : r ∈ (w.next b a).returned) :
    r ∈ w.returned ∨ (w.isClosed = false ∧ r.time = w.clock ∧ a = .resume r.call ∧
      ((w.state.accessToken = some r.lease.token ∧ w.clock < w.state.expiresAt) ∨
        ∃ ref material, w.calls r.call = .inside (.reopened r.lease.token ref material))) := by
  cases a with
  | resume i =>
    change r ∈ (w.inside i fun stage => w.resume i stage).returned at hr
    unfold World.inside at hr
    split at hr
    · rename_i stage hi
      have hr : r ∈ (w.resume i stage).returned := hr
      obtain hplain | ⟨hopen, heq, hlive⟩ | ⟨t, ref, material, hopen, hstage, heq⟩ := resume_cases hi
      · rw [hplain.returned] at hr
        exact Or.inl hr
      · rw [heq] at hr
        obtain hin | ⟨ht, htime, hcall⟩ := lease_returned hr
        · exact Or.inl hin
        · exact Or.inr ⟨hopen, htime, by rw [hcall], Or.inl ⟨ht, hlive⟩⟩
      rw [heq] at hr
      obtain hin | ⟨ht, htime, hcall⟩ := lease_returned hr
      · exact Or.inl hin
      have ht : t = r.lease.token := Option.some_inj.mp ht
      refine Or.inr ⟨hopen, htime, by rw [hcall], Or.inr ⟨ref, some material, ?_⟩⟩
      rw [hcall, hi, hstage, ht]
    · exact Or.inl hr
  | _ =>
    rw [(Plain.next (by rintro i ⟨⟩)).returned] at hr
    exact Or.inl hr

theorem lease_eq : w.lease i = World.finish { w with returned := (w.lease i).returned } i := by
  unfold World.lease
  split
  · rfl
  · rfl

theorem next_closed {a : Action} (h : w.isClosed = true) : (w.next b a).isClosed = true := by
  cases a with
  | resume i =>
    change (w.inside i fun stage => w.resume i stage).isClosed = true
    unfold World.inside
    split
    · rename_i stage hi
      obtain hplain | ⟨hopen, -⟩ | ⟨t, ref, material, hopen, -⟩ := resume_cases hi
      · exact hplain.closed h
      · rw [h] at hopen
        cases hopen
      · rw [h] at hopen
        cases hopen
    · exact h
  | _ => exact (Plain.next (by rintro i ⟨⟩)).closed h

end Returns

section Lifetimes

variable {w w' : World} {i : ℕ} {b : Binding} {stage : Stage}

structure Timed (w : World) : Prop where
  kept : ∀ t, w.state.accessToken = some t → w.state.expiresAt ≤ t.exchange.started + t.expiresIn
  gets : ∀ i t, w.gets i t → 0 < t.expiresIn
  returned : ∀ r ∈ w.returned, r.time < r.lease.token.exchange.started + r.lease.token.expiresIn

theorem Plain.timed (hp : Plain w w') (h : Timed w) : Timed w' where
  kept t ht := by
    obtain ⟨ht, hexpires⟩ := hp.kept t ht
    rw [hexpires]
    exact h.kept t ht
  gets i t hg := by
    obtain hg | hpos := hp.gets i t hg
    · exact h.gets i t hg
    · exact hpos
  returned := by
    rw [hp.returned]
    exact h.returned

theorem Timed.lease (h : Timed w) (hlive : ∀ t, w.state.accessToken = some t → w.clock < t.exchange.started + t.expiresIn) :
    Timed (w.lease i) := by
  have hreturned : Timed { w with returned := (w.lease i).returned } := by
    refine ⟨h.kept, h.gets, ?_⟩
    intro r hr
    obtain hin | ⟨ht, htime, -⟩ := lease_returned hr
    · exact h.returned r hin
    · rw [htime]
      exact hlive _ ht
  rw [lease_eq]
  exact Plain.finish.timed hreturned

theorem lifetime_le (t : Token) : t.lifetime ≤ t.expiresIn := min_le_left _ _

theorem earlyExpiry_bounds {t : Token} (h : 0 < t.expiresIn) : t.earlyExpiry < t.lifetime := by
  have hpos : 0 < t.lifetime := lt_min h (by norm_num)
  have hle : t.earlyExpiry ≤ t.lifetime / 10 := min_le_right _ _
  linarith

theorem Timed.keep (h : Timed w) {t : Token} (hpos : 0 < t.expiresIn) (hprompt : w.clock - t.exchange.started ≤ t.earlyExpiry) :
    Timed ({ w with state := World.keep w.state t w.clock }.lease i) := by
  have hearly := earlyExpiry_bounds hpos
  have hlifetime := lifetime_le t
  have hmax : max 0 (t.lifetime - t.earlyExpiry) = t.lifetime - t.earlyExpiry := max_eq_right (by linarith)
  apply Timed.lease
  · refine ⟨?_, h.gets, h.returned⟩
    rintro t' ⟨⟩
    change w.clock + max 0 (t.lifetime - t.earlyExpiry) ≤ t.exchange.started + t.expiresIn
    rw [hmax]
    linarith
  rintro t' ⟨⟩
  change w.clock < t.exchange.started + t.expiresIn
  linarith

theorem Timed.next (h : Timed w) {a : Action} (hprompt : w.Prompt a) : Timed (w.next b a) := by
  cases a with
  | resume i =>
    change Timed (w.inside i fun stage => w.resume i stage)
    unfold World.inside
    split
    · rename_i stage hi
      change Timed (w.resume i stage)
      obtain hplain | ⟨-, heq, hlive⟩ | ⟨t, ref, material, -, hstage, heq⟩ := resume_cases hi
      · exact hplain.timed h
      · rw [heq]
        apply h.lease
        intro t ht
        exact lt_of_lt_of_le hlive (h.kept t ht)
      rw [heq]
      rw [hstage] at hi
      exact h.keep (h.gets i t ⟨_, hi, rfl⟩) (hprompt t ref _ hi)
    · exact h
  | _ => exact (Plain.next (by rintro i ⟨⟩)).timed h

theorem Timed.initial (h : w.Initial) : Timed w := by
  constructor
  · rw [h.accessToken]
    rintro t ⟨⟩
  · rintro i t ⟨stage, hi, -⟩
    rw [h.calls] at hi
    cases hi
  · rw [h.returned]
    exact fun r hr => absurd hr List.not_mem_nil

end Lifetimes

section Runs

variable {w : World} {b : Binding}

theorem sound_of_reachable (h : (tokens b).Reachable w) : Sound w :=
  h.invariant (P := Sound) (fun _ => Sound.initial) fun _ a hs _ => hs.next a

theorem timed_of_prompt (h : (promptTokens b).Reachable w) : Timed w :=
  h.invariant (P := Timed) (fun _ => Timed.initial) fun _ _ ht ha => ht.next ha

def World.Current (w : World) (r : Return) : Prop :=
  (r.lease.token.exchange.secret, r.lease.token.exchange.material) ∈ w.opened ∧
    ∃ ref, (r.call, ref) ∈ w.observed ∧ ref.token = r.lease.token.exchange.secret.token

theorem invalidate_other {lease : CredentialLease} (h : lease.generation ≠ w.state.generation) :
    (w.invalidate lease).state = w.state := by
  unfold World.invalidate
  split
  · dsimp only
    rw [if_neg]
    exact fun hsame => h hsame.2.symm
  · rfl

theorem source_tokens (h : (tokens b).Reachable w) : (∀ r ∈ w.returned, w.Current r) ∧
    (∀ a, ∀ r ∈ (w.next b a).returned, r ∈ w.returned ∨ r.lease.token.exchange.id ∉ w.invalidated) ∧
    (∀ r ∈ w.returned, ∀ t, w.state.accessToken = some t → t.exchange.id ≠ r.lease.token.exchange.id →
      (w.next b (.invalidate r.lease)).state = w.state) ∧
    (w.isClosed = true → ∀ a, (w.next b a).isClosed = true ∧ (w.next b a).returned = w.returned) ∧
    ((promptTokens b).Reachable w →
      ∀ r ∈ w.returned, r.time - r.lease.token.exchange.started < r.lease.token.expiresIn) := by
  have hs := sound_of_reachable h
  refine ⟨?_, ?_, ?_, ?_, ?_⟩
  · intro r hr
    obtain ⟨-, hsecret, ⟨ref, hin, htoken⟩, hopened, -⟩ := hs.core.returned r hr
    exact ⟨hopened, ref, hin, htoken.trans hsecret⟩
  · intro a r hr
    obtain hin | ⟨-, -, -, ⟨ht, -⟩ | ⟨ref, material, hi⟩⟩ := next_returned hr
    · exact Or.inl hin
    · exact Or.inr (hs.core.valid _ ht)
    · have hflight : InFlight w r.call r.lease.token.exchange := hs.stages _ _ hi
      exact Or.inr (hflight.uninvalidated hs.core)
  · intro r hr t ht hne
    obtain ⟨-, hsame⟩ | ⟨hgeneration, -⟩ := hs.core.matched r hr t ht
    · exact absurd (congrArg (fun t => t.exchange.id) hsame) hne
    · exact invalidate_other hgeneration
  · intro hclosed a
    refine ⟨next_closed hclosed, ?_⟩
    cases a with
    | resume i =>
      change (w.inside i fun stage => w.resume i stage).returned = w.returned
      unfold World.inside
      split
      · rename_i stage hi
        obtain hplain | ⟨hopen, -⟩ | ⟨t, ref, material, hopen, -⟩ := resume_cases hi
        · exact hplain.returned
        · rw [hclosed] at hopen
          cases hopen
        · rw [hclosed] at hopen
          cases hopen
      · rfl
    | _ => exact (Plain.next (by rintro i ⟨⟩)).returned
  · intro hprompt r hr
    have hlive := (timed_of_prompt hprompt).returned r hr
    linarith

end Runs

namespace Sample

def binding : Binding := ⟨"core", "module/ff14", "client"⟩

def ref : SecretRef := ⟨"secret-1", "core", "module/ff14", "client", "op-1"⟩

def start : World where
  clock := 0
  isClosed := false
  state := ⟨none, none, none, 0, 0⟩
  snapshot := [⟨"client", .active, some ref⟩]
  secrets := fun _ => some ⟨"id", "key"⟩
  calls := fun _ => .idle
  freshExchange := 0
  observed := []
  opened := []
  returned := []
  invalidated := []

theorem start_initial : start.Initial := ⟨rfl, rfl, fun _ => rfl, rfl, rfl, rfl, rfl⟩

def opening (i : ℕ) : List Action := [.authorize i true, .acquire i, .serve i, .resume i, .serve i, .resume i]

/-- A first token, with a lifetime of ten seconds, is answered at `answered`. -/
def first (answered : ℚ) : List Action :=
  opening 0 ++ [.exchange 0, .advance answered, .answer 0 "t1" 10, .serve 0, .resume 0, .serve 0, .resume 0]

def second : List Action := .advance 12 :: opening 1

def isPrompt (w : World) : Action → Bool
  | .resume i =>
    match w.calls i with
    | .inside (.reopened token _ _) => decide (w.clock - token.exchange.started ≤ token.earlyExpiry)
    | _ => true
  | _ => true

def promptly : System.CheckedRun (World.next binding) isPrompt start := ⟨first 1, by decide +kernel⟩

theorem prompt_of_isPrompt {w : World} {a : Action} (h : isPrompt w a = true) : w.Prompt a := by
  cases a with
  | resume i =>
    intro token ref material hi
    change (match w.calls i with
      | .inside (.reopened token _ _) => decide (w.clock - token.exchange.started ≤ token.earlyExpiry)
      | _ => true) = true at h
    rw [hi] at h
    exact of_decide_eq_true h
  | _ => trivial

theorem reachable (as : List Action) : (tokens binding).Reachable (as.foldl (World.next binding) start) :=
  ⟨start, as, start_initial, .of_always (S := tokens binding) (fun _ _ _ => trivial) start⟩

end Sample

theorem source_tokens_sample : ∃ w : World, w.returned.length = 1 ∧ (∀ r ∈ w.returned, w.Current r) ∧
    ∀ r ∈ w.returned, r.time - r.lease.token.exchange.started < r.lease.token.expiresIn := by
  have hprompt : (promptTokens Sample.binding).Reachable ((Sample.first 1).foldl (World.next Sample.binding) Sample.start) := by
    refine ⟨Sample.start, Sample.first 1, Sample.start_initial, ?_⟩
    exact System.Trace.of_checked (S := promptTokens Sample.binding)
      (fun w a (h : Sample.isPrompt w a = true) => Sample.prompt_of_isPrompt h) Sample.promptly.property
  have hproved := source_tokens (Sample.reachable (Sample.first 1))
  refine ⟨_, ?_, hproved.1, hproved.2.2.2.2 hprompt⟩
  decide +kernel

/-- The exchange takes four seconds: two seconds after the token has expired, it is returned once more. -/
theorem expired_token_returned : ∃ w : World, (tokens Sample.binding).Reachable w ∧
    ∃ r ∈ w.returned, r.lease.token.expiresIn < r.time - r.lease.token.exchange.started := by
  refine ⟨_, Sample.reachable (Sample.first 4 ++ Sample.second), ?_⟩
  decide +kernel

end GameLink.Sources.Tokens

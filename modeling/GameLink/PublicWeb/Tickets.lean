import GameLink.PublicWeb.Proofs

namespace GameLink.PublicWeb

open Foundation

inductive Record where
  | begun (t : ℕ) (facts : Facts)
  | minted (t : ℕ)
  | consumed (t : ℕ) (moduleId capabilityId : String)
  | revoked (t : ℕ)

def Record.consumes (t : ℕ) : Record → Bool
  | .consumed t' _ _ => t' = t
  | _ => false

structure World where
  validator : Validator
  log : List Record

inductive Action where
  | attach (core : ℕ)
  | begin (e : Validator.Entry) (o again : Currency)
  | mint (o : Currency) (p : Validator.Proof)
  | consume (o : Currency) (p : Validator.Proof) (moduleId capabilityId : String) (generation : ℤ)
  | isCurrent (o : Currency) (p : Validator.Proof) (binding : Binding)
  | remaining (o : Currency) (clock wall : ℚ) (p : Validator.Proof)
  | routeFor (o : Currency) (p : Validator.Proof) (endpoint : Key)
  | revoke (p : Validator.Proof)
  | revokeOwner (moduleId : String)
  | replaceExternalBindings (items : List Validator.Replacement) (timeouts : Timeouts)
  | close

namespace Action

variable (v : Validator)

def run : Action → Validator
  | attach core => (v.attach core).2
  | begin e o again => (v.begin e o again).2
  | mint o p => (v.mint o p).2
  | consume o p moduleId capabilityId generation => (v.consume o p moduleId capabilityId generation).2
  | revoke p => v.revoke p
  | revokeOwner moduleId => v.revokeOwner moduleId
  | replaceExternalBindings items timeouts => (v.replaceExternalBindings items timeouts).2
  | close => v.close
  | _ => v

def succeeds (t : ℕ) : Action → Prop
  | mint o p => p = .ticket t ∧ (v.mint o p).1 = .ok ()
  | consume o p moduleId capabilityId generation =>
    p = .ticket t ∧ ∃ binding, (v.consume o p moduleId capabilityId generation).1 = .ok binding
  | isCurrent o p binding => p = .ticket t ∧ v.isCurrent o p binding = .ok true
  | remaining o clock wall p => p = .ticket t ∧ ∃ seconds, v.remaining o clock wall p = .ok seconds
  | routeFor o p endpoint => p = .ticket t ∧ ∃ route, v.routeFor o p endpoint = .ok route
  | _ => False

def currency : Action → Option Currency
  | mint o _ => some o
  | consume o _ _ _ _ => some o
  | isCurrent o _ _ => some o
  | remaining o _ _ _ => some o
  | routeFor o _ _ => some o
  | _ => none

def revocations (requests : List (ℕ × Facts)) (p : ℕ × Facts → Bool) : List Record :=
  (requests.filter p).map fun e => .revoked e.1

def records : Action → List Record
  | begin e o again =>
    match v.begin e o again with
    | (.ok t, v') => ((v'.requests.lookup t).map (Record.begun t)).toList
    | (.error _, _) => []
  | mint o (.ticket t) => if (v.mint o (.ticket t)).1 = .ok () then [.minted t] else []
  | consume o (.ticket t) moduleId capabilityId generation =>
    match (v.consume o (.ticket t) moduleId capabilityId generation).1 with
    | .ok _ => [.consumed t moduleId capabilityId]
    | .error _ => []
  | revoke (.ticket t) => [.revoked t]
  | revokeOwner moduleId => revocations v.requests fun e => e.2.route.target.1 = moduleId
  | replaceExternalBindings items timeouts =>
    match v.replaceExternalBindings items timeouts with
    | (.ok _, v') => revocations v.requests fun e => v'.routes.lookup e.2.endpoint ≠ some e.2.route
    | (.error _, _) => []
  | close => revocations v.requests fun _ => true
  | _ => []

end Action

def system : System World Action where
  start w := w.log = [] ∧ ∃ generation bindings timeouts, Validator.create generation bindings timeouts = .ok w.validator
  allowed w
    | .revoke (.ticket t) => t < w.validator.objects
    | _ => True
  next w a := ⟨a.run w.validator, a.records w.validator ++ w.log⟩

structure Same (f f' : Facts) : Prop where
  endpoint : f.endpoint = f'.endpoint
  generation : f.generation = f'.generation
  key : f.key = f'.key
  expiry : f.expiry = f'.expiry
  deadline : f.deadline = f'.deadline
  route : f.route = f'.route
  guarded : f.guarded = f'.guarded

theorem Same.refl (f : Facts) : Same f f := ⟨rfl, rfl, rfl, rfl, rfl, rfl, rfl⟩

structure Sound (w : World) : Prop where
  fresh : ∀ t f, (t, f) ∈ w.validator.requests → t < w.validator.objects
  unique : ∀ t f f', (t, f) ∈ w.validator.requests → (t, f') ∈ w.validator.requests → f = f'
  begun : ∀ t f, (t, f) ∈ w.validator.requests → ∃ f₀, .begun t f₀ ∈ w.log ∧ Same f₀ f
  logged : ∀ t f, .begun t f ∈ w.log → t < w.validator.objects
  only : ∀ t f f', .begun t f ∈ w.log → .begun t f' ∈ w.log → f = f'
  minted : ∀ t f, (t, f) ∈ w.validator.requests → f.minted = true → .minted t ∈ w.log
  consumed : ∀ t m c, .consumed t m c ∈ w.log → t < w.validator.objects ∧
    ∀ f, (t, f) ∈ w.validator.requests → f.binding.isSome = true
  once : ∀ t, w.log.countP (Record.consumes t) ≤ 1
  revoked : ∀ t, .revoked t ∈ w.log → t < w.validator.objects ∧ ∀ f, (t, f) ∉ w.validator.requests

namespace Sound

variable {w : World} {v' : Validator} {rs : List Record}

section

variable (h : Sound w)
include h

theorem narrow (hsub : ∀ e ∈ v'.requests, e ∈ w.validator.requests)
    (hobjects : w.validator.objects ≤ v'.objects) (hrs : ∀ r ∈ rs, ∃ t, r = .revoked t ∧ t < w.validator.objects ∧
      ∀ f, (t, f) ∉ v'.requests) : Sound ⟨v', rs ++ w.log⟩ := by
  have hold : ∀ {r : Record}, r ∈ rs ++ w.log → (∀ t, r ≠ .revoked t) → r ∈ w.log := by
    intro r hr hne
    rcases List.mem_append.mp hr with hr | hr
    · obtain ⟨t, rfl, -⟩ := hrs r hr
      exact absurd rfl (hne t)
    · exact hr
  constructor
  · intro t f hf
    exact (h.fresh t f (hsub _ hf)).trans_le hobjects
  · intro t f f' hf hf'
    exact h.unique t f f' (hsub _ hf) (hsub _ hf')
  · intro t f hf
    obtain ⟨f₀, hf₀, hs⟩ := h.begun t f (hsub _ hf)
    exact ⟨f₀, List.mem_append_right _ hf₀, hs⟩
  · intro t f hf
    exact (h.logged t f (hold hf nofun)).trans_le hobjects
  · intro t f f' hf hf'
    exact h.only t f f' (hold hf nofun) (hold hf' nofun)
  · intro t f hf hm
    exact List.mem_append_right _ (h.minted t f (hsub _ hf) hm)
  · intro t m c hc
    obtain ⟨hlt, hb⟩ := h.consumed t m c (hold hc nofun)
    exact ⟨hlt.trans_le hobjects, fun f hf => hb f (hsub _ hf)⟩
  · intro t
    rw [List.countP_append, List.countP_eq_zero.mpr, Nat.zero_add]
    · exact h.once t
    intro r hr
    obtain ⟨t', rfl, -⟩ := hrs r hr
    exact Bool.false_ne_true
  · intro t ht
    rcases List.mem_append.mp ht with ht | ht
    · obtain ⟨t', he, hlt, hgone⟩ := hrs _ ht
      cases he
      exact ⟨hlt.trans_le hobjects, hgone⟩
    · obtain ⟨hlt, hgone⟩ := h.revoked t ht
      exact ⟨hlt.trans_le hobjects, fun f hf => hgone f (hsub _ hf)⟩

theorem unchanged (hr : v'.requests = w.validator.requests) (ho : w.validator.objects ≤ v'.objects) :
    Sound ⟨v', w.log⟩ := by
  have hsub : ∀ e ∈ v'.requests, e ∈ w.validator.requests := by
    rw [hr]
    exact fun e he => he
  have hnone : ∀ r ∈ ([] : List Record), ∃ t, r = .revoked t ∧ t < w.validator.objects ∧ ∀ f, (t, f) ∉ v'.requests := by
    intro r hr
    cases hr
  exact h.narrow hsub ho hnone

theorem entered {f : Facts} (hf : f.minted = false) : Sound ⟨{ w.validator with
      requests := (w.validator.objects, f) :: w.validator.requests, objects := w.validator.objects + 1 },
      .begun w.validator.objects f :: w.log⟩ := by
  have hold : ∀ {t g}, (t, g) ∈ w.validator.requests → t ≠ w.validator.objects := by
    intro t g hg ht
    have := h.fresh t g hg
    omega
  constructor
  · intro t g hg
    rcases List.mem_cons.mp hg with hg | hg
    · cases hg
      exact Nat.lt_succ_self _
    · exact (h.fresh t g hg).trans (Nat.lt_succ_self _)
  · intro t g g' hg hg'
    rcases List.mem_cons.mp hg with he | hg
    · cases he
      rcases List.mem_cons.mp hg' with he | hg'
      · cases he
        rfl
      · exact absurd rfl (hold hg')
    rcases List.mem_cons.mp hg' with he | hg'
    · cases he
      exact absurd rfl (hold hg)
    · exact h.unique t g g' hg hg'
  · intro t g hg
    rcases List.mem_cons.mp hg with hg | hg
    · cases hg
      exact ⟨f, List.mem_cons_self, Same.refl f⟩
    · obtain ⟨f₀, hf₀, hs⟩ := h.begun t g hg
      exact ⟨f₀, List.mem_cons_of_mem _ hf₀, hs⟩
  · intro t g hg
    rcases List.mem_cons.mp hg with hg | hg
    · cases hg
      exact Nat.lt_succ_self _
    · exact (h.logged t g hg).trans (Nat.lt_succ_self _)
  · intro t g g' hg hg'
    rcases List.mem_cons.mp hg with he | hg
    · cases he
      rcases List.mem_cons.mp hg' with he | hg'
      · cases he
        rfl
      · exact absurd (h.logged _ _ hg') (lt_irrefl _)
    rcases List.mem_cons.mp hg' with he | hg'
    · cases he
      exact absurd (h.logged _ _ hg) (lt_irrefl _)
    · exact h.only t g g' hg hg'
  · intro t g hg hm
    rcases List.mem_cons.mp hg with hg | hg
    · cases hg
      rw [hf] at hm
      cases hm
    · exact List.mem_cons_of_mem _ (h.minted t g hg hm)
  · intro t m c hc
    obtain ⟨hlt, hb⟩ := h.consumed t m c (by simpa using hc)
    refine ⟨hlt.trans (Nat.lt_succ_self _), ?_⟩
    intro g hg
    rcases List.mem_cons.mp hg with hg | hg
    · cases hg
      exact absurd hlt (lt_irrefl _)
    · exact hb g hg
  · intro t
    rw [List.countP_cons_of_neg Bool.false_ne_true]
    exact h.once t
  · intro t ht
    obtain ⟨hlt, hgone⟩ := h.revoked t (by simpa using ht)
    refine ⟨hlt.trans (Nat.lt_succ_self _), ?_⟩
    intro g hg
    rcases List.mem_cons.mp hg with hg | hg
    · cases hg
      exact absurd hlt (lt_irrefl _)
    · exact hgone g hg

theorem changed {t : ℕ} {g : Facts → Facts} {r : Record} {n : ℕ} (hsame : ∀ f, Same f (g f))
    (hn : w.validator.objects ≤ n) (hbinding : ∀ f, f.binding.isSome = true → (g f).binding.isSome = true)
    (hr : (r = .minted t ∧ ∀ f, (g f).minted = true) ∨
      ((∃ m c, r = .consumed t m c) ∧ (∀ f, (g f).minted = f.minted) ∧ (∀ f, (g f).binding.isSome = true) ∧
        ∃ f, (t, f) ∈ w.validator.requests ∧ f.binding = none)) :
    Sound ⟨{ w.validator.update t g with objects := n }, r :: w.log⟩ := by
  have hentry : ∀ {t' f'}, (t', f') ∈ (w.validator.update t g).requests →
      ∃ f, (t', f) ∈ w.validator.requests ∧ ((t' ≠ t ∧ f' = f) ∨ (t' = t ∧ f' = g f)) := by
    intro t' f' hf'
    obtain ⟨e, he, hef⟩ := List.mem_map.mp hf'
    split at hef
    · rename_i het
      cases hef
      exact ⟨e.2, he, .inr ⟨het, rfl⟩⟩
    rename_i het
    cases hef
    exact ⟨_, he, .inl ⟨het, rfl⟩⟩
  have hbegun : ∀ {t' f}, .begun t' f ∈ r :: w.log → .begun t' f ∈ w.log := by
    intro t' f hf
    rcases List.mem_cons.mp hf with hf | hf
    · rcases hr with ⟨rfl, -⟩ | ⟨⟨m, c, rfl⟩, -⟩
      · cases hf
      · cases hf
    · exact hf
  have hlt : ∀ {t'}, t' < w.validator.objects → t' < n := fun hlt => hlt.trans_le hn
  constructor
  · intro t' f' hf'
    obtain ⟨f, hf, -⟩ := hentry hf'
    exact hlt (h.fresh t' f hf)
  · intro t' f₁ f₂ hf₁ hf₂
    obtain ⟨f, hf, hff⟩ := hentry hf₁
    obtain ⟨f', hf', hff'⟩ := hentry hf₂
    obtain rfl := h.unique t' f f' hf hf'
    rcases hff with ⟨hne, rfl⟩ | ⟨heq, rfl⟩
    · rcases hff' with ⟨-, rfl⟩ | ⟨heq, -⟩
      · rfl
      · exact absurd heq hne
    rcases hff' with ⟨hne, -⟩ | ⟨-, rfl⟩
    · exact absurd heq hne
    · rfl
  · intro t' f' hf'
    obtain ⟨f, hf, hff⟩ := hentry hf'
    obtain ⟨f₀, hf₀, hs⟩ := h.begun t' f hf
    refine ⟨f₀, List.mem_cons_of_mem _ hf₀, ?_⟩
    rcases hff with ⟨-, rfl⟩ | ⟨-, rfl⟩
    · exact hs
    have hg := hsame f
    exact ⟨hs.endpoint.trans hg.endpoint, hs.generation.trans hg.generation, hs.key.trans hg.key,
      hs.expiry.trans hg.expiry, hs.deadline.trans hg.deadline, hs.route.trans hg.route, hs.guarded.trans hg.guarded⟩
  · intro t' f hf
    exact hlt (h.logged t' f (hbegun hf))
  · intro t' f f' hf hf'
    exact h.only t' f f' (hbegun hf) (hbegun hf')
  · intro t' f' hf' hm
    obtain ⟨f, hf, hff⟩ := hentry hf'
    rcases hff with ⟨-, rfl⟩ | ⟨rfl, rfl⟩
    · exact List.mem_cons_of_mem _ (h.minted t' f' hf hm)
    rcases hr with ⟨rfl, -⟩ | ⟨-, hkeep, -⟩
    · exact List.mem_cons_self
    · rw [hkeep] at hm
      exact List.mem_cons_of_mem _ (h.minted t' f hf hm)
  · intro t' m c hc
    have hbound : ∀ {t'}, (t' < w.validator.objects ∧ ∀ f, (t', f) ∈ w.validator.requests → f.binding.isSome = true) →
        t' < n ∧ ∀ f', (t', f') ∈ (w.validator.update t g).requests → f'.binding.isSome = true := by
      intro t' ⟨hold, hb⟩
      refine ⟨hlt hold, ?_⟩
      intro f' hf'
      obtain ⟨f, hf, hff⟩ := hentry hf'
      rcases hff with ⟨-, rfl⟩ | ⟨-, rfl⟩
      · exact hb f' hf
      · exact hbinding f (hb f hf)
    rcases List.mem_cons.mp hc with hc | hc
    · rcases hr with ⟨rfl, -⟩ | ⟨⟨m', c', rfl⟩, -, hset, f, hf, -⟩
      · cases hc
      cases hc
      refine ⟨hlt (h.fresh t f hf), ?_⟩
      intro f' hf'
      obtain ⟨f₁, -, hff⟩ := hentry hf'
      rcases hff with ⟨hne, -⟩ | ⟨-, rfl⟩
      · exact absurd rfl hne
      · exact hset f₁
    · exact hbound (h.consumed t' m c hc)
  · intro t'
    rcases hr with ⟨rfl, -⟩ | ⟨⟨m, c, rfl⟩, -, -, f, hf, hnone⟩
    · rw [List.countP_cons_of_neg Bool.false_ne_true]
      exact h.once t'
    by_cases ht : t = t'
    · subst ht
      rw [List.countP_cons, List.countP_eq_zero.mpr, Nat.zero_add]
      · split <;> omega
      intro r hr
      -- An earlier consumption of this ticket would have left its binding.
      cases r with
      | consumed t' m' c' =>
        intro he
        obtain rfl : t' = t := of_decide_eq_true he
        have := (h.consumed t' m' c' hr).2 f hf
        rw [hnone] at this
        cases this
      | _ => exact Bool.false_ne_true
    · rw [List.countP_cons_of_neg (by simp [Record.consumes, ht])]
      exact h.once t'
  · intro t' ht
    have ht : .revoked t' ∈ w.log := by
      rcases List.mem_cons.mp ht with ht | ht
      · rcases hr with ⟨rfl, -⟩ | ⟨⟨m, c, rfl⟩, -⟩
        · cases ht
        · cases ht
      · exact ht
    obtain ⟨hold, hgone⟩ := h.revoked t' ht
    refine ⟨hlt hold, ?_⟩
    intro f' hf'
    obtain ⟨f, hf, -⟩ := hentry hf'
    exact hgone f hf

theorem without {p : ℕ × Facts → Bool}
    (hrequests : v'.requests = w.validator.requests.filter fun e => !p e) (ho : w.validator.objects ≤ v'.objects) :
    Sound ⟨v', Action.revocations w.validator.requests p ++ w.log⟩ := by
  refine h.narrow ?_ ho ?_
  · intro e he
    rw [hrequests] at he
    exact (List.mem_filter.mp he).1
  intro r hr
  obtain ⟨e, he, rfl⟩ := List.mem_map.mp hr
  obtain ⟨hmem, hp⟩ := List.mem_filter.mp he
  refine ⟨e.1, rfl, h.fresh e.1 e.2 hmem, ?_⟩
  intro f hf
  rw [hrequests] at hf
  obtain ⟨hf, hnp⟩ := List.mem_filter.mp hf
  rw [← h.unique e.1 e.2 f hmem hf, hp] at hnp
  cases hnp

end

end Sound

theorem lookup_head (t : ℕ) (f : Facts) (l : List (ℕ × Facts)) : ((t, f) :: l).lookup t = some f := by simp

variable {w : World}

theorem sound_start (h : system.start w) : Sound w := by
  obtain ⟨hlog, generation, bindings, timeouts, hcreate⟩ := h
  have hrequests : w.validator.requests = [] := by
    unfold Validator.create at hcreate
    split at hcreate
    · cases hcreate
    · rw [← Except.ok.inj hcreate]
  constructor
  all_goals simp [hrequests, hlog]

theorem sound_next {a : Action} (h : Sound w) (ha : system.allowed w a) : Sound (system.next w a) := by
  cases a with
  | attach core =>
    refine h.unchanged ?_ ?_
    all_goals
      simp only [Action.run, Validator.attach]
      split <;> rfl
  | «begin» e o again =>
    rcases Validator.begin_cases e o again h.fresh with ⟨fault, he, hr, ho⟩ | ⟨f, hok, hm, hv⟩
    · have hrecords : (Action.begin e o again).records w.validator = [] := by
        simp only [Action.records]
        split
        · rename_i hb
          rw [hb] at he
          cases he
        · rfl
      change Sound ⟨_, (Action.begin e o again).records w.validator ++ w.log⟩
      rw [hrecords]
      exact h.unchanged hr ho
    · have hrecords : (Action.begin e o again).records w.validator = [.begun w.validator.objects f] := by
        simp only [Action.records]
        split
        · rename_i t v' hb
          rw [hb] at hok hv
          obtain rfl := Except.ok.inj hok
          rw [show v' = _ from hv, lookup_head]
          rfl
        rename_i hb
        rw [hb] at hok
        cases hok
      change Sound ⟨(w.validator.begin e o again).2, (Action.begin e o again).records w.validator ++ w.log⟩
      rw [hrecords, hv]
      exact h.entered hm
  | mint o p =>
    cases hout : (w.validator.mint o p).1 with
    | error fault =>
      have hrecords : (Action.mint o p).records w.validator = [] := by
        cases p with
        | foreign => rfl
        | ticket t =>
          simp only [Action.records, hout]
          rfl
      change Sound ⟨(w.validator.mint o p).2, (Action.mint o p).records w.validator ++ w.log⟩
      rw [hrecords, Validator.mint_error hout]
      exact h.unchanged rfl le_rfl
    | ok _ =>
      obtain ⟨t, f, rfl, -, hv⟩ := Validator.mint_ok hout
      have hrecords : (Action.mint o (.ticket t)).records w.validator = [.minted t] := by
        simp only [Action.records, hout, if_true]
      change Sound ⟨(w.validator.mint o (.ticket t)).2, (Action.mint o (.ticket t)).records w.validator ++ w.log⟩
      rw [hrecords, hv]
      exact h.changed (g := fun f => { f with minted := true }) (fun f => ⟨rfl, rfl, rfl, rfl, rfl, rfl, rfl⟩) le_rfl
        (fun _ hb => hb) (.inl ⟨rfl, fun _ => rfl⟩)
  | consume o p m c g =>
    cases hout : (w.validator.consume o p m c g).1 with
    | error fault =>
      have hrecords : (Action.consume o p m c g).records w.validator = [] := by
        cases p with
        | foreign => rfl
        | ticket t => simp only [Action.records, hout]
      change Sound ⟨(w.validator.consume o p m c g).2, (Action.consume o p m c g).records w.validator ++ w.log⟩
      rw [hrecords, Validator.consume_error hout]
      exact h.unchanged rfl le_rfl
    | ok binding =>
      obtain ⟨t, f, rfl, hp, -, hnone, -, hv⟩ := Validator.consume_ok hout
      have hrecords : (Action.consume o (.ticket t) m c g).records w.validator = [.consumed t m c] := by
        simp only [Action.records, hout]
      change Sound ⟨(w.validator.consume o (.ticket t) m c g).2,
        (Action.consume o (.ticket t) m c g).records w.validator ++ w.log⟩
      rw [hrecords, hv]
      exact h.changed (fun f => ⟨rfl, rfl, rfl, rfl, rfl, rfl, rfl⟩) (Nat.le_succ _) (fun _ _ => rfl)
        (.inr ⟨⟨m, c, rfl⟩, fun _ => rfl, fun _ => rfl, f, hp.entered, hnone⟩)
  | revoke p =>
    cases p with
    | foreign => exact h.unchanged rfl le_rfl
    | ticket t =>
      change Sound ⟨w.validator.revoke (.ticket t), [.revoked t] ++ w.log⟩
      refine h.narrow (fun e he => (List.mem_filter.mp he).1) le_rfl ?_
      intro r hr
      rw [List.mem_singleton.mp hr]
      refine ⟨t, rfl, ha, ?_⟩
      intro f hf
      exact of_decide_eq_true (List.mem_filter.mp hf).2 rfl
  | revokeOwner m =>
    refine h.without ?_ le_rfl
    simp [Action.run, Validator.revokeOwner]
  | replaceExternalBindings items timeouts =>
    cases hout : (w.validator.replaceExternalBindings items timeouts).1 with
    | error fault =>
      have hrecords : (Action.replaceExternalBindings items timeouts).records w.validator = [] := by
        simp only [Action.records]
        split
        · rename_i hb
          rw [hb] at hout
          cases hout
        · rfl
      change Sound ⟨(w.validator.replaceExternalBindings items timeouts).2,
        (Action.replaceExternalBindings items timeouts).records w.validator ++ w.log⟩
      rw [hrecords, Validator.replace_error hout]
      exact h.unchanged rfl le_rfl
    | ok _ =>
      obtain ⟨bundled, routes, objects, merged, hbuild, hv⟩ := Validator.replace_ok hout
      have hrecords : (Action.replaceExternalBindings items timeouts).records w.validator =
          Action.revocations w.validator.requests fun e => routes.lookup e.2.endpoint ≠ some e.2.route := by
        simp only [Action.records]
        split
        · rename_i v' hb
          rw [hb] at hv
          obtain rfl : v' = _ := hv
          rfl
        rename_i hb
        rw [hb] at hout
        cases hout
      change Sound ⟨(w.validator.replaceExternalBindings items timeouts).2,
        (Action.replaceExternalBindings items timeouts).records w.validator ++ w.log⟩
      rw [hrecords, hv]
      exact h.without (by simp) (Validator.build_objects hbuild)
  | close =>
    refine h.without ?_ le_rfl
    simp [Action.run, Validator.close]
  | isCurrent => exact h.unchanged rfl le_rfl
  | remaining => exact h.unchanged rfl le_rfl
  | routeFor => exact h.unchanged rfl le_rfl

structure Live (w : World) (o : Currency) (t : ℕ) (facts : Facts) : Prop where
  begun : .begun t facts ∈ w.log
  only : ∀ f, .begun t f ∈ w.log → f = facts
  opened : w.validator.closed = false
  attached : w.validator.core.isSome
  host : o.host = .yes ∧ o.hostAgain = .yes
  request : facts.guarded = true → o.request = .yes
  published : w.validator.routes.lookup facts.endpoint = some facts.route
  current : facts.route.guarded = false ∨ o.route = .yes
  clock : o.clock < facts.deadline
  wall : o.wall < facts.expiry
  alive : .revoked t ∉ w.log

theorem live_of_passed (h : Sound w) {o : Currency} {t : ℕ} {facts : Facts}
    (hp : w.validator.Passed o t facts) : ∃ f₀, Same f₀ facts ∧ Live w o t f₀ := by
  obtain ⟨f₀, hf₀, hs⟩ := h.begun t facts hp.entered
  refine ⟨f₀, hs, ⟨hf₀, fun f hf => h.only t f f₀ hf hf₀, hp.opened, hp.attached, hp.host, ?_, ?_, ?_, ?_, ?_, ?_⟩⟩
  · rw [hs.guarded]
    exact hp.request
  · rw [hs.endpoint, hs.route]
    exact hp.published
  · rw [hs.route]
    exact hp.route
  · rw [hs.deadline]
    exact hp.clock
  · rw [hs.expiry]
    exact hp.wall
  · exact fun hr => (h.revoked t hr).2 facts hp.entered

theorem passed_of_succeeds {v : Validator} {a : Action} {o : Currency} {t : ℕ} (ho : a.currency = some o)
    (h : a.succeeds v t) : ∃ facts, v.Passed o t facts := by
  cases a with
  | mint o' p =>
    obtain rfl := Option.some.inj ho
    obtain ⟨rfl, h⟩ := h
    obtain ⟨t', f, ht, hp, -⟩ := Validator.mint_ok h
    obtain rfl := Validator.Proof.ticket.inj ht
    exact ⟨f, hp⟩
  | consume o' p m c g =>
    obtain rfl := Option.some.inj ho
    obtain ⟨rfl, binding, h⟩ := h
    obtain ⟨t', f, ht, hp, -⟩ := Validator.consume_ok h
    obtain rfl := Validator.Proof.ticket.inj ht
    exact ⟨f, hp⟩
  | isCurrent o' p binding =>
    obtain rfl := Option.some.inj ho
    obtain ⟨rfl, h⟩ := h
    obtain ⟨t', f, ht, hp, -⟩ := Validator.isCurrent_true h
    obtain rfl := Validator.Proof.ticket.inj ht
    exact ⟨f, hp⟩
  | remaining o' clock wall p =>
    obtain rfl := Option.some.inj ho
    obtain ⟨rfl, seconds, h⟩ := h
    obtain ⟨t', f, ht, hp⟩ := Validator.remaining_ok h
    obtain rfl := Validator.Proof.ticket.inj ht
    exact ⟨f, hp⟩
  | routeFor o' p endpoint =>
    obtain rfl := Option.some.inj ho
    obtain ⟨rfl, route, h⟩ := h
    obtain ⟨t', f, ht, hp, -⟩ := Validator.routeFor_ok h
    obtain rfl := Validator.Proof.ticket.inj ht
    exact ⟨f, hp⟩
  | _ => exact h.elim

/-- A ticket serves while it is live and is consumed once at most, for the capability that its `begin` captured. -/
theorem one_invocation_per_proof {w : World} (hw : system.Reachable w) :
    (∀ (a : Action) (o : Currency) (t : ℕ), a.currency = some o → a.succeeds w.validator t → ∃ facts, Live w o t facts) ∧
    (∀ t, w.log.countP (Record.consumes t) ≤ 1) ∧
    (∀ (o : Currency) (t : ℕ) (m c : String) (g : ℤ), (Action.consume o (.ticket t) m c g).succeeds w.validator t →
      .minted t ∈ w.log ∧ (∀ m' c', .consumed t m' c' ∉ w.log) ∧
        ∃ facts, Live w o t facts ∧ facts.route.target = (m, c)) ∧
    (∀ items timeouts fault, (w.validator.replaceExternalBindings items timeouts).1 = .error fault →
      (w.validator.replaceExternalBindings items timeouts).2 = w.validator) ∧
    (∀ items timeouts, (w.validator.replaceExternalBindings items timeouts).1 = .ok () →
      (items.map Validator.Replacement.endpoint).Nodup → ∀ item ∈ items, ∀ declared, item.declared = some declared →
      ∀ old, w.validator.routes.lookup item.endpoint = some old → old.owner = declared.owner →
        targetKey old.target = declared.target →
        (w.validator.replaceExternalBindings items timeouts).2.routes.lookup item.endpoint = some old ∧
        ∀ t facts, (t, facts) ∈ w.validator.requests → facts.endpoint = item.endpoint → facts.route = old →
          (t, facts) ∈ (w.validator.replaceExternalBindings items timeouts).2.requests) := by
  have hs := hw.invariant (fun _ => sound_start) (fun _ _ h => sound_next h)
  refine ⟨?_, hs.once, ?_, fun _ _ _ h => Validator.replace_error h, ?_⟩
  · intro a o t ho h
    obtain ⟨facts, hp⟩ := passed_of_succeeds ho h
    obtain ⟨f₀, -, hlive⟩ := live_of_passed hs hp
    exact ⟨f₀, hlive⟩
  · intro o t m c g ⟨_, binding, h⟩
    obtain ⟨t', f, ht, hp, hminted, hnone, htarget, -⟩ := Validator.consume_ok h
    obtain rfl := Validator.Proof.ticket.inj ht
    obtain ⟨f₀, hsame, hlive⟩ := live_of_passed hs hp
    refine ⟨hs.minted t f hp.entered hminted, ?_, f₀, hlive, ?_⟩
    · intro m' c' hc
      have hsome := (hs.consumed t m' c' hc).2 f hp.entered
      rw [hnone] at hsome
      cases hsome
    · rw [hsame.route]
      exact htarget
  · intro items timeouts hok hnodup item hitem declared hd old hold howner htarget
    obtain ⟨bundled, routes, objects, merged, hbuild, hv⟩ := Validator.replace_ok hok
    have hkept := Validator.lookup_build_kept hbuild hnodup hitem hd hold howner htarget
    rw [hv]
    refine ⟨hkept, ?_⟩
    intro t facts hmem hendpoint hroute
    refine List.mem_filter.mpr ⟨hmem, ?_⟩
    rw [hendpoint, hroute]
    exact decide_eq_true hkept

namespace Sample

def validator : Validator where
  generation := 1
  bindings := [(.text "play", ("m", "c"))]
  bundledBindings := [(.text "play", ("m", "c"))]
  routes := [(.text "play", ⟨0, ("m", "c"), none, false⟩)]
  capabilityTimeouts := []
  bundledCapabilityTimeouts := []
  core := none
  closed := false
  requests := []
  objects := 1

theorem created : Validator.create 1 [(.text "play", ("m", "c"))] .absent = .ok validator := rfl

def now (seconds : ℚ) : Currency := ⟨.yes, .yes, .yes, .yes, seconds, seconds⟩

def entry : Validator.Entry := ⟨.text "play", some "k", .int 100, none, .absent⟩

def steps : List Action := [.attach 7, .begin entry (now 1) (now 1), .mint (now 2) (.ticket 1)]

def world : World := steps.foldl system.next ⟨validator, []⟩

def played : {w : World // ((w.validator.consume (now 3) (.ticket 1) "m" "c" 5).1.toOption).isSome = true} :=
  ⟨world, by decide +kernel⟩

theorem reachable : system.Reachable world := by
  refine ⟨⟨validator, []⟩, steps, ⟨rfl, _, _, _, created⟩, ?_⟩
  unfold steps
  exact .cons trivial (.cons trivial (.cons trivial (.nil _)))

end Sample

open Sample in
/-- The minted ticket is consumed once, for its own capability. -/
theorem one_invocation_per_proof_minted : .minted 1 ∈ world.log ∧ (∀ m' c', .consumed 1 m' c' ∉ world.log) ∧
      ∃ facts, Live world (now 3) 1 facts ∧ facts.route.target = ("m", "c") := by
  refine (one_invocation_per_proof reachable).2.2.1 (now 3) 1 "m" "c" 5 ⟨rfl, ?_⟩
  have hok : ((world.validator.consume (now 3) (.ticket 1) "m" "c" 5).1.toOption).isSome = true :=
    played.property
  cases h : (world.validator.consume (now 3) (.ticket 1) "m" "c" 5).1 with
  | error fault =>
    rw [h] at hok
    cases hok
  | ok binding => exact ⟨binding, rfl⟩

end GameLink.PublicWeb

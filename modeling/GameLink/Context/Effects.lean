import GameLink.Context.Forest

namespace GameLink.Context

open Foundation Contracts

namespace Issuer

variable {s s' : Issuer} {a : Answers} {v w : InvocationView} {id : String}

theorem requireChain_holds {n : ℕ} {u : Unit} (h : s.requireChain a n v = .ok u) : s.Holds v := by
  cases n with
  | zero => cases h
  | succ n =>
    simp only [requireChain, bind_eq_ok, refuseWhen_eq_ok] at h
    obtain ⟨-, hholds, -⟩ := h
    exact not_not.mp hholds

theorem require_eq_ok : s.require a v = .ok w ↔
    w = v ∧ checkInvocationView v = none ∧ s.requireChain a (s.allocated + 1) v = .ok () := by
  simp only [require, bind_eq_ok, validatePassed_eq_ok, pure, Except.pure, Except.ok.injEq]
  constructor
  · rintro ⟨_, hvalid, _, hchain, rfl⟩
    exact ⟨rfl, hvalid, hchain⟩
  · rintro ⟨rfl, hvalid, hchain⟩
    exact ⟨(), hvalid, (), hchain, rfl⟩

theorem require_holds (h : s.require a v = .ok w) : w = v ∧ s.Holds v := by
  obtain ⟨rfl, -, hchain⟩ := require_eq_ok.mp h
  exact ⟨rfl, requireChain_holds hchain⟩

theorem found_eq_ok {α : Type} {x : Option α} {e : Refusal} {y : α} : found x e = .ok y ↔ x = some y := by
  cases x with
  | none => simp [found]
  | some z => simp [found]

structure Entered (s : Issuer) (id : String) (v : InvocationView) (s' : Issuer) : Prop where
  invocationId : v.invocationId = id
  object : v.object = s.allocated
  valid : checkInvocationView v = none
  deployed : v.origin = .webPublic → s.deployed v.moduleId v.capabilityId = true
  issued : s'.issued = s.issued.replace v
  allocated : s'.allocated = s.allocated + 1
  deployment : s'.publicWebDeployment = s.publicWebDeployment
  side : ∀ id', s'.Mentions id' → s.Mentions id' ∨ id' = id
  placed : (v.parentId = none ∧ s'.children = s.children) ∨
    ∃ parent, s.Holds parent ∧ parent.origin ≠ .job ∧ v.parentId = some parent.invocationId ∧
      (parent.object < v.object → DerivedFrom parent v) ∧ s'.children = Broods.adopt s.children parent.invocationId id

theorem entered_issue {r : IssueRequest} (h : s.issue a id r = .ok (v, s')) : Entered s id v s' := by
  simp only [issue, bind_eq_ok, refuseWhen_eq_ok, validateContract_eq_ok, checkDeadline_eq_ok, pure, Except.pure,
    Except.ok.injEq, Prod.mk.injEq] at h
  obtain ⟨-, hweb, -, -, -, -, -, -, -, -, -, -, -, -, -, hvalid, -, -, rfl, rfl⟩ := h
  exact {
    invocationId := rfl
    object := rfl
    valid := hvalid
    deployed := fun horigin => absurd horigin hweb
    issued := rfl
    allocated := rfl
    deployment := rfl
    side := fun _ => .inl
    placed := .inl ⟨rfl, rfl⟩ }

theorem entered_issueJob {r : JobRequest} (h : s.issueJob a id r = .ok (v, s')) : Entered s id v s' := by
  simp only [issueJob, bind_eq_ok, refuseWhen_eq_ok, validateContract_eq_ok, checkDeadline_eq_ok, pure, Except.pure,
    Except.ok.injEq, Prod.mk.injEq] at h
  obtain ⟨-, -, -, hvalid, -, -, rfl, rfl⟩ := h
  exact {
    invocationId := rfl
    object := rfl
    valid := hvalid
    deployed := fun horigin => by cases horigin
    issued := rfl
    allocated := rfl
    deployment := rfl
    side := by
      intro id' hid'
      rcases hid' with h | h | h | h
      · exact .inl (.inl h)
      · exact .inl (.inr (.inl h))
      · by_cases hsame : id' = id
        · exact .inr hsame
        · rw [Table.get_replace, if_neg (Ne.symm hsame)] at h
          exact .inl (.inr (.inr (.inl h)))
      · exact .inl (.inr (.inr (.inr h)))
    placed := .inl ⟨rfl, rfl⟩ }

theorem entered_issuePublicWeb {r : WebRequest} (h : s.issuePublicWeb a id r = .ok (v, s')) : Entered s id v s' := by
  simp only [issuePublicWeb, bind_eq_ok, refuseWhen_eq_ok, found_eq_ok, validateContract_eq_ok, checkDeadline_eq_ok,
    pure, Except.pure, Except.ok.injEq, Prod.mk.injEq] at h
  obtain ⟨-, hdeployed, _, -, binding, -, -, -, -, hvalid, -, -, rfl, rfl⟩ := h
  exact {
    invocationId := rfl
    object := rfl
    valid := hvalid
    deployed := fun _ => Bool.not_eq_false _ ▸ (not_or.mp hdeployed).2
    issued := rfl
    allocated := rfl
    deployment := rfl
    side := by
      intro id' hid'
      rcases hid' with h | h | h | h
      · exact .inl (.inl h)
      · exact .inl (.inr (.inl h))
      · exact .inl (.inr (.inr (.inl h)))
      by_cases hsame : id' = id
      · exact .inr hsame
      · rw [Table.get_replace, if_neg (Ne.symm hsame)] at h
        exact .inl (.inr (.inr (.inr h)))
    placed := .inl ⟨rfl, rfl⟩ }

variable {r : DeriveRequest}

theorem derivedFrom_view {object : ℕ} (hobject : v.object < object)
    (hdeadline : outlives v.deadline (r.effectiveDeadline v) ≠ true) : DerivedFrom v (r.view v object id) where
  older := hobject
  origin := rfl
  actor := rfl
  subscription := ⟨rfl, rfl⟩
  deadline := by
    intro d hd
    change ∃ e, r.effectiveDeadline v = some e ∧ e ≤ d
    cases he : r.effectiveDeadline v with
    | none => simp [outlives, hd, he] at hdeadline
    | some e =>
      rw [hd, he] at hdeadline
      exact ⟨e, rfl, not_lt.mp fun hlt => hdeadline (decide_eq_true hlt)⟩
  grant := by
    by_cases hcrosses : r.crosses v
    · refine .inr ⟨?_, ?_⟩
      · exact if_pos hcrosses
      · exact if_pos hcrosses
    refine .inl ⟨if_neg hcrosses, if_neg hcrosses, ?_⟩
    intro hgrant
    by_contra hmodule
    exact hcrosses ⟨hmodule, .inl hgrant⟩

theorem entered_derive {parent : InvocationView} (h : s.derive a id parent r = .ok (v, s')) :
    Entered s id v s' := by
  simp only [derive, bind_eq_ok, refuseWhen_eq_ok, validatePassed_eq_ok, checkDeadline_eq_ok, pure, Except.pure,
    Except.ok.injEq, Prod.mk.injEq] at h
  obtain ⟨-, -, parent', hrequire, -, hjob, -, hdeployed, -, -, -, hdeadline, -, ⟨hvalid, -⟩, rfl, rfl⟩ := h
  obtain ⟨rfl, hholds⟩ := require_holds hrequire
  exact {
    invocationId := rfl
    object := rfl
    valid := hvalid
    deployed := by
      intro horigin
      by_contra hnot
      exact hdeployed ⟨horigin, Bool.not_eq_true _ ▸ hnot⟩
    issued := rfl
    allocated := rfl
    deployment := rfl
    side := fun _ => .inl
    placed := .inr ⟨parent', hholds, hjob, rfl, fun hobject => derivedFrom_view hobject hdeadline, rfl⟩ }

structure Sidecar (s s' : Issuer) : Prop where
  issued : s'.issued = s.issued
  children : s'.children = s.children
  allocated : s'.allocated = s.allocated
  side : ∀ id, s'.Mentions id → s.Mentions id ∨ ∃ v, s.issued.get id = some v

theorem Sidecar.refl (s : Issuer) : Sidecar s s := ⟨rfl, rfl, rfl, fun _ => .inl⟩

theorem get_replace_ne_none {ρ : Type} {key : ρ → String} {t : Table key} {r : ρ} {id' : String}
    (h : (t.replace r).get id' ≠ none) : t.get id' ≠ none ∨ id' = key r := by
  rw [Table.get_replace] at h
  by_cases hid : key r = id'
  · exact .inr hid.symm
  · rw [if_neg hid] at h
    exact .inl h

theorem get_delete_ne_none {ρ : Type} {key : ρ → String} {t : Table key} {p : ρ → Bool} {id' : String}
    (h : (t.delete p).get id' ≠ none) : t.get id' ≠ none := by
  intro hnone
  rw [Table.get_delete, hnone] at h
  exact h rfl

theorem sidecar_dropLease : Sidecar s (s.dropLease id) where
  issued := rfl
  children := rfl
  allocated := rfl
  side _ h := .inl (h.imp get_delete_ne_none fun h => h)

variable {lease : Option ℕ}

theorem sidecar_attachLease (h : s.attachLease a v lease = .ok s') : Sidecar s s' := by
  simp only [attachLease, bind_eq_ok, validatePassed_eq_ok, found_eq_ok, refuseWhen_eq_ok, pure, Except.pure,
    Except.ok.injEq] at h
  obtain ⟨-, -, v', hrequire, lease', -, -, -, rfl⟩ := h
  obtain ⟨rfl, hholds⟩ := require_holds hrequire
  refine ⟨rfl, rfl, rfl, ?_⟩
  intro id' hid'
  rcases hid' with h | h
  · rcases get_replace_ne_none h with h | rfl
    · exact .inl (.inl h)
    · exact .inr ⟨v', hholds⟩
  · exact .inl (.inr h)

theorem sidecar_detachLease (h : s.detachLease a v lease = .ok s') : Sidecar s s' := by
  simp only [detachLease, bind_eq_ok, validatePassed_eq_ok, refuseWhen_eq_ok, pure, Except.pure, Except.ok.injEq] at h
  obtain ⟨-, -, v', -, -, -, rfl⟩ := h
  exact sidecar_dropLease

theorem sidecar_detachLeaseForCleanup {x : Bool × Issuer}
    (h : s.detachLeaseForCleanup v lease = .ok x) : Sidecar s x.2 := by
  simp only [detachLeaseForCleanup, bind_eq_ok, validatePassed_eq_ok] at h
  obtain ⟨-, -, h⟩ := h
  split at h
  · cases h
    exact .refl s
  simp only [bind_eq_ok, refuseWhen_eq_ok, pure, Except.pure, Except.ok.injEq] at h
  obtain ⟨-, -, -, -, rfl⟩ := h
  exact sidecar_dropLease

variable {r : MessageRequest} {row : MessageRow}

theorem messageRow_holds {a₁ a₂ : Answers}
    (h : s.messageRow a₁ a₂ v r = .ok row) : s.Holds v ∧ row.invocationId = v.invocationId := by
  simp only [messageRow, bind_eq_ok, pure, Except.pure, Except.ok.injEq] at h
  obtain ⟨v', hrequire, -, -, -, -, -, -, -, -, -, -, rfl⟩ := h
  obtain ⟨rfl, hholds⟩ := require_holds hrequire
  exact ⟨hholds, rfl⟩

theorem sidecar_withMessage (hv : s.Holds v) (hrow : row.invocationId = v.invocationId) :
    Sidecar s (s.withMessage row) := by
  refine ⟨rfl, rfl, rfl, ?_⟩
  intro id' hid'
  rcases hid' with h | h | h
  · exact .inl (.inl h)
  · rcases get_replace_ne_none h with h | rfl
    · exact .inl (.inr (.inl h))
    · rw [hrow]
      exact .inr ⟨v, hv⟩
  · exact .inl (.inr (.inr h))

theorem sidecar_dropMessage : Sidecar s (s.dropMessage id) where
  issued := rfl
  children := rfl
  allocated := rfl
  side _ h := .inl (h.imp (fun h => h) (Or.imp get_delete_ne_none fun h => h))

theorem Sidecar.trans {s'' : Issuer} (h : Sidecar s s') (h' : Sidecar s' s'') : Sidecar s s'' where
  issued := h'.issued.trans h.issued
  children := h'.children.trans h.children
  allocated := h'.allocated.trans h.allocated
  side id hid := by
    rcases h'.side id hid with hid | hid
    · exact h.side id hid
    · rw [h.issued] at hid
      exact .inr hid

theorem sidecar_attachMessage {a₁ a₂ a₃ : Answers} {sourceCurrent : Bool} :
    Sidecar s (s.attachMessage a₁ a₂ a₃ sourceCurrent v r).2 := by
  unfold attachMessage
  cases hrow : s.messageRow a₁ a₂ v r with
  | error e => exact .refl s
  | ok row =>
    obtain ⟨hholds, hid⟩ := messageRow_holds hrow
    have hwith := sidecar_withMessage hholds hid
    dsimp only
    cases (s.withMessage row).requireMessageCurrent a₃ sourceCurrent v with
    | error e => exact hwith.trans sidecar_dropMessage
    | ok _ => exact hwith

end Issuer

end GameLink.Context

import GameLink.Context.Issuer

namespace GameLink.Context

open Foundation Contracts

structure DerivedFrom (parent v : InvocationView) : Prop where
  older : parent.object < v.object
  origin : v.origin = parent.origin
  actor : v.actorId = parent.actorId
  subscription : v.subscriptionId = parent.subscriptionId ∧ v.subscriptionRevision = parent.subscriptionRevision
  deadline : ∀ d, parent.deadline = some d → ∃ e, v.deadline = some e ∧ e ≤ d
  grant : (v.grantId = parent.grantId ∧ v.grantRevision = parent.grantRevision ∧
    (parent.grantId ≠ none → v.moduleId = parent.moduleId)) ∨ (v.grantId = none ∧ v.grantRevision = none)

namespace Issuer

def Holds (s : Issuer) (v : InvocationView) : Prop := s.issued.get v.invocationId = some v

def Parent (s : Issuer) (v w : InvocationView) : Prop := ∃ p, v.parentId = some p ∧ s.issued.get p = some w

def Chain (s : Issuer) : InvocationView → InvocationView → Prop := Relation.ReflTransGen s.Parent

def Mentions (s : Issuer) (id : String) : Prop :=
  s.leases.get id ≠ none ∨ s.messages.get id ≠ none ∨ s.jobProofs.get id ≠ none ∨ s.webProofs.get id ≠ none

structure Sound (s : Issuer) : Prop where
  made : ∀ v, s.Holds v → v.object < s.allocated
  valid : ∀ v, s.Holds v → checkInvocationView v = none
  derived : ∀ v p, s.Holds v → v.parentId = some p → ∃ w, s.issued.get p = some w ∧ DerivedFrom w v
  children : ∀ p id, id ∈ Broods.members s.children p ↔ ∃ v, s.issued.get id = some v ∧ v.parentId = some p
  kept : ∀ p b, s.children.get p = some b → b.members ≠ []
  side : ∀ id, s.Mentions id → ∃ v, s.issued.get id = some v

variable {s s' : Issuer} {v w x : InvocationView} {id : String}

theorem invocationId_of_get (h : s.issued.get id = some v) : v.invocationId = id := Table.key_of_get h

theorem holds_of_get (h : s.issued.get id = some v) : s.Holds v := by
  rw [Holds, invocationId_of_get h]
  exact h

theorem Parent.holds (h : s.Parent v w) : s.Holds w := by
  obtain ⟨p, -, hget⟩ := h
  exact holds_of_get hget

theorem Chain.holds (h : s.Chain v w) (hv : s.Holds v) : s.Holds w := by
  induction h with
  | refl => exact hv
  | tail _ hparent _ => exact hparent.holds

theorem Sound.parent (hs : s.Sound) (hv : s.Holds v) (h : s.Parent v w) : DerivedFrom w v := by
  obtain ⟨p, hp, hget⟩ := h
  obtain ⟨w', hget', hderived⟩ := hs.derived v p hv hp
  rw [hget] at hget'
  obtain rfl := Option.some.inj hget'
  exact hderived

theorem Sound.older (hs : s.Sound) (hv : s.Holds v) (h : s.Chain v w) : w.object ≤ v.object := by
  induction h with
  | refl => exact le_rfl
  | tail hchain hparent ih => exact (hs.parent (Chain.holds hchain hv) hparent).older.le.trans ih

theorem mem_orphaned {p c : String} : c ∈ Broods.members (s.orphaned v) p ↔
    c ∈ Broods.members s.children p ∧ ¬ (v.parentId = some p ∧ c = v.invocationId) := by
  unfold orphaned
  cases hp : v.parentId with
  | none => simp
  | some parentId => rw [Broods.mem_disown, Option.some_inj, eq_comm (a := p)]

theorem Sound.below_iff (hs : s.Sound) (hv : s.Holds v) :
    Broods.Below (s.orphaned v) v.invocationId id ↔ ∃ x, s.issued.get id = some x ∧ s.Chain x v := by
  constructor
  · intro h
    induction h with
    | refl => exact ⟨v, hv, .refl⟩
    | @tail p c _ hc ih =>
      obtain ⟨x, hx, hchain⟩ := ih
      obtain ⟨y, hy, hparent⟩ := (hs.children p c).mp (mem_orphaned.mp hc).1
      exact ⟨y, hy, .head ⟨p, hparent, hx⟩ hchain⟩
  · rintro ⟨x, hx, hchain⟩
    obtain rfl := invocationId_of_get hx
    induction hchain using Relation.ReflTransGen.head_induction_on with
    | refl => exact .refl
    | @head x y hparent hchain ih =>
      have hy := hparent.holds
      have hderived := hs.parent hx hparent
      refine (ih hy).tail ?_
      obtain ⟨p, hp, hget⟩ := hparent
      obtain rfl := invocationId_of_get hget
      refine mem_orphaned.mpr ⟨(hs.children _ _).mpr ⟨x, hx, hp⟩, ?_⟩
      rintro ⟨-, hsame⟩
      have heq : x = v := by
        have hvx : s.issued.get x.invocationId = some v := by
          rw [hsame]
          exact hv
        exact Option.some.inj (hx.symm.trans hvx)
      subst heq
      exact absurd (hs.older hy hchain) (Nat.not_le.mpr hderived.older)

theorem Sound.release (hs : s.Sound) (hv : s.Holds v) :
    ∃ removed children, s.release v = .ok (s.without removed children) ∧
      (∀ id, id ∈ removed ↔ ∃ x, s.issued.get id = some x ∧ s.Chain x v) ∧
      ∀ p, children.get p = if p ∈ removed then none else (s.orphaned v).get p := by
  have hreturns : ∃ x, Broods.sweep (Broods.size (s.orphaned v) + 1) [v.invocationId] [] (s.orphaned v) = some x := by
    apply Broods.sweep_returns
    rw [List.length_singleton]
    omega
  obtain ⟨⟨removed, children⟩, hsweep⟩ := hreturns
  obtain ⟨hremoved, hrest⟩ := Broods.sweep_spec (.start (s.orphaned v) v.invocationId) hsweep
  refine ⟨removed, children, ?_, fun id => (hremoved id).trans (hs.below_iff hv), hrest⟩
  simp only [Issuer.release, bind_eq_ok, validatePassed_eq_ok, refuseWhen_eq_ok, hsweep]
  exact ⟨(), hs.valid v hv, (), not_not.mpr hv, _, rfl, rfl⟩

end Issuer

end GameLink.Context

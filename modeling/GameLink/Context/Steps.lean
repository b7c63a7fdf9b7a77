import GameLink.Context.Effects

namespace GameLink.Context

open Foundation Contracts Issuer

variable {s s' : Issuer} {c : Call} {v w x : InvocationView} {id : String}

structure Quiet (s : Issuer) (c : Call) : Prop where
  issues : ∀ v, ¬ c.HandsOut s v
  releases : ∀ w, c = .release w → ¬ s.Holds w

inductive Moved (s : Issuer) (c : Call) : Issuer → Prop
  | sidecar {s' : Issuer} (hside : Sidecar s s')
      (hdeployment : s'.publicWebDeployment = s.publicWebDeployment ∨ ∃ d, c = .replaceExternal d) (hquiet : Quiet s c) :
      Moved s c s'
  | entered {s' : Issuer} {id : String} {v : InvocationView} (hentered : Entered s id v s')
      (hfresh : s.issued.get id = none) (hissues : ∀ x, c.HandsOut s x ↔ x = v) (hreleases : ∀ w, c ≠ .release w) :
      Moved s c s'
  | released {w : InvocationView} (hw : s.Holds w) (hc : c = .release w) {removed : List String}
      {children : Broods String} (hremoved : ∀ id, id ∈ removed ↔ ∃ x, s.issued.get id = some x ∧ s.Chain x w)
      (hchildren : ∀ p, children.get p = if p ∈ removed then none else (s.orphaned w).get p) :
      Moved s c (s.without removed children)

theorem moved_of_issued (hfresh : s.issued.get id = none)
    (hrun : c.run s = Call.orElse s (c.issued s) Prod.snd) (hentered : ∀ v s', c.issued s = .ok (v, s') → Entered s id v s')
    (hreleases : ∀ w, c ≠ .release w) : Moved s c (c.run s) := by
  rw [hrun]
  cases h : c.issued s with
  | error e =>
    refine .sidecar (.refl s) (.inl rfl) ⟨?_, fun w hw => absurd hw (hreleases w)⟩
    rintro v ⟨s', hv⟩
    rw [h] at hv
    cases hv
  | ok r =>
    refine .entered (hentered r.1 r.2 h) hfresh ?_ hreleases
    intro x
    constructor
    · rintro ⟨s', hx⟩
      rw [h] at hx
      cases hx
      rfl
    · rintro rfl
      exact ⟨r.2, h⟩

theorem quiet_of_silent (hissued : c.issued s = .error .neverReturns) (hreleases : ∀ w, c ≠ .release w) : Quiet s c := by
  refine ⟨?_, fun w hw => absurd hw (hreleases w)⟩
  rintro v ⟨s', hv⟩
  rw [hissued] at hv
  cases hv

theorem moved_of_sidecar (hside : Sidecar s s') (hdeployment : s'.publicWebDeployment = s.publicWebDeployment)
    (hissued : c.issued s = .error .neverReturns) (hreleases : ∀ w, c ≠ .release w) : Moved s c s' :=
  .sidecar hside (.inl hdeployment) (quiet_of_silent hissued hreleases)

theorem orElse_induct {α : Type} {y : Except Refusal α} {f : α → Issuer} {P : Issuer → Prop} (hs : P s)
    (hok : ∀ r, y = .ok r → P (f r)) : P (Call.orElse s y f) := by
  cases y with
  | error e => exact hs
  | ok r => exact hok r rfl

variable {lease : Option ℕ}

theorem deployment_attachLease {a : Answers} (h : s.attachLease a v lease = .ok s') :
    s'.publicWebDeployment = s.publicWebDeployment := by
  simp only [attachLease, bind_eq_ok, pure, Except.pure, Except.ok.injEq] at h
  obtain ⟨-, -, v', -, lease', -, -, -, rfl⟩ := h
  rfl

theorem deployment_detachLease {a : Answers} (h : s.detachLease a v lease = .ok s') :
    s'.publicWebDeployment = s.publicWebDeployment := by
  simp only [detachLease, bind_eq_ok, pure, Except.pure, Except.ok.injEq] at h
  obtain ⟨-, -, v', -, -, -, rfl⟩ := h
  rfl

theorem deployment_detachLeaseForCleanup {r : Bool × Issuer}
    (h : s.detachLeaseForCleanup v lease = .ok r) : r.2.publicWebDeployment = s.publicWebDeployment := by
  simp only [detachLeaseForCleanup, bind_eq_ok, validatePassed_eq_ok] at h
  obtain ⟨-, -, h⟩ := h
  split at h
  · cases h
    rfl
  simp only [bind_eq_ok, pure, Except.pure, Except.ok.injEq] at h
  obtain ⟨-, -, -, -, rfl⟩ := h
  rfl

theorem deployment_attachMessage {a₁ a₂ a₃ : Answers} {sourceCurrent : Bool} {r : MessageRequest} :
    (s.attachMessage a₁ a₂ a₃ sourceCurrent v r).2.publicWebDeployment = s.publicWebDeployment := by
  unfold attachMessage
  cases s.messageRow a₁ a₂ v r with
  | error e => rfl
  | ok row =>
    dsimp only
    cases (s.withMessage row).requireMessageCurrent a₃ sourceCurrent v with
    | error e => rfl
    | ok _ => rfl

theorem release_of_not_holds (h : ¬ s.Holds w) : ∀ s', s.release w ≠ .ok s' := by
  intro s' hs'
  simp only [Issuer.release, bind_eq_ok, refuseWhen_eq_ok] at hs'
  obtain ⟨-, -, -, hholds, -⟩ := hs'
  exact h (not_not.mp hholds)

theorem moved_release (hs : s.Sound) : Moved s (.release w) ((Call.release w).run s) := by
  change Moved s _ (Call.orElse s (s.release w) id)
  by_cases hw : s.Holds w
  · obtain ⟨removed, children, hrelease, hremoved, hchildren⟩ := hs.release hw
    rw [hrelease]
    exact .released hw rfl hremoved hchildren
  have hquiet : Quiet s (.release w) := by
    refine ⟨?_, ?_⟩
    · rintro v ⟨s', hv⟩
      cases hv
    intro w' hw'
    cases hw'
    exact hw
  exact orElse_induct (.sidecar (.refl s) (.inl rfl) hquiet) fun s' hs' => absurd hs' (release_of_not_holds hw s')

theorem Call.moved (hs : s.Sound) (hc : issuer.allowed s c) : Moved s c (c.run s) := by
  cases c with
  | issue a id r => exact moved_of_issued (hc id rfl) rfl (fun _ _ => entered_issue) (by rintro w ⟨⟩)
  | issueJob a id r => exact moved_of_issued (hc id rfl) rfl (fun _ _ => entered_issueJob) (by rintro w ⟨⟩)
  | issuePublicWeb a id r =>
    exact moved_of_issued (hc id rfl) rfl (fun _ _ => entered_issuePublicWeb) (by rintro w ⟨⟩)
  | derive a id parent r => exact moved_of_issued (hc id rfl) rfl (fun _ _ => entered_derive) (by rintro w ⟨⟩)
  | attachLease a v lease =>
    exact orElse_induct (moved_of_sidecar (.refl s) rfl rfl (by rintro w ⟨⟩)) fun r hr =>
      moved_of_sidecar (sidecar_attachLease hr) (deployment_attachLease hr) rfl (by rintro w ⟨⟩)
  | attachMessage a₁ a₂ a₃ sourceCurrent v r =>
    exact moved_of_sidecar sidecar_attachMessage deployment_attachMessage rfl (by rintro w ⟨⟩)
  | detachLease a v lease =>
    exact orElse_induct (moved_of_sidecar (.refl s) rfl rfl (by rintro w ⟨⟩)) fun r hr =>
      moved_of_sidecar (sidecar_detachLease hr) (deployment_detachLease hr) rfl (by rintro w ⟨⟩)
  | detachLeaseForCleanup v lease =>
    exact orElse_induct (moved_of_sidecar (.refl s) rfl rfl (by rintro w ⟨⟩)) fun r hr =>
      moved_of_sidecar (sidecar_detachLeaseForCleanup hr) (deployment_detachLeaseForCleanup hr) rfl (by rintro w ⟨⟩)
  | release w => exact moved_release hs
  | registerJobSource source => exact moved_of_sidecar ⟨rfl, rfl, rfl, fun _ => .inl⟩ rfl rfl (by rintro w ⟨⟩)
  | unregisterJobSource source => exact moved_of_sidecar ⟨rfl, rfl, rfl, fun _ => .inl⟩ rfl rfl (by rintro w ⟨⟩)
  | replaceExternal deployment =>
    refine orElse_induct (moved_of_sidecar (.refl s) rfl rfl (by rintro w ⟨⟩)) ?_
    intro r hr
    simp only [Issuer.replaceExternal, bind_eq_ok, pure, Except.pure, Except.ok.injEq] at hr
    obtain ⟨-, -, -, -, rfl⟩ := hr
    exact .sidecar ⟨rfl, rfl, rfl, fun _ => .inl⟩ (.inr ⟨deployment, rfl⟩)
      (quiet_of_silent rfl (by rintro w ⟨⟩))

namespace Issuer

theorem Sidecar.holds (h : Sidecar s s') : s'.Holds v ↔ s.Holds v := by rw [Holds, Holds, h.issued]

theorem Sidecar.sound (h : Sidecar s s') (hs : s.Sound) : s'.Sound where
  made v hv := by
    rw [h.allocated]
    exact hs.made v (h.holds.mp hv)
  valid v hv := hs.valid v (h.holds.mp hv)
  derived v p hv hp := by
    rw [h.issued]
    exact hs.derived v p (h.holds.mp hv) hp
  children p id := by
    rw [h.children, h.issued]
    exact hs.children p id
  kept p b hb := by
    rw [h.children] at hb
    exact hs.kept p b hb
  side id hid := by
    rw [h.issued]
    rcases h.side id hid with hid | hid
    · exact hs.side id hid
    · exact hid

section

variable (h : Entered s id v s')
include h

theorem Entered.get (k : String) :
    s'.issued.get k = if k = id then some v else s.issued.get k := by
  rw [h.issued, Table.get_replace, h.invocationId]
  by_cases hk : k = id
  · rw [if_pos hk, if_pos hk.symm]
  · rw [if_neg hk, if_neg (Ne.symm hk)]

theorem Entered.get_of_get (hfresh : s.issued.get id = none) {k : String}
    (hk : s.issued.get k = some x) : s'.issued.get k = some x := by
  rw [h.get]
  by_cases hid : k = id
  · rw [hid, hfresh] at hk
    cases hk
  · rw [if_neg hid]
    exact hk

theorem Entered.holds (hfresh : s.issued.get id = none) : s'.Holds x ↔ x = v ∨ s.Holds x := by
  constructor
  · intro hx
    rw [Holds, h.get] at hx
    by_cases hid : x.invocationId = id
    · rw [if_pos hid] at hx
      exact .inl (Option.some.inj hx).symm
    · rw [if_neg hid] at hx
      exact .inr hx
  · rintro (rfl | hx)
    · rw [Holds, h.get, if_pos h.invocationId]
    · exact h.get_of_get hfresh hx

theorem Entered.mem_children {p k : String} :
    k ∈ Broods.members s'.children p ↔ k ∈ Broods.members s.children p ∨ (v.parentId = some p ∧ k = id) := by
  rcases h.placed with ⟨hroot, hchildren⟩ | ⟨parent, -, -, hparent, -, hchildren⟩
  · rw [hchildren, hroot]
    simp
  · rw [hchildren, Broods.mem_adopt, hparent, Option.some_inj, eq_comm (a := p)]

theorem Entered.sound (hs : s.Sound) (hfresh : s.issued.get id = none) : s'.Sound where
  made x hx := by
    rw [h.allocated]
    rcases (h.holds hfresh).mp hx with rfl | hx
    · rw [h.object]
      exact Nat.lt_succ_self _
    · exact (hs.made x hx).trans (Nat.lt_succ_self _)
  valid x hx := by
    rcases (h.holds hfresh).mp hx with rfl | hx
    · exact h.valid
    · exact hs.valid x hx
  derived x p hx hp := by
    rcases (h.holds hfresh).mp hx with rfl | hx
    · rcases h.placed with ⟨hroot, -⟩ | ⟨parent, hparent, -, hid, hderived, -⟩
      · rw [hroot] at hp
        cases hp
      rw [hid] at hp
      obtain rfl := Option.some.inj hp
      refine ⟨parent, h.get_of_get hfresh hparent, hderived ?_⟩
      rw [h.object]
      exact hs.made parent hparent
    · obtain ⟨w, hw, hderived⟩ := hs.derived x p hx hp
      exact ⟨w, h.get_of_get hfresh hw, hderived⟩
  children p k := by
    rw [h.mem_children, hs.children p k]
    constructor
    · rintro (⟨x, hx, hp⟩ | ⟨hp, rfl⟩)
      · exact ⟨x, h.get_of_get hfresh hx, hp⟩
      · exact ⟨v, by rw [h.get, if_pos rfl], hp⟩
    rintro ⟨x, hx, hp⟩
    rw [h.get] at hx
    by_cases hk : k = id
    · rw [if_pos hk] at hx
      obtain rfl := Option.some.inj hx
      exact .inr ⟨hp, hk⟩
    · rw [if_neg hk] at hx
      exact .inl ⟨x, hx, hp⟩
  kept p b hb := by
    rcases h.placed with ⟨-, hchildren⟩ | ⟨parent, -, -, -, -, hchildren⟩
    · rw [hchildren] at hb
      exact hs.kept p b hb
    rw [hchildren, Broods.get_adopt] at hb
    split at hb
    · obtain rfl := Option.some.inj hb
      exact List.ne_nil_of_mem List.mem_insert_self
    · exact hs.kept p b hb
  side k hk := by
    rcases h.side k hk with hk | rfl
    · obtain ⟨x, hx⟩ := hs.side k hk
      exact ⟨x, h.get_of_get hfresh hx⟩
    · exact ⟨v, by rw [h.get, if_pos rfl]⟩

end

section

variable {removed : List String} {children : Broods String}

theorem get_without (k : String) :
    (s.without removed children).issued.get k = if k ∈ removed then none else s.issued.get k :=
  Table.get_delete_keys s.issued removed k

theorem mentions_without {k : String} (h : (s.without removed children).Mentions k) : k ∉ removed ∧ s.Mentions k := by
  have hrow : ∀ {ρ : Type} {key : ρ → String} {t : Table key},
      (t.delete fun r => decide (key r ∈ removed)).get k ≠ none → k ∉ removed ∧ t.get k ≠ none := by
    intro ρ key t ht
    rw [Table.get_delete_keys] at ht
    by_cases hk : k ∈ removed
    · rw [if_pos hk] at ht
      exact absurd rfl ht
    · rw [if_neg hk] at ht
      exact ⟨hk, ht⟩
  rcases h with h | h | h | h
  · exact ⟨(hrow h).1, .inl (hrow h).2⟩
  · exact ⟨(hrow h).1, .inr (.inl (hrow h).2)⟩
  · exact ⟨(hrow h).1, .inr (.inr (.inl (hrow h).2))⟩
  · exact ⟨(hrow h).1, .inr (.inr (.inr (hrow h).2))⟩

theorem holds_without (hremoved : ∀ id, id ∈ removed ↔ ∃ x, s.issued.get id = some x ∧ s.Chain x w) :
    (s.without removed children).Holds v ↔ s.Holds v ∧ ¬ s.Chain v w := by
  rw [Holds, get_without]
  by_cases hv : v.invocationId ∈ removed
  · rw [if_pos hv]
    constructor
    · intro h
      cases h
    rintro ⟨hholds, hchain⟩
    obtain ⟨x, hx, hxw⟩ := (hremoved _).mp hv
    rw [hholds] at hx
    obtain rfl := Option.some.inj hx
    exact absurd hxw hchain
  · rw [if_neg hv]
    constructor
    · intro hholds
      exact ⟨hholds, fun hchain => hv ((hremoved _).mpr ⟨v, hholds, hchain⟩)⟩
    · intro h
      exact h.1

theorem sound_without (hs : s.Sound) (hw : s.Holds w)
    (hremoved : ∀ id, id ∈ removed ↔ ∃ x, s.issued.get id = some x ∧ s.Chain x w)
    (hchildren : ∀ p, children.get p = if p ∈ removed then none else (s.orphaned w).get p) :
    (s.without removed children).Sound where
  made v hv := hs.made v ((holds_without hremoved).mp hv).1
  valid v hv := hs.valid v ((holds_without hremoved).mp hv).1
  derived v p hv hp := by
    obtain ⟨hholds, hchain⟩ := (holds_without hremoved).mp hv
    obtain ⟨parent, hparent, hderived⟩ := hs.derived v p hholds hp
    refine ⟨parent, ?_, hderived⟩
    rw [get_without, if_neg]
    · exact hparent
    intro hgone
    obtain ⟨y, hy, hyw⟩ := (hremoved p).mp hgone
    exact hchain (.head ⟨p, hp, hy⟩ hyw)
  children p k := by
    have hleft : k ∈ Broods.members children p ↔ p ∉ removed ∧ k ∈ Broods.members (s.orphaned w) p := by
      rw [Broods.members, hchildren]
      by_cases hp : p ∈ removed
      · simp [hp]
      · simp [hp, Broods.members]
    change k ∈ Broods.members children p ↔ _
    rw [hleft, mem_orphaned, hs.children p k, get_without]
    constructor
    · rintro ⟨hp, ⟨x, hx, hparent⟩, hne⟩
      refine ⟨x, ?_, hparent⟩
      rw [if_neg]
      · exact hx
      intro hk
      obtain ⟨y, hy, hchain⟩ := (hremoved k).mp hk
      rw [hx] at hy
      obtain rfl := Option.some.inj hy
      obtain heq | ⟨y, ⟨q, hq, hy⟩, hyw⟩ := hchain.cases_head
      · subst heq
        exact hne ⟨hparent, (invocationId_of_get hx).symm⟩
      rw [hparent] at hq
      obtain rfl := Option.some.inj hq
      exact hp ((hremoved p).mpr ⟨y, hy, hyw⟩)
    · rintro ⟨x, hx, hparent⟩
      by_cases hk : k ∈ removed
      · rw [if_pos hk] at hx
        cases hx
      rw [if_neg hk] at hx
      refine ⟨?_, ⟨x, hx, hparent⟩, ?_⟩
      · intro hp
        obtain ⟨y, hy, hyw⟩ := (hremoved p).mp hp
        exact hk ((hremoved k).mpr ⟨x, hx, .head ⟨p, hparent, hy⟩ hyw⟩)
      · rintro ⟨-, rfl⟩
        exact hk ((hremoved _).mpr ⟨w, hw, .refl⟩)
  kept p b hb := by
    change children.get p = some b at hb
    rw [hchildren] at hb
    split at hb
    · cases hb
    unfold orphaned at hb
    split at hb
    · exact hs.kept p b hb
    · exact Broods.get_disown_some hb hs.kept
  side k hk := by
    obtain ⟨hkept, hmentions⟩ := mentions_without hk
    obtain ⟨v, hv⟩ := hs.side k hmentions
    exact ⟨v, by rw [get_without, if_neg hkept]; exact hv⟩

end

end Issuer

end GameLink.Context

import GameLink.Context.Steps
import GameLink.Foundation.Memory

namespace GameLink.Context

open Foundation Contracts Issuer

variable {s s' s₀ : Issuer} {a : Answers} {c : Call} {calls : List Call} {v w x : InvocationView} {id : String}

structure Current (s : Issuer) (a : Answers) (v : InvocationView) : Prop where
  deadline : ∀ d, v.deadline = some d → a.now v < d
  job : v.origin = .job → s.jobCurrent a v = true
  web : v.origin = .webPublic → v.parentId = none → s.webCurrent a v = true

def Deployed (s : Issuer) (v : InvocationView) : Prop :=
  v.origin = .webPublic → s.deployed v.moduleId v.capabilityId = true

theorem requireChain_ok_iff (hs : s.Sound) {n : ℕ} (hv : s.Holds v) (hn : v.object < n) :
    s.requireChain a n v = .ok () ↔ ∀ w, s.Chain v w → Current s a w ∧ Deployed s w := by
  induction n generalizing v with
  | zero => omega
  | succ n ih =>
    have hhead : s.requireChain a (n + 1) v = .ok () ↔ (Current s a v ∧ Deployed s v) ∧
        ∀ w, s.Parent v w → s.requireChain a n w = .ok () := by
      simp only [requireChain, bind_eq_ok, refuseWhen_eq_ok, checkDeadline_eq_ok]
      constructor
      · rintro ⟨-, -, -, hjob, -, ⟨-, hdeadline⟩, -, hdeployed, hrest⟩
        have hjob' : v.origin = .job → s.jobCurrent a v = true := by
          intro horigin
          by_contra hnot
          exact hjob ⟨horigin, Bool.not_eq_true _ ▸ hnot⟩
        have hdeployed' : Deployed s v := by
          intro horigin
          by_contra hnot
          exact hdeployed ⟨horigin, Bool.not_eq_true _ ▸ hnot⟩
        cases hp : v.parentId with
        | none =>
          rw [hp] at hrest
          have hweb := refuseWhen_eq_ok.mp hrest
          refine ⟨⟨⟨hdeadline, hjob', ?_⟩, hdeployed'⟩, ?_⟩
          · intro horigin _
            by_contra hnot
            exact hweb ⟨horigin, Bool.not_eq_true _ ▸ hnot⟩
          rintro w ⟨p, hpw, -⟩
          rw [hp] at hpw
          cases hpw
        | some p =>
          rw [hp] at hrest
          refine ⟨⟨⟨hdeadline, hjob', fun _ hroot => ?_⟩, hdeployed'⟩, ?_⟩
          · rw [hp] at hroot
            cases hroot
          rintro w ⟨q, hq, hw⟩
          rw [hp] at hq
          obtain rfl := Option.some.inj hq
          dsimp only at hrest
          rw [hw] at hrest
          exact hrest
      · rintro ⟨⟨hcurrent, hdeployed⟩, hrest⟩
        refine ⟨(), not_not.mpr hv, (), ?_, (), ⟨hs.valid v hv, hcurrent.deadline⟩, (), ?_, ?_⟩
        · rintro ⟨horigin, hnot⟩
          rw [hcurrent.job horigin] at hnot
          cases hnot
        · rintro ⟨horigin, hnot⟩
          rw [hdeployed horigin] at hnot
          cases hnot
        cases hp : v.parentId with
        | none =>
          refine refuseWhen_eq_ok.mpr ?_
          rintro ⟨horigin, hnot⟩
          rw [hcurrent.web horigin hp] at hnot
          cases hnot
        | some p =>
          obtain ⟨w, hw, -⟩ := hs.derived v p hv hp
          dsimp only
          rw [hw]
          exact hrest w ⟨p, hp, hw⟩
    rw [hhead]
    constructor
    · rintro ⟨hfirst, hrest⟩ w hchain
      obtain rfl | ⟨y, hparent, hchain⟩ := hchain.cases_head
      · exact hfirst
      · have holder := (hs.parent hv hparent).older
        exact (ih hparent.holds (by omega)).mp (hrest y hparent) w hchain
    intro hall
    refine ⟨hall v .refl, ?_⟩
    intro w hparent
    have holder := (hs.parent hv hparent).older
    exact (ih hparent.holds (by omega)).mpr fun x hchain => hall x (.head hparent hchain)

theorem require_ok_iff (hs : s.Sound) :
    (∃ w, s.require a v = .ok w) ↔ s.Holds v ∧ ∀ w, s.Chain v w → Current s a w ∧ Deployed s w := by
  constructor
  · rintro ⟨w, h⟩
    obtain ⟨rfl, hv⟩ := require_holds h
    have hmade := hs.made w hv
    exact ⟨hv, (requireChain_ok_iff hs hv (by omega)).mp (require_eq_ok.mp h).2.2⟩
  rintro ⟨hv, hall⟩
  have hmade := hs.made v hv
  exact ⟨v, require_eq_ok.mpr ⟨rfl, hs.valid v hv, (requireChain_ok_iff hs hv (by omega)).mpr hall⟩⟩

theorem Moved.sound (h : Moved s c s') (hs : s.Sound) : s'.Sound := by
  cases h with
  | sidecar hside _ _ => exact hside.sound hs
  | entered hentered hfresh _ _ => exact hentered.sound hs hfresh
  | released hw _ hremoved hchildren => exact sound_without hs hw hremoved hchildren

theorem Moved.holds (h : Moved s c s') :
    s'.Holds v ↔ c.HandsOut s v ∨ (s.Holds v ∧ ∀ w, c = .release w → ¬ s.Chain v w) := by
  cases h with
  | sidecar hside _ hquiet =>
    rw [hside.holds]
    constructor
    · intro hv
      exact .inr ⟨hv, fun w hw hchain => hquiet.releases w hw (hchain.holds hv)⟩
    rintro (hv | hv)
    · exact absurd hv (hquiet.issues v)
    · exact hv.1
  | entered hentered hfresh hissues hreleases =>
    rw [hentered.holds hfresh, hissues]
    constructor
    · rintro (hv | hv)
      · exact .inl hv
      · exact .inr ⟨hv, fun w hw => absurd hw (hreleases w)⟩
    rintro (hv | hv)
    · exact .inl hv
    · exact .inr hv.1
  | @released w hw hc removed children hremoved hchildren =>
    rw [holds_without hremoved]
    subst hc
    constructor
    · rintro ⟨hv, hchain⟩
      refine .inr ⟨hv, ?_⟩
      intro w' hw'
      cases hw'
      exact hchain
    rintro (hv | ⟨hv, hchain⟩)
    · obtain ⟨s', hv⟩ := hv
      cases hv
    · exact ⟨hv, hchain w rfl⟩

theorem Moved.deployed (h : Moved s c s') (hs : ∀ v, s.Holds v → Deployed s v) (hc : ∀ d, c ≠ .replaceExternal d) :
    ∀ v, s'.Holds v → Deployed s' v := by
  have hcarry : ∀ {u : Issuer} {v : InvocationView}, u.publicWebDeployment = s.publicWebDeployment →
      Deployed s v → Deployed u v := by
    intro u v hu hv horigin
    rw [Issuer.deployed, hu]
    exact hv horigin
  intro v hv
  cases h with
  | sidecar hside hdeployment _ =>
    rcases hdeployment with hdeployment | ⟨d, hd⟩
    · exact hcarry hdeployment (hs v (hside.holds.mp hv))
    · exact absurd hd (hc d)
  | entered hentered hfresh _ _ =>
    apply hcarry hentered.deployment
    rcases (hentered.holds hfresh).mp hv with rfl | hv
    · exact hentered.deployed
    · exact hs v hv
  | released _ _ hremoved _ => exact hcarry rfl (hs v ((holds_without hremoved).mp hv).1)

theorem new_tables {hasValidator : Bool} {deployment : List (String × String)}
    (h : Issuer.new hasValidator deployment = .ok s) :
    s = ⟨0, hasValidator, deployment, [], [], .empty, .empty, .empty, .empty, .empty, .empty⟩ := by
  simp only [Issuer.new, bind_eq_ok, pure, Except.pure, Except.ok.injEq] at h
  obtain ⟨-, -, rfl⟩ := h
  rfl

theorem not_holds_of_start (h : issuer.start s) : ¬ s.Holds v := by
  obtain ⟨hasValidator, deployment, hnew⟩ := h
  intro hv
  rw [Holds, new_tables hnew] at hv
  cases hv

theorem sound_of_start (h : issuer.start s) : s.Sound := by
  have hnone : ∀ v, ¬ s.Holds v := fun v => not_holds_of_start h
  obtain ⟨hasValidator, deployment, hnew⟩ := h
  have hs := new_tables hnew
  exact {
    made := fun v hv => absurd hv (hnone v)
    valid := fun v hv => absurd hv (hnone v)
    derived := fun v p hv => absurd hv (hnone v)
    children := by
      intro p id
      constructor
      · intro hid
        rw [hs] at hid
        cases hid
      · rintro ⟨v, hv, -⟩
        exact absurd (holds_of_get hv) (hnone v)
    kept := by
      intro p b hb
      rw [hs] at hb
      cases hb
    side := by
      intro id hid
      rw [hs] at hid
      simp [Mentions] at hid }

theorem Trace.sound (h₀ : issuer.start s₀) (h : issuer.Trace s₀ calls s) : s.Sound :=
  h.invariant (fun _ _ hs hc => (Call.moved hs hc).sound hs) (sound_of_start h₀)

/-- `v` was handed out by a call of the run, and since then neither it nor an ancestor was released. -/
def StillIssued (s₀ : Issuer) (calls : List Call) (v : InvocationView) : Prop :=
  ∃ earlier c later, calls = earlier ++ c :: later ∧ c.HandsOut (earlier.foldl Call.run s₀) v ∧
    ∀ before w after, later = before ++ .release w :: after → ¬ ((earlier ++ c :: before).foldl Call.run s₀).Chain v w

theorem stillIssued_append : StillIssued s₀ (calls ++ [c]) v ↔ c.HandsOut (calls.foldl Call.run s₀) v ∨
    (StillIssued s₀ calls v ∧ ∀ w, c = .release w → ¬ (calls.foldl Call.run s₀).Chain v w) := by
  constructor
  · rintro ⟨earlier, c', later, heq, hhanded, hkept⟩
    rcases append_singleton_cases heq with ⟨rfl, rfl, -⟩ | ⟨later', rfl, rfl⟩
    · exact .inl hhanded
    refine .inr ⟨⟨earlier, c', later', rfl, hhanded, ?_⟩, ?_⟩
    · intro before w after hlater
      refine hkept before w (after ++ [c]) ?_
      rw [hlater, List.append_assoc, List.cons_append]
    · rintro w rfl
      exact hkept later' w [] rfl
  · rintro (hhanded | ⟨⟨earlier, c', later, rfl, hhanded, hkept⟩, hc⟩)
    · refine ⟨calls, c, [], rfl, hhanded, ?_⟩
      intro before w after hnil
      exact absurd hnil.symm (List.append_ne_nil_of_right_ne_nil _ (List.cons_ne_nil _ _))
    refine ⟨earlier, c', later ++ [c], by rw [List.append_assoc, List.cons_append], hhanded, ?_⟩
    intro before w after hlater
    rcases append_singleton_cases hlater with ⟨rfl, rfl, -⟩ | ⟨after', -, hlater'⟩
    · exact hc w rfl
    · exact hkept before w after' hlater'

theorem holds_iff_stillIssued (h₀ : issuer.start s₀) (h : issuer.Trace s₀ calls s) :
    s.Holds v ↔ StillIssued s₀ calls v := by
  induction calls using List.reverseRecOn generalizing s with
  | nil =>
    cases h with
    | nil =>
      constructor
      · intro hv
        exact absurd hv (not_holds_of_start h₀)
      · rintro ⟨earlier, c, later, hnil, -⟩
        exact absurd hnil.symm (List.append_ne_nil_of_right_ne_nil _ (List.cons_ne_nil _ _))
  | append_singleton calls c ih =>
    obtain ⟨u, hu, hlast⟩ := h.split
    cases hlast with
    | cons hc hnil =>
      cases hnil with
      | nil =>
        have hstep := (Call.moved (Trace.sound h₀ hu) hc).holds (v := v)
        rw [stillIssued_append, ← ih hu, show calls.foldl Call.run s₀ = u from hu.eq_foldl.symm]
        exact hstep

theorem Trace.deployed (h₀ : issuer.start s₀) (h : issuer.Trace s₀ calls s)
    (hcalls : ∀ d, Call.replaceExternal d ∉ calls) : ∀ v, s.Holds v → Deployed s v := by
  induction calls using List.reverseRecOn generalizing s with
  | nil =>
    cases h with
    | nil => exact fun v hv => absurd hv (not_holds_of_start h₀)
  | append_singleton calls c ih =>
    obtain ⟨u, hu, hlast⟩ := h.split
    cases hlast with
    | cons hc hnil =>
      cases hnil with
      | nil =>
        have hsound := Trace.sound h₀ hu
        refine (Call.moved hsound hc).deployed (ih hu fun d hd => hcalls d (List.mem_append_left _ hd)) ?_
        rintro d rfl
        exact hcalls d (List.mem_append_right _ List.mem_cons_self)

structure Confined (s : Issuer) (v : InvocationView) : Prop where
  deadline : ∀ parent d, s.Parent v parent → parent.deadline = some d → ∃ e, v.deadline = some e ∧ e ≤ d
  grant : ∀ parent, s.Parent v parent → (v.grantId = parent.grantId ∧ v.grantRevision = parent.grantRevision) ∨
    (v.grantId = none ∧ v.grantRevision = none)
  root : ∃ root, s.Chain v root ∧ root.parentId = none ∧ v.origin = root.origin ∧ v.actorId = root.actorId ∧
    v.subscriptionId = root.subscriptionId ∧ v.subscriptionRevision = root.subscriptionRevision
  module : ∀ w, s.Chain v w → v.grantId ≠ none → w.grantId = v.grantId ∧ w.moduleId = v.moduleId

theorem Issuer.Sound.root (hs : s.Sound) (hv : s.Holds v) : ∃ root, s.Chain v root ∧ root.parentId = none ∧
    v.origin = root.origin ∧ v.actorId = root.actorId ∧ v.subscriptionId = root.subscriptionId ∧
    v.subscriptionRevision = root.subscriptionRevision := by
  induction hn : v.object using Nat.strong_induction_on generalizing v with
  | _ n ih =>
    cases hp : v.parentId with
    | none => exact ⟨v, .refl, hp, rfl, rfl, rfl, rfl⟩
    | some p =>
      obtain ⟨w, hw, hderived⟩ := hs.derived v p hv hp
      obtain ⟨root, hchain, hroot, horigin, hactor, hsubscription⟩ :=
        ih w.object (hn ▸ hderived.older) (holds_of_get hw) rfl
      refine ⟨root, .head ⟨p, hp, hw⟩ hchain, hroot, hderived.origin.trans horigin, hderived.actor.trans hactor, ?_⟩
      exact ⟨hderived.subscription.1.trans hsubscription.1, hderived.subscription.2.trans hsubscription.2⟩

theorem Issuer.Sound.module (hs : s.Sound) (hv : s.Holds v) (hchain : s.Chain v w) (hgrant : v.grantId ≠ none) :
    w.grantId = v.grantId ∧ w.moduleId = v.moduleId := by
  induction hchain with
  | refl => exact ⟨rfl, rfl⟩
  | @tail y z hchain hparent ih =>
    rcases (hs.parent (Chain.holds hchain hv) hparent).grant with ⟨hsame, -, hmodule⟩ | ⟨hnone, -⟩
    · have hz : z.grantId ≠ none := by
        rw [← hsame, ih.1]
        exact hgrant
      exact ⟨hsame.symm.trans ih.1, (hmodule hz).symm.trans ih.2⟩
    · rw [ih.1] at hnone
      exact absurd hnone hgrant

theorem Issuer.Sound.confined (hs : s.Sound) (hv : s.Holds v) : Confined s v where
  deadline _ d hparent hd := (hs.parent hv hparent).deadline d hd
  grant _ hparent := (hs.parent hv hparent).grant.imp (fun h => ⟨h.1, h.2.1⟩) fun h => h
  root := hs.root hv
  module _ hchain hgrant := hs.module hv hchain hgrant

/-- `require` accepts a view exactly when it and its ancestors are issued and current. -/
theorem issued_forest_sound (h₀ : issuer.start s₀) (h : issuer.Trace s₀ calls s) :
    ((∀ d, Call.replaceExternal d ∉ calls) → ∀ a v, (∃ w, s.require a v = .ok w) ↔ StillIssued s₀ calls v ∧
      (∀ w p, s.Chain v w → w.parentId = some p → ∃ x, StillIssued s₀ calls x ∧ x.invocationId = p) ∧
      ∀ w, s.Chain v w → Current s a w) ∧ (∀ v, StillIssued s₀ calls v → ∃ s', s.release v = .ok s' ∧
      ∀ x, s'.Holds x ↔ StillIssued s₀ calls x ∧ ¬ s.Chain x v) ∧
    (∀ id, (s.Mentions id ∨ s.children.get id ≠ none ∨ ∃ p, id ∈ Broods.members s.children p) →
      ∃ v, StillIssued s₀ calls v ∧ v.invocationId = id) ∧ ∀ v, StillIssued s₀ calls v → Confined s v := by
  have hs := Trace.sound h₀ h
  have hissued : ∀ id v, s.issued.get id = some v → StillIssued s₀ calls v ∧ v.invocationId = id := by
    intro id v hv
    exact ⟨(holds_iff_stillIssued h₀ h).mp (holds_of_get hv), invocationId_of_get hv⟩
  refine ⟨?_, ?_, ?_, ?_⟩
  · intro hcalls a v
    rw [require_ok_iff hs, ← holds_iff_stillIssued h₀ h]
    constructor
    · rintro ⟨hv, hall⟩
      refine ⟨hv, ?_, fun w hchain => (hall w hchain).1⟩
      intro w p hchain hp
      obtain ⟨x, hx, -⟩ := hs.derived w p (hchain.holds hv) hp
      exact ⟨x, hissued p x hx⟩
    · rintro ⟨hv, -, hall⟩
      exact ⟨hv, fun w hchain => ⟨hall w hchain, Trace.deployed h₀ h hcalls w (hchain.holds hv)⟩⟩
  · intro v hv
    obtain ⟨removed, children, hrelease, hremoved, -⟩ := hs.release ((holds_iff_stillIssued h₀ h).mpr hv)
    refine ⟨_, hrelease, ?_⟩
    intro x
    rw [holds_without hremoved, holds_iff_stillIssued h₀ h]
  · rintro id (hid | hid | ⟨p, hid⟩)
    · obtain ⟨v, hv⟩ := hs.side id hid
      exact ⟨v, hissued id v hv⟩
    · obtain ⟨b, hb⟩ := Option.ne_none_iff_exists'.mp hid
      obtain ⟨k, hk⟩ := List.exists_mem_of_ne_nil _ (hs.kept id b hb)
      have hmember : k ∈ Broods.members s.children id := by
        rw [Broods.members, hb]
        exact hk
      obtain ⟨x, hx, hp⟩ := (hs.children id k).mp hmember
      obtain ⟨v, hv, -⟩ := hs.derived x id (holds_of_get hx) hp
      exact ⟨v, hissued id v hv⟩
    · obtain ⟨v, hv, -⟩ := (hs.children p id).mp hid
      exact ⟨v, hissued id v hv⟩
  · intro v hv
    exact hs.confined ((holds_iff_stillIssued h₀ h).mpr hv)

namespace Sample

def answers : Answers := ⟨fun _ => 10, fun _ => true, fun _ _ => true⟩

def request : IssueRequest :=
  ⟨.command, "p/m", 1, 1, some "u", some "c", none, none, none, none, some 100, some "g", some 1, none, none, none⟩

def root : InvocationView := request.view 0 "root"

def narrowed : DeriveRequest := ⟨"p/m", 1, some 50, some "read"⟩

def child : InvocationView := narrowed.view root 1 "child"

def start : Issuer := ⟨0, false, [], [], [], .empty, .empty, .empty, .empty, .empty, .empty⟩

def derivation : List Call := [.issue answers "root" request, .derive answers "child" root narrowed]

def derived : {s : Issuer // ∀ v ∈ [root, child], (s.require answers v).toOption.isSome = true} :=
  ⟨derivation.foldl Call.run start, by decide +kernel⟩

theorem trace : issuer.Trace start derivation (derivation.foldl Call.run start) := by
  refine .cons ?_ (.cons ?_ (.nil _))
  · rintro id ⟨⟩
    rfl
  · rintro id ⟨⟩
    decide +kernel

end Sample

open Sample

theorem issued_forest_sound_child : StillIssued start derivation child ∧
    ∃ s', (derivation.foldl Call.run start).release root = .ok s' ∧ ¬ s'.Holds child := by
  have hstart : issuer.start start := ⟨false, [], rfl⟩
  obtain ⟨hrequire, hrelease, -, -⟩ := issued_forest_sound hstart trace
  have hcalls : ∀ d, Call.replaceExternal d ∉ derivation := by simp [derivation]
  have hchild : ((derivation.foldl Call.run start).require answers child).toOption.isSome = true :=
    derived.property child (by simp)
  have hroot : ((derivation.foldl Call.run start).require answers root).toOption.isSome = true :=
    derived.property root (by simp)
  have haccepted : ∀ v, ((derivation.foldl Call.run start).require answers v).toOption.isSome = true →
      ∃ w, (derivation.foldl Call.run start).require answers v = .ok w := by
    intro v hv
    cases hw : (derivation.foldl Call.run start).require answers v with
    | error e =>
      rw [hw] at hv
      cases hv
    | ok w => exact ⟨w, rfl⟩
  refine ⟨((hrequire hcalls answers child).mp (haccepted child hchild)).1, ?_⟩
  obtain ⟨s', hs', hkept⟩ := hrelease root ((hrequire hcalls answers root).mp (haccepted root hroot)).1
  refine ⟨s', hs', ?_⟩
  intro hheld
  exact ((hkept child).mp hheld).2 (.single ⟨"root", rfl, by decide +kernel⟩)

end GameLink.Context

import GameLink.Context.Protocol
import GameLink.Dependencies.Invoker

namespace GameLink.Dependencies

open Foundation Contracts Context

def named (handler : Raised → Option ErrorCode) (x : Option Raised) : Bool := x.all fun r => (handler r).isSome

def Launch.foreseen (l : Launch) : Bool := named spawnHandler l.spawn

def Entry.refusal (e : Entry) : Option Raised :=
  match e.admission with
  | .error r => some r
  | .ok _ => none

def Entry.foreseen (e : Entry) : Bool :=
  e.arguments.isNone && named entryHandler e.parentCheck && named entryHandler e.parentGuard &&
    named entryHandler e.reference && named entryHandler e.refusal && named entryHandler e.targetGuard &&
    named entryHandler e.parameters && e.launch.foreseen

def Check.foreseen (q : Check) : Bool :=
  named checkHandler q.targetGuard && named checkHandler q.childCheck && named checkHandler q.parentCheck

def Step.foreseen : Step → Bool
  | enter e => e.foreseen
  | captured _ l => l.foreseen
  | authorized _ _ _ _ l => l.foreseen
  | settle _ q _ close => q.foreseen && close.isNone
  | reauthorized _ _ close => close.isNone
  | recaptured _ _ close => close.isNone
  | closed close again => close.isNone && again.isNone

def Invalid {α : Type} (x : Except Refusal α) : Prop := ∀ e, x = .error e → raisedBy e = .invalidInvocation

def Handled {α : Type} (handler : Raised → Option ErrorCode) (x : Except Stop α) : Prop :=
  ∀ stop, x = .error stop → (stop.outcome handler).settled = true

section

variable {α β : Type} {s s' : Issuer} {a : Answers} {v w : InvocationView} {handler : Raised → Option ErrorCode}

variable {x : Except Refusal α}

theorem Invalid.bind {f : α → Except Refusal β} (hx : Invalid x)
    (hf : ∀ y, x = .ok y → Invalid (f y)) : Invalid (x >>= f) := by
  intro e he
  cases hxe : x with
  | error e' =>
    rw [hxe] at he
    cases he
    exact hx e hxe
  | ok y =>
    rw [hxe] at he
    exact hf y hxe e he

theorem invalid_ok (y : α) : Invalid (.ok y : Except Refusal α) := by rintro e ⟨⟩

variable {c : Prop}

theorem invalid_refuseWhen [Decidable c] {e : Refusal} (h : raisedBy e = .invalidInvocation) :
    Invalid (refuseWhen c e) := by
  intro e' he'
  unfold refuseWhen at he'
  split at he'
  · cases he'
    exact h
  · cases he'

theorem invalid_checkDeadline : Invalid (checkDeadline a v) :=
  .bind (invalid_refuseWhen rfl) fun _ _ => invalid_refuseWhen rfl

section

variable (hs : s.Sound)
include hs

theorem invalid_requireChain {n : ℕ} (hn : s.Holds v → v.object ≤ n) :
    Invalid (s.requireChain a (n + 1) v) := by
  induction n using Nat.strong_induction_on generalizing v with
  | _ n ih =>
    unfold Issuer.requireChain
    refine .bind (invalid_refuseWhen rfl) fun _ hheld => .bind (invalid_refuseWhen rfl) fun _ _ =>
      .bind invalid_checkDeadline fun _ _ => .bind (invalid_refuseWhen rfl) fun _ _ => ?_
    rw [refuseWhen_eq_ok, not_not] at hheld
    have hv : s.Holds v := hheld
    cases hp : v.parentId with
    | none => exact invalid_refuseWhen rfl
    | some p =>
      obtain ⟨parent, hparent, hderived⟩ := hs.derived v p hv hp
      have holder := hderived.older
      have hbound := hn hv
      dsimp only
      rw [hparent]
      -- the fuel goes down with the age of the views
      obtain ⟨m, rfl⟩ : ∃ m, n = m + 1 := ⟨n - 1, by omega⟩
      exact ih m (Nat.lt_succ_self m) fun _ => by omega

theorem invalid_require : Invalid (s.require a v) :=
  .bind (invalid_refuseWhen rfl) fun _ _ =>
    .bind (invalid_requireChain hs fun hv => (hs.made v hv).le) fun _ _ => invalid_ok v

theorem invalid_leaseFor : Invalid (s.leaseFor a v) :=
  .bind (invalid_refuseWhen rfl) fun _ _ => .bind (invalid_require hs) fun _ _ => invalid_ok _

theorem invalid_derive {id : String} {r : Issuer.DeriveRequest} : Invalid (s.derive a id v r) :=
  .bind (invalid_refuseWhen rfl) fun _ _ => .bind (invalid_require hs) fun _ _ => .bind (invalid_refuseWhen rfl) fun _ _ =>
    .bind (invalid_refuseWhen rfl) fun _ _ => .bind (invalid_refuseWhen rfl) fun _ _ => .bind (invalid_refuseWhen rfl) fun _ _ =>
      .bind invalid_checkDeadline fun _ _ => invalid_ok _

theorem invalid_attachLease {lease : ℕ} : Invalid (s.attachLease a v (some lease)) :=
  .bind (invalid_refuseWhen rfl) fun _ _ => .bind (invalid_require hs) fun _ _ => .bind (invalid_ok lease) fun _ _ =>
    .bind (invalid_refuseWhen rfl) fun _ _ => invalid_ok _

end

theorem Handled.bind {x : Except Stop α} {f : α → Except Stop β} (hx : Handled handler x)
    (hf : ∀ y, Handled handler (f y)) : Handled handler (x >>= f) := by
  intro stop hstop
  cases hxe : x with
  | error stop' =>
    rw [hxe] at hstop
    cases hstop
    exact hx stop hxe
  | ok y =>
    rw [hxe] at hstop
    exact hf y stop hstop

theorem handled_ok (y : α) : Handled handler (.ok y : Except Stop α) := by rintro stop ⟨⟩

variable {r : Raised}

theorem settled_raise (h : (handler r).isSome = true) : ((Stop.raise r).outcome handler).settled = true := by
  obtain ⟨code, hcode⟩ := Option.isSome_iff_exists.mp h
  rw [Stop.outcome, hcode]
  rfl

theorem handled_error_raise (h : (handler r).isSome = true) :
    Handled handler (.error (.raise r) : Except Stop α) := by
  rintro stop ⟨⟩
  exact settled_raise h

theorem handled_issuerCall (hx : Invalid x) (h : (handler .invalidInvocation).isSome = true) :
    Handled handler (issuerCall x) := by
  cases hxe : x with
  | ok y => exact handled_ok y
  | error e =>
    apply handled_error_raise
    rw [hx e hxe]
    exact h

variable {code : ErrorCode}

theorem handled_orAnswer {x : Option α} : Handled handler (orAnswer x code) := by
  cases x with
  | some y => exact handled_ok y
  | none =>
    rintro stop ⟨⟩
    rfl

theorem handled_orRaise {x : Option α} (h : (handler r).isSome = true) : Handled handler (orRaise x r) := by
  cases x with
  | some y => exact handled_ok y
  | none => exact handled_error_raise h

theorem handled_answerWhen [Decidable c] : Handled handler (answerWhen c code) := by
  unfold answerWhen
  split
  · rintro stop ⟨⟩
    rfl
  · exact handled_ok ()

theorem handled_raiseWhen [Decidable c] (h : (handler r).isSome = true) :
    Handled handler (raiseWhen c r) := by
  unfold raiseWhen
  split
  · exact handled_error_raise h
  · exact handled_ok ()

theorem handled_passes {x : Option Raised} (h : named handler x = true) : Handled handler (passes x) := by
  cases x with
  | none => exact handled_ok ()
  | some r => exact handled_error_raise h

end

section

variable {s : Issuer} {chains : String → Option Chain} {e : Entry} {q : Check} {p : Plan} {x : Selection}

theorem handled_selectTarget (parent : InvocationView) (caller : CallerCapability) (he : e.foreseen = true) :
    Handled entryHandler (selectTarget s e parent caller) := by
  simp only [Entry.foreseen, Bool.and_eq_true] at he
  obtain ⟨⟨⟨⟨⟨⟨⟨-, -⟩, hguard⟩, hreference⟩, -⟩, -⟩, -⟩, -⟩ := he
  exact .bind (handled_orRaise rfl) fun _ => .bind (handled_raiseWhen rfl) fun _ => .bind (handled_passes hguard) fun _ =>
    .bind (handled_passes hreference) fun _ => .bind handled_orAnswer fun _ => .bind handled_answerWhen fun _ =>
      .bind handled_orAnswer fun _ => .bind handled_orAnswer fun _ => .bind handled_answerWhen fun _ =>
        .bind (handled_raiseWhen rfl) fun _ => .bind (handled_raiseWhen rfl) fun _ => handled_ok _

theorem handled_select (hs : s.Sound) (he : e.foreseen = true) : Handled entryHandler (select s chains e) := by
  have htarget := fun parent caller => handled_selectTarget (s := s) parent caller he
  simp only [Entry.foreseen, Bool.and_eq_true] at he
  obtain ⟨⟨⟨⟨⟨⟨⟨-, hcheck⟩, -⟩, -⟩, -⟩, -⟩, -⟩, -⟩ := he
  exact .bind (handled_issuerCall (invalid_require hs) rfl) fun _ =>
    .bind (handled_issuerCall (invalid_leaseFor hs) rfl) fun _ => .bind handled_answerWhen fun _ =>
      .bind (handled_passes hcheck) fun _ => .bind handled_orAnswer fun _ => .bind handled_answerWhen fun _ =>
        .bind (htarget _ _) fun _ => .bind handled_answerWhen fun _ => .bind handled_answerWhen fun _ =>
          .bind (.bind (handled_raiseWhen rfl) fun _ => handled_ok _) fun _ => handled_ok _

theorem handled_check (hs : s.Sound) (hq : q.foreseen = true) : Handled checkHandler (World.check s p q) := by
  simp only [Check.foreseen, Bool.and_eq_true] at hq
  obtain ⟨⟨hguard, hchild⟩, hparent⟩ := hq
  exact .bind (handled_issuerCall (invalid_require hs) rfl) fun _ =>
    .bind (handled_issuerCall (invalid_require hs) rfl) fun _ => .bind (handled_orRaise rfl) fun _ =>
      .bind (handled_passes hguard) fun _ => .bind handled_answerWhen fun _ => .bind handled_answerWhen fun _ =>
        .bind (handled_passes hchild) fun _ => .bind (handled_issuerCall (invalid_leaseFor hs) rfl) fun _ =>
          .bind handled_answerWhen fun _ => handled_passes hparent

theorem handled_admitChild (hs : s.Sound) {child : InvocationView} (he : e.foreseen = true) :
    Handled entryHandler (admitChild s e x child).1 := by
  simp only [Entry.foreseen, Bool.and_eq_true] at he
  obtain ⟨⟨⟨⟨-, hadmission⟩, hguard⟩, hparameters⟩, -⟩ := he
  unfold admitChild
  cases hlease : e.admission with
  | error r =>
    apply handled_error_raise
    rw [Entry.refusal, hlease] at hadmission
    exact hadmission
  | ok lease =>
    dsimp only
    cases hattach : s.attachLease e.answers child (some lease) with
    | error refusal =>
      apply handled_error_raise
      rw [invalid_attachLease hs refusal hattach]
      rfl
    | ok s' =>
      exact .bind (handled_passes hguard) fun _ => .bind (handled_passes hparameters) fun _ => handled_raiseWhen rfl

end

end GameLink.Dependencies

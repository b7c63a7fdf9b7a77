import Mathlib.Data.List.Basic

namespace GameLink.Foundation

variable {L E D : Type}

inductive Instr (L E : Type) where
  | acquire (l : L)
  | release
  | effect (e : E)
  deriving DecidableEq

structure Thread (L E : Type) where
  held : List L
  code : List (Instr L E)
  deriving DecidableEq

namespace Thread

def after : List L → List (Instr L E) → List L
  | held, [] => held
  | held, .acquire l :: rest => after (l :: held) rest
  | held, .release :: rest => after held.tail rest
  | held, .effect _ :: rest => after held rest

/-- The code holds the lock `p` and comes to take `q` anew before it lets `p` go. -/
def crossing [DecidableEq L] (p q : L) : List L → List (Instr L E) → Bool
  | _, [] => false
  | held, .acquire l :: rest => decide (p ∈ held) && (decide (l = q ∧ q ∉ held) || crossing p q (l :: held) rest)
  | held, .release :: rest => decide (p ∈ held) && crossing p q held.tail rest
  | held, .effect _ :: rest => decide (p ∈ held) && crossing p q held rest

/-- Every instruction is as `P` wants it, at the locks held there and before the code that follows it. -/
def Along (P : List L → Instr L E → List (Instr L E) → Prop) : List L → List (Instr L E) → Prop
  | _, [] => True
  | held, .acquire l :: rest => P held (.acquire l) rest ∧ Along P (l :: held) rest
  | held, .release :: rest => P held .release rest ∧ Along P held.tail rest
  | held, .effect e :: rest => P held (.effect e) rest ∧ Along P held rest

def unwinding (held : List L) : List (Instr L E) := List.replicate held.length .release

def run (f : E → D → D × Option (List (Instr L E))) (t : Thread L E) (d : D) : Thread L E × D :=
  match t.code with
  | [] => (t, d)
  | .acquire l :: rest => (⟨l :: t.held, rest⟩, d)
  | .release :: rest => (⟨t.held.tail, rest⟩, d)
  | .effect e :: rest =>
    match f e d with
    | (d', some more) => (⟨t.held, more ++ rest⟩, d')
    | (d', none) => (⟨t.held, unwinding t.held⟩, d')

def wants (l : L) (t : Thread L E) : Prop := t.code.head? = some (.acquire l)

instance [DecidableEq L] [DecidableEq E] (l : L) (t : Thread L E) : Decidable (t.wants l) :=
  inferInstanceAs (Decidable (_ = _))

def free [DecidableEq L] (t u : Thread L E) : Bool :=
  match t.code with
  | .acquire l :: _ => decide (l ∉ u.held)
  | _ => true

def crosses [DecidableEq L] (p q : L) (t : Thread L E) : Bool := crossing p q t.held t.code

/-- The next step takes `p` anew, and `q` is taken before `p` is let go. -/
def enters [DecidableEq L] (p q : L) (t : Thread L E) : Bool :=
  match t.code with
  | .acquire l :: rest => decide (l = p ∧ p ∉ t.held) && crossing p q (p :: t.held) rest
  | _ => false

def Deadlocked (t u : Thread L E) : Prop := ∃ p q, t.wants q ∧ q ∈ u.held ∧ u.wants p ∧ p ∈ t.held

theorem data_run {f : E → D → D × Option (List (Instr L E))} (t : Thread L E) (d : D) :
    (t.run f d).2 = d ∨ ∃ e rest, t.code = .effect e :: rest ∧ (t.run f d).2 = (f e d).1 := by
  obtain ⟨held, code⟩ := t
  match code with
  | [] => exact .inl rfl
  | .acquire l :: rest => exact .inl rfl
  | .release :: rest => exact .inl rfl
  | .effect e :: rest =>
    right
    refine ⟨e, rest, rfl, ?_⟩
    unfold run
    dsimp only
    split <;> rename_i heq <;> rw [heq]

section after

theorem after_append (as bs : List (Instr L E)) (held : List L) :
    after held (as ++ bs) = after (after held as) bs := by
  induction as generalizing held with
  | nil => rfl
  | cons i as ih => cases i <;> exact ih _

theorem after_unwinding (held : List L) : after held (unwinding held : List (Instr L E)) = [] := by
  induction held with
  | nil => rfl
  | cons l held ih => exact ih

variable {f : E → D → D × Option (List (Instr L E))} {t : Thread L E} {d : D}

theorem after_run (h : after t.held t.code = [])
    (hmore : ∀ e rest more, t.code = .effect e :: rest → (f e d).2 = some more → after t.held more = t.held) :
    after (t.run f d).1.held (t.run f d).1.code = [] := by
  obtain ⟨held, code⟩ := t
  match code, h, hmore with
  | [], h, _ => exact h
  | .acquire l :: rest, h, _ => exact h
  | .release :: rest, h, _ => exact h
  | .effect e :: rest, h, hmore =>
    have hm := fun more => hmore e rest more rfl
    unfold run
    dsimp only at hm ⊢
    split
    · rename_i d' more heq
      rw [heq] at hm
      dsimp only
      rw [after_append, hm more rfl]
      exact h
    · exact after_unwinding held

end after

section Along

variable {P : List L → Instr L E → List (Instr L E) → Prop}

theorem along_unwinding (hP : ∀ held rest, P held .release rest) (held : List L) : Along P held (unwinding held) := by
  induction held with
  | nil => trivial
  | cons l held ih => exact ⟨hP _ _, ih⟩

variable {f : E → D → D × Option (List (Instr L E))} {t : Thread L E} {d : D}

theorem along_run (h : Along P t.held t.code) (hP : ∀ held rest, P held .release rest)
    (hmore : ∀ e rest more, t.code = .effect e :: rest → (f e d).2 = some more → P t.held (.effect e) rest →
      Along P t.held rest → Along P t.held (more ++ rest)) :
    Along P (t.run f d).1.held (t.run f d).1.code := by
  obtain ⟨held, code⟩ := t
  match code, h, hmore with
  | [], h, _ => exact h
  | .acquire l :: rest, h, _ => exact h.2
  | .release :: rest, h, _ => exact h.2
  | .effect e :: rest, h, hmore =>
    have hm := fun more => hmore e rest more rfl
    unfold run
    dsimp only at hm ⊢
    split
    · rename_i d' more heq
      rw [heq] at hm
      exact hm more rfl h.1 h.2
    · exact along_unwinding hP held

end Along

theorem forall_run {P : Instr L E → Prop} {f : E → D → D × Option (List (Instr L E))} {t : Thread L E} {d : D}
    (h : ∀ i ∈ t.code, P i) (hrelease : P .release)
    (hmore : ∀ e more, P (.effect e) → (f e d).2 = some more → ∀ i ∈ more, P i) :
    ∀ i ∈ (t.run f d).1.code, P i := by
  obtain ⟨held, code⟩ := t
  match code, h with
  | [], h => exact h
  | .acquire l :: rest, h => exact fun i hi => h i (List.mem_cons_of_mem _ hi)
  | .release :: rest, h => exact fun i hi => h i (List.mem_cons_of_mem _ hi)
  | .effect e :: rest, h =>
    have hm := fun more => hmore e more (h _ List.mem_cons_self)
    unfold run
    dsimp only at hm ⊢
    split
    · rename_i d' more heq
      rw [heq] at hm
      intro i hi
      rcases List.mem_append.mp hi with hi | hi
      · exact hm more rfl i hi
      · exact h i (List.mem_cons_of_mem _ hi)
    · intro i hi
      rw [List.eq_of_mem_replicate hi]
      exact hrelease

section crossing

variable [DecidableEq L] {p q : L}

theorem not_crossing_unwinding (held held' : List L) :
    crossing p q held' (unwinding held : List (Instr L E)) = false := by
  induction held generalizing held' with
  | nil => rfl
  | cons l held ih =>
    change (decide (p ∈ held') && crossing p q held'.tail (unwinding held)) = false
    rw [ih, Bool.and_false]

theorem mem_of_crossing {held : List L} {code : List (Instr L E)} (h : crossing p q held code = true) : p ∈ held := by
  match code, h with
  | .acquire l :: rest, h => exact of_decide_eq_true (Bool.and_eq_true_iff.mp h).1
  | .release :: rest, h => exact of_decide_eq_true (Bool.and_eq_true_iff.mp h).1
  | .effect e :: rest, h => exact of_decide_eq_true (Bool.and_eq_true_iff.mp h).1

variable {f : E → D → D × Option (List (Instr L E))} {t u : Thread L E} {d : D}

theorem crosses_run (h : (t.run f d).1.crosses p q = true)
    (hmore : ∀ e rest more, t.code = .effect e :: rest → (f e d).2 = some more →
      crossing p q t.held (more ++ rest) = true → crossing p q t.held rest = true) :
    t.crosses p q = true ∨ t.enters p q = true := by
  obtain ⟨held, code⟩ := t
  match code, h, hmore with
  | [], h, _ => exact .inl h
  | .acquire l :: rest, h, _ =>
    have hc : crossing p q (l :: held) rest = true := h
    by_cases hp : p ∈ held
    · left
      unfold crosses crossing
      rw [Bool.and_eq_true, Bool.or_eq_true]
      exact ⟨decide_eq_true hp, .inr hc⟩
    right
    have hl : l = p := by
      rcases List.mem_cons.mp (mem_of_crossing hc) with hl | hl
      · exact hl.symm
      · exact absurd hl hp
    subst hl
    unfold enters
    rw [Bool.and_eq_true]
    exact ⟨decide_eq_true ⟨rfl, hp⟩, hc⟩
  | .release :: rest, h, _ =>
    have hc : crossing p q held.tail rest = true := h
    left
    unfold crosses crossing
    rw [Bool.and_eq_true]
    exact ⟨decide_eq_true (List.mem_of_mem_tail (mem_of_crossing hc)), hc⟩
  | .effect e :: rest, h, hmore =>
    have hm := fun more => hmore e rest more rfl
    left
    unfold run crosses at h
    dsimp only at hm h
    split at h
    · rename_i d' more heq
      rw [heq] at hm
      have hc := hm more rfl h
      unfold crosses crossing
      rw [Bool.and_eq_true]
      exact ⟨decide_eq_true (mem_of_crossing hc), hc⟩
    · dsimp only at h
      rw [not_crossing_unwinding] at h
      exact absurd h Bool.false_ne_true

theorem crosses_of_wants (hw : t.wants q) (hp : p ∈ t.held) (hq : q ∉ t.held) : t.crosses p q = true := by
  obtain ⟨held, code⟩ := t
  obtain ⟨rest, rfl⟩ : ∃ rest, code = .acquire q :: rest := by
    cases code with
    | nil => exact absurd hw (by unfold wants; simp)
    | cons i rest => exact ⟨rest, by rw [show i = .acquire q from Option.some.inj hw]⟩
  unfold crosses crossing
  rw [Bool.and_eq_true, Bool.or_eq_true]
  exact ⟨decide_eq_true hp, .inl (decide_eq_true ⟨rfl, hq⟩)⟩

theorem Deadlocked.crosses (h : Deadlocked t u) (hapart : ∀ l ∈ t.held, l ∉ u.held) :
    ∃ p q, t.wants q ∧ p ∈ t.held ∧ t.crosses p q = true ∧ u.crosses q p = true := by
  obtain ⟨p, q, ht, hq, hu, hp⟩ := h
  exact ⟨p, q, ht, hp, crosses_of_wants ht hp fun hq' => hapart q hq' hq, crosses_of_wants hu hq (hapart p hp)⟩

end crossing

section held

variable [DecidableEq L] {f : E → D → D × Option (List (Instr L E))} {t u : Thread L E} {d : D}

theorem apart_run (h : ∀ l ∈ t.held, l ∉ u.held) (hfree : t.free u = true) :
    ∀ l ∈ (t.run f d).1.held, l ∉ u.held := by
  obtain ⟨held, code⟩ := t
  match code, hfree with
  | [], _ => exact h
  | .acquire l :: rest, hfree =>
    intro l' hl'
    rcases List.mem_cons.mp hl' with rfl | hl'
    · exact of_decide_eq_true hfree
    · exact h l' hl'
  | .release :: rest, _ => exact fun l hl => h l (List.mem_of_mem_tail hl)
  | .effect e :: rest, _ =>
    unfold run
    dsimp only
    split <;> exact h

end held

end Thread

end GameLink.Foundation

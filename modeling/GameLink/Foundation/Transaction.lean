import Mathlib.Data.List.Basic

namespace GameLink.Foundation

variable {σ ε α β : Type}

theorem bind_eq_ok {x : Except ε α} {f : α → Except ε β} {b : β} :
    (x >>= f) = .ok b ↔ ∃ a, x = .ok a ∧ f a = .ok b := by
  cases x with
  | error e => simp [bind, Except.bind]
  | ok a => simp [bind, Except.bind]

theorem mapM_returns {f : α → Except ε β} {l : List α} (h : ∀ a ∈ l, ∃ b, f a = .ok b) : ∃ bs, l.mapM f = .ok bs := by
  induction l with
  | nil => exact ⟨[], rfl⟩
  | cons a l ih =>
    obtain ⟨b, hb⟩ := h a List.mem_cons_self
    obtain ⟨bs, hbs⟩ := ih fun a ha => h a (List.mem_cons_of_mem _ ha)
    refine ⟨b :: bs, ?_⟩
    rw [List.mapM_cons, hb, hbs]
    rfl

structure UnitOfWork (σ ε : Type) where
  store : σ
  commitGuards : List (σ → Option ε)

def Work (σ ε α : Type) := UnitOfWork σ ε → Except ε α × UnitOfWork σ ε

namespace Work

instance : Monad (Work σ ε) where
  pure a := fun u => (.ok a, u)
  bind w f := fun u =>
    match w u with
    | (.ok a, u') => f a u'
    | (.error e, u') => (.error e, u')

def read : Work σ ε σ := fun u => (.ok u.store, u)

def write (f : σ → σ) : Work σ ε Unit := fun u => (.ok (), { u with store := f u.store })

def raise (e : ε) : Work σ ε α := fun u => (.error e, u)

def raiseIf (c : Prop) [Decidable c] (e : ε) : Work σ ε Unit := if c then raise e else pure ()

def ofExcept (x : Except ε α) : Work σ ε α := fun u => (x, u)

def orRaise (x : Option α) (e : ε) : Work σ ε α :=
  match x with
  | some a => pure a
  | none => raise e

def rescue (w : Work σ ε α) (handler : ε → Work σ ε α) : Work σ ε α := fun u =>
  match w u with
  | (.ok a, u') => (.ok a, u')
  | (.error e, u') => handler e u'

def addCommitGuard (g : σ → Option ε) : Work σ ε Unit :=
  fun u => (.ok (), { u with commitGuards := u.commitGuards ++ [g] })

def within {τ : Type} (part : τ → σ) (put : σ → τ → τ) (w : Work σ ε α) : Work τ ε α := fun u =>
  ((w ⟨part u.store, []⟩).1, ⟨put (w ⟨part u.store, []⟩).2.store u.store,
    u.commitGuards ++ (w ⟨part u.store, []⟩).2.commitGuards.map fun g s => g (part s)⟩)

def Gives (w : Work σ ε α) (u : UnitOfWork σ ε) (a : α) (u' : UnitOfWork σ ε) : Prop := w u = (.ok a, u')

variable {w : Work σ ε α}

theorem Gives.unique {u u' u'' : UnitOfWork σ ε} {a b : α} (h : w.Gives u a u')
    (h' : w.Gives u b u'') : a = b ∧ u' = u'' := by
  obtain ⟨ha, hu⟩ := Prod.mk.inj (h.symm.trans h')
  exact ⟨Except.ok.inj ha, hu⟩

variable {u u' : UnitOfWork σ ε}

@[simp]
theorem gives_pure {a b : α} : (pure a : Work σ ε α).Gives u b u' ↔ b = a ∧ u = u' := by
  constructor
  · intro h
    cases h
    exact ⟨rfl, rfl⟩
  · rintro ⟨rfl, rfl⟩
    rfl

@[simp]
theorem gives_bind {f : α → Work σ ε β} {u u'' : UnitOfWork σ ε} {b : β} :
    (w >>= f).Gives u b u'' ↔ ∃ a u', w.Gives u a u' ∧ (f a).Gives u' b u'' := by
  have hb : (w >>= f) u = match w u with
    | (.ok a, u') => f a u'
    | (.error e, u') => (.error e, u') := rfl
  unfold Gives
  rw [hb]
  constructor
  · intro h
    split at h
    · rename_i a u' hw
      exact ⟨a, u', hw, h⟩
    · cases h
  rintro ⟨a, u', hw, hf⟩
  rw [hw]
  exact hf

@[simp]
theorem gives_read {s : σ} : (read : Work σ ε σ).Gives u s u' ↔ s = u.store ∧ u = u' := by
  constructor
  · intro h
    cases h
    exact ⟨rfl, rfl⟩
  · rintro ⟨rfl, rfl⟩
    rfl

@[simp]
theorem gives_write {f : σ → σ} {x : Unit} :
    (write f : Work σ ε Unit).Gives u x u' ↔ u' = { u with store := f u.store } := by
  constructor
  · intro h
    cases h
    rfl
  · rintro rfl
    rfl

@[simp]
theorem gives_raise {e : ε} {a : α} : (raise e : Work σ ε α).Gives u a u' ↔ False :=
  iff_of_false (fun h => by cases h) id

@[simp]
theorem gives_raiseIf {c : Prop} [Decidable c] {e : ε} {x : Unit} :
    (raiseIf c e : Work σ ε Unit).Gives u x u' ↔ ¬ c ∧ u = u' := by
  unfold raiseIf
  split
  · rename_i hc
    simp [hc]
  · rename_i hc
    simp [hc]

@[simp]
theorem gives_ofExcept {x : Except ε α} {a : α} : (ofExcept x : Work σ ε α).Gives u a u' ↔ x = .ok a ∧ u = u' := by
  constructor
  · intro h
    exact ⟨congrArg Prod.fst h, congrArg Prod.snd h⟩
  · rintro ⟨rfl, rfl⟩
    rfl

@[simp]
theorem gives_orRaise {x : Option α} {e : ε} {a : α} :
    (orRaise x e : Work σ ε α).Gives u a u' ↔ x = some a ∧ u = u' := by
  cases x with
  | none => simp [orRaise]
  | some b => simp [orRaise, eq_comm]

@[simp]
theorem gives_addCommitGuard {g : σ → Option ε} {x : Unit} : (addCommitGuard g : Work σ ε Unit).Gives u x u' ↔
      u' = { u with commitGuards := u.commitGuards ++ [g] } := by
  constructor
  · intro h
    cases h
    rfl
  · rintro rfl
    rfl

theorem gives_within {τ : Type} {part : τ → σ} {put : σ → τ → τ} {u u' : UnitOfWork τ ε} {a : α} :
    (within part put w).Gives u a u' ↔ ∃ v, w.Gives ⟨part u.store, []⟩ a v ∧
      u' = ⟨put v.store u.store, u.commitGuards ++ v.commitGuards.map fun g s => g (part s)⟩ := by
  unfold within Gives
  cases hw : w ⟨part u.store, []⟩ with
  | mk x v => simp [hw, Prod.ext_iff, eq_comm]

theorem gives_ite {c : Prop} [Decidable c] {w w' : Work σ ε α} {a : α} :
    (if c then w else w').Gives u a u' ↔ (c ∧ w.Gives u a u') ∨ (¬ c ∧ w'.Gives u a u') := by
  split
  · rename_i hc
    simp [hc]
  · rename_i hc
    simp [hc]

def Raises (w : Work σ ε α) (u : UnitOfWork σ ε) (e : ε) (u' : UnitOfWork σ ε) : Prop := w u = (.error e, u')

@[simp]
theorem raises_pure {a : α} {e : ε} : (pure a : Work σ ε α).Raises u e u' ↔ False :=
  iff_of_false (fun h => by cases h) id

@[simp]
theorem raises_bind {f : α → Work σ ε β} {u u'' : UnitOfWork σ ε} {e : ε} :
    (w >>= f).Raises u e u'' ↔ w.Raises u e u'' ∨ ∃ a u', w.Gives u a u' ∧ (f a).Raises u' e u'' := by
  have hb : (w >>= f) u = match w u with
    | (.ok a, u') => f a u'
    | (.error e, u') => (.error e, u') := rfl
  unfold Raises Gives
  rw [hb]
  cases hw : w u with
  | mk x v =>
    cases x with
    | ok a => simp
    | error e' => simp

@[simp]
theorem raises_read {e : ε} : (read : Work σ ε σ).Raises u e u' ↔ False :=
  iff_of_false (fun h => by cases h) id

@[simp]
theorem raises_write {f : σ → σ} {e : ε} : (write f : Work σ ε Unit).Raises u e u' ↔ False :=
  iff_of_false (fun h => by cases h) id

@[simp]
theorem raises_raise {e e' : ε} : (raise e : Work σ ε α).Raises u e' u' ↔ e' = e ∧ u = u' := by
  constructor
  · intro h
    cases h
    exact ⟨rfl, rfl⟩
  · rintro ⟨rfl, rfl⟩
    rfl

@[simp]
theorem raises_raiseIf {c : Prop} [Decidable c] {e e' : ε} :
    (raiseIf c e : Work σ ε Unit).Raises u e' u' ↔ c ∧ e' = e ∧ u = u' := by
  unfold raiseIf
  split
  · rename_i hc
    simp [hc]
  · rename_i hc
    simp [hc]

@[simp]
theorem raises_orRaise {x : Option α} {e e' : ε} :
    (orRaise x e : Work σ ε α).Raises u e' u' ↔ x = none ∧ e' = e ∧ u = u' := by
  cases x with
  | none => simp [orRaise]
  | some b => simp [orRaise]

theorem gives_rescue {handler : ε → Work σ ε α} {a : α} :
    (rescue w handler).Gives u a u' ↔ w.Gives u a u' ∨ ∃ e v, w.Raises u e v ∧ (handler e).Gives v a u' := by
  unfold rescue Gives Raises
  cases hw : w u with
  | mk x v =>
    cases x with
    | ok b => simp [hw]
    | error e => simp [hw]

def Keeps (P : σ → Prop) (w : Work σ ε α) : Prop := ∀ u, P u.store → P (w u).2.store

namespace Keeps

variable {P : σ → Prop}

theorem pure {a : α} : Keeps P (Pure.pure a : Work σ ε α) := fun _ h => h

theorem read : Keeps P (Work.read : Work σ ε σ) := fun _ h => h

theorem raise {e : ε} : Keeps P (Work.raise e : Work σ ε α) := fun _ h => h

theorem ofExcept {x : Except ε α} : Keeps P (Work.ofExcept x) := fun _ h => h

theorem raiseIf {c : Prop} [Decidable c] {e : ε} : Keeps P (Work.raiseIf c e) := by
  unfold Work.raiseIf
  split
  · exact raise
  · exact pure

theorem orRaise {x : Option α} {e : ε} : Keeps P (Work.orRaise x e) := by
  cases x with
  | none => exact raise
  | some a => exact pure

theorem write {f : σ → σ} (hf : ∀ s, P s → P (f s)) : Keeps P (Work.write f : Work σ ε Unit) := fun u h => hf u.store h

theorem bind {w : Work σ ε α} {f : α → Work σ ε β} (hw : Keeps P w) (hf : ∀ a, Keeps P (f a)) : Keeps P (w >>= f) := by
  intro u h
  have hwu := hw u h
  have hb : (w >>= f) u = match w u with
    | (.ok a, u') => f a u'
    | (.error e, u') => (.error e, u') := rfl
  rw [hb]
  cases hv : w u with
  | mk x v =>
    rw [hv] at hwu
    cases x with
    | ok a => exact hf a v hwu
    | error e => exact hwu

theorem bind_ofExcept {x : Except ε α} {f : α → Work σ ε β} (hf : ∀ a, x = .ok a → Keeps P (f a)) :
    Keeps P (Work.ofExcept x >>= f) := by
  cases x with
  | error e => exact fun _ h => h
  | ok a => exact hf a rfl

theorem rescue {w : Work σ ε α} {handler : ε → Work σ ε α} (hw : Keeps P w) (hh : ∀ e, Keeps P (handler e)) :
    Keeps P (Work.rescue w handler) := by
  intro u h
  have hwu := hw u h
  unfold Work.rescue
  cases hv : w u with
  | mk x v =>
    rw [hv] at hwu
    cases x with
    | ok a => exact hwu
    | error e => exact hh e v hwu

end Keeps

end Work

def transaction (w : Work σ ε α) (s : σ) : Except ε α × σ :=
  match w ⟨s, []⟩ with
  | (.error e, _) => (.error e, s)
  | (.ok a, u) =>
    match u.commitGuards.findSome? fun g => g u.store with
    | some e => (.error e, s)
    | none => (.ok a, u.store)

theorem transaction_ok {w : Work σ ε α} {s s' : σ} {a : α} : transaction w s = (.ok a, s') ↔
      ∃ gs, w.Gives ⟨s, []⟩ a ⟨s', gs⟩ ∧ ∀ g ∈ gs, g s' = none := by
  unfold transaction Work.Gives
  cases hw : w ⟨s, []⟩ with
  | mk x u =>
    cases x with
    | error e => simp
    | ok b =>
      cases hg : u.commitGuards.findSome? fun g => g u.store with
      | some e =>
        simp only [hg, Prod.mk.injEq, reduceCtorEq, false_and, false_iff]
        rintro ⟨gs, ⟨-, rfl⟩, hgs⟩
        obtain ⟨g, hgm, hge⟩ := List.exists_of_findSome?_eq_some hg
        rw [hgs g hgm] at hge
        cases hge
      | none =>
        simp only [hg, Prod.mk.injEq, Except.ok.injEq]
        constructor
        · rintro ⟨rfl, rfl⟩
          exact ⟨u.commitGuards, ⟨rfl, rfl⟩, List.findSome?_eq_none_iff.mp hg⟩
        · rintro ⟨gs, ⟨rfl, rfl⟩, -⟩
          exact ⟨rfl, rfl⟩

theorem transaction_error {w : Work σ ε α} {s s' : σ} {e : ε} (h : transaction w s = (.error e, s')) : s' = s := by
  unfold transaction at h
  split at h
  · exact (congrArg Prod.snd h).symm
  split at h
  · exact (congrArg Prod.snd h).symm
  · cases h

theorem transaction_cases (w : Work σ ε α) (s : σ) :
    (∃ a s', transaction w s = (.ok a, s')) ∨ ∃ e, transaction w s = (.error e, s) := by
  cases h : transaction w s with
  | mk x s' =>
    cases x with
    | ok a => exact .inl ⟨a, s', rfl⟩
    | error e => exact .inr ⟨e, by rw [transaction_error h]⟩

theorem transaction_store {w : Work σ ε α} {s : σ} {P : σ → Prop} (hs : P s)
    (hw : ∀ a u, w.Gives ⟨s, []⟩ a u → P u.store) : P (transaction w s).2 := by
  rcases transaction_cases w s with ⟨a, s', h⟩ | ⟨e, h⟩
  · obtain ⟨gs, hg, -⟩ := transaction_ok.mp h
    rw [h]
    exact hw a _ hg
  · rw [h]
    exact hs

end GameLink.Foundation

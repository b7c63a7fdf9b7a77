import GameLink.Sources.Tokens
import Mathlib.Tactic.Linarith

namespace GameLink.Sources.Tokens

open Foundation

structure ReturnSound (w : World) (r : Return) : Prop where
  generation : r.lease.generation ≤ w.state.generation
  secret : r.lease.secretToken = r.lease.token.exchange.secret.token
  observed : ∃ ref, (r.call, ref) ∈ w.observed ∧ ref.token = r.lease.secretToken
  opened : (r.lease.token.exchange.secret, r.lease.token.exchange.material) ∈ w.opened
  known : r.lease.token.exchange.id < w.freshExchange

structure Core (w : World) : Prop where
  secret : ∀ t, w.state.accessToken = some t → w.state.secretToken = some t.exchange.secret.token
  known : ∀ t, w.state.accessToken = some t → t.exchange.id < w.freshExchange
  valid : ∀ t, w.state.accessToken = some t → t.exchange.id ∉ w.invalidated
  opened : ∀ t, w.state.accessToken = some t → (t.exchange.secret, t.exchange.material) ∈ w.opened
  returned : ∀ r ∈ w.returned, ReturnSound w r
  matched : ∀ r ∈ w.returned, ∀ t, w.state.accessToken = some t →
    (r.lease.generation = w.state.generation ∧ t = r.lease.token) ∨
    (r.lease.generation ≠ w.state.generation ∧ t.exchange.id ≠ r.lease.token.exchange.id)
  invalidated : ∀ id ∈ w.invalidated, ∃ r ∈ w.returned, r.lease.token.exchange.id = id

def Bound (w : World) (i : ℕ) (ref : SecretRef) : Prop :=
  (i, ref) ∈ w.observed ∧ (w.isClosed = false → w.state.secretToken = some ref.token)

structure InFlight (w : World) (i : ℕ) (x : Exchange) : Prop where
  bound : Bound w i x.secret
  opened : (x.secret, x.material) ∈ w.opened
  known : x.id < w.freshExchange
  unreturned : ∀ r ∈ w.returned, r.lease.token.exchange.id ≠ x.id
  unkept : ∀ t, w.state.accessToken = some t → t.exchange.id ≠ x.id

def StageSound (w : World) (i : ℕ) : Stage → Prop
  | .looking => True
  | .looked ref => ∀ r, ref = some r → (i, r) ∈ w.observed
  | .opening ref => Bound w i ref
  | .opened ref material => Bound w i ref ∧ ∀ m, material = some m → (ref, m) ∈ w.opened
  | .queued ref material => Bound w i ref ∧ (ref, material) ∈ w.opened
  | .exchanging x => InFlight w i x
  | .rechecking t => InFlight w i t.exchange
  | .rechecked t _ => InFlight w i t.exchange
  | .reopening t _ => InFlight w i t.exchange
  | .reopened t _ _ => InFlight w i t.exchange

structure Sound (w : World) : Prop where
  core : Core w
  lock : ∀ i stage, w.calls i = .inside stage → w.state.holder = some i
  stages : ∀ i stage, w.calls i = .inside stage → StageSound w i stage

section Core

variable {w : World} {i : ℕ} {t : Token} {ref : SecretRef}

theorem ReturnSound.mono {w' : World} {r : Return} (h : ReturnSound w r) (hg : w.state.generation ≤ w'.state.generation)
    (hobserved : ∀ o ∈ w.observed, o ∈ w'.observed) (hopened : ∀ o ∈ w.opened, o ∈ w'.opened)
    (hfresh : w.freshExchange ≤ w'.freshExchange) : ReturnSound w' r := by
  obtain ⟨ref, hin, htoken⟩ := h.observed
  exact ⟨h.generation.trans hg, h.secret, ⟨ref, hobserved _ hin, htoken⟩, hopened _ h.opened, lt_of_lt_of_le h.known hfresh⟩

theorem Core.dropped (h : Core w) {s : TokenState} (hnone : s.accessToken = none)
    (hgeneration : w.state.generation ≤ s.generation) : Core { w with state := s } where
  secret t ht := by
    rw [hnone] at ht
    cases ht
  known t ht := by
    rw [hnone] at ht
    cases ht
  valid t ht := by
    rw [hnone] at ht
    cases ht
  opened t ht := by
    rw [hnone] at ht
    cases ht
  returned r hr := (h.returned r hr).mono hgeneration (fun _ ho => ho) (fun _ ho => ho) le_rfl
  matched r hr t ht := by
    rw [hnone] at ht
    cases ht
  invalidated := h.invalidated

theorem Core.select (h : Core w) (ref : SecretRef) : Core { w with state := World.select w.state ref } := by
  unfold World.select
  split
  · exact h
  · exact h.dropped rfl (Nat.le_succ _)

theorem select_secret (s : TokenState) (ref : SecretRef) : (World.select s ref).secretToken = some ref.token := by
  unfold World.select
  split
  · assumption
  · rfl

theorem select_holder (s : TokenState) (ref : SecretRef) : (World.select s ref).holder = s.holder := by
  unfold World.select
  split
  · rfl
  · rfl

section

variable (h : Core w)
include h

theorem Core.clear : Core { w with state := World.cleared w.state } := h.dropped rfl (Nat.le_succ _)

theorem InFlight.uninvalidated (hx : InFlight w i t.exchange) : t.exchange.id ∉ w.invalidated := by
  intro hin
  obtain ⟨r, hr, heq⟩ := h.invalidated _ hin
  exact hx.unreturned r hr heq

theorem Core.keep (hx : InFlight w i t.exchange) (hopen : w.isClosed = false) (now : ℚ) :
    Core { w with state := World.keep w.state t now } where
  secret t' ht' := by
    cases ht'
    exact hx.bound.2 hopen
  known t' ht' := by
    cases ht'
    exact hx.known
  valid t' ht' := by
    cases ht'
    exact InFlight.uninvalidated (w := w) h hx
  opened t' ht' := by
    cases ht'
    exact hx.opened
  returned r hr := (h.returned r hr).mono (Nat.le_succ _) (fun _ ho => ho) (fun _ ho => ho) le_rfl
  matched r hr t' ht' := by
    cases ht'
    refine Or.inr ⟨?_, fun heq => hx.unreturned r hr heq.symm⟩
    exact Nat.ne_of_lt (Nat.lt_succ_of_le (h.returned r hr).generation)
  invalidated := h.invalidated

theorem Core.lease {secretToken : String} (ht : w.state.accessToken = some t)
    (hs : w.state.secretToken = some secretToken) (hobserved : ∃ ref, (i, ref) ∈ w.observed ∧ ref.token = secretToken) (now : ℚ) :
    Core { w with returned := ⟨i, ⟨t, w.state.generation, secretToken⟩, now⟩ :: w.returned } := by
  have hsecret : secretToken = t.exchange.secret.token := Option.some_inj.mp (hs.symm.trans (h.secret t ht))
  refine { h with returned := ?_, matched := ?_, invalidated := ?_ }
  · intro r hr
    cases List.mem_cons.mp hr with
    | inl heq =>
      rw [heq]
      exact ⟨le_rfl, hsecret, hobserved, h.opened t ht, h.known t ht⟩
    | inr hin => exact (h.returned r hin).mono le_rfl (fun _ ho => ho) (fun _ ho => ho) le_rfl
  · intro r hr t' ht'
    cases List.mem_cons.mp hr with
    | inl heq =>
      rw [heq]
      exact Or.inl ⟨rfl, Option.some_inj.mp (ht'.symm.trans ht)⟩
    | inr hin => exact h.matched r hin t' ht'
  · intro id hid
    obtain ⟨r, hr, heq⟩ := h.invalidated id hid
    exact ⟨r, List.mem_cons_of_mem _ hr, heq⟩

theorem Core.observe (o : ℕ × SecretRef) : Core { w with observed := o :: w.observed } :=
  { h with
    returned := fun r hr => (h.returned r hr).mono le_rfl (fun _ ho => List.mem_cons_of_mem _ ho) (fun _ ho => ho) le_rfl }

theorem Core.read (o : SecretRef × ClientMaterial) : Core { w with opened := o :: w.opened } :=
  { h with
    opened := fun t ht => List.mem_cons_of_mem _ (h.opened t ht)
    returned := fun r hr => (h.returned r hr).mono le_rfl (fun _ ho => ho) (fun _ ho => List.mem_cons_of_mem _ ho) le_rfl }

theorem Core.fresh : Core { w with freshExchange := w.freshExchange + 1 } :=
  { h with
    known := fun t ht => (h.known t ht).trans (Nat.lt_succ_self _)
    returned := fun r hr => (h.returned r hr).mono le_rfl (fun _ ho => ho) (fun _ ho => ho) (Nat.le_succ _) }

theorem Core.invalidate (lease : CredentialLease) : Core (w.invalidate lease) := by
  unfold World.invalidate
  split
  · dsimp only
    have hlist : ∀ id ∈ (if ∃ r ∈ w.returned, r.lease = lease then lease.token.exchange.id :: w.invalidated else w.invalidated),
        ∃ r ∈ w.returned, r.lease.token.exchange.id = id := by
      intro id hid
      split at hid
      · rename_i hex
        obtain ⟨r, hr, heq⟩ := hex
        cases List.mem_cons.mp hid with
        | inl hid => exact ⟨r, hr, by rw [heq, hid]⟩
        | inr hid => exact h.invalidated id hid
      · exact h.invalidated id hid
    split
    · have hdropped : Core { w with state := { w.state with
          accessToken := none, expiresAt := 0, generation := w.state.generation + 1 } } := h.dropped rfl (Nat.le_succ _)
      exact { hdropped with
        valid := by rintro t ⟨⟩
        returned := fun r hr => (h.returned r hr).mono (Nat.le_succ _) (fun _ ho => ho) (fun _ ho => ho) le_rfl
        invalidated := hlist }
    · rename_i hkeep
      refine { h with
        valid := ?_
        returned := fun r hr => (h.returned r hr).mono le_rfl (fun _ ho => ho) (fun _ ho => ho) le_rfl
        invalidated := hlist }
      intro t ht hin
      split at hin
      · rename_i hex
        obtain ⟨r, hr, heq⟩ := hex
        cases List.mem_cons.mp hin with
        | inl hid =>
          obtain ⟨hgeneration, hsame⟩ | ⟨-, hdiff⟩ := h.matched r hr t ht
          · apply hkeep
            rw [← heq]
            refine ⟨?_, hgeneration.symm⟩
            rw [(h.returned r hr).secret, ← hsame]
            exact h.secret t ht
          · rw [heq] at hdiff
            exact hdiff hid
        | inr hid => exact h.valid t ht hid
      · exact h.valid t ht hin
  · exact h

end

end Core

section Steps

variable {w : World} {i : ℕ} {b : Binding} {stage : Stage}

def Alone (w : World) (i : ℕ) : Prop := ∀ j stage, w.calls j = .inside stage → j = i

theorem Sound.alone (h : Sound w) (hi : w.calls i = .inside stage) : Alone w i := by
  intro j stage' hj
  have hholder := h.lock j stage' hj
  rw [h.lock i stage hi] at hholder
  exact (Option.some_inj.mp hholder).symm

variable {call : Call}

theorem calls_setCall (j : ℕ) : (w.setCall i call).calls j = if j = i then call else w.calls j :=
  Function.update_apply ..

theorem Core.setCall (h : Core w) : Core (w.setCall i call) :=
  { h with returned := fun r hr => (h.returned r hr).mono le_rfl (fun _ ho => ho) (fun _ ho => ho) le_rfl }

theorem InFlight.setCall {x : Exchange} (h : InFlight w i x) {j : ℕ} : InFlight (w.setCall j call) i x :=
  ⟨h.bound, h.opened, h.known, h.unreturned, h.unkept⟩

theorem StageSound.setCall (h : StageSound w i stage) {j : ℕ} : StageSound (w.setCall j call) i stage := by
  cases stage with
  | exchanging x => exact InFlight.setCall h
  | rechecking t => exact InFlight.setCall h
  | rechecked t ref => exact InFlight.setCall h
  | reopening t ref => exact InFlight.setCall h
  | reopened t ref material => exact InFlight.setCall h
  | _ => exact h

theorem Sound.goOn (hc : Core w) (ha : Alone w i) (hholder : w.state.holder = some i) (hs : StageSound w i stage) :
    Sound (w.goOn i stage) := by
  have hback : ∀ j stage', (w.goOn i stage).calls j = .inside stage' → j = i ∧ stage' = stage := by
    intro j stage' hj
    have hj : (w.setCall i (.inside stage)).calls j = .inside stage' := hj
    rw [calls_setCall] at hj
    split at hj
    · rename_i heq
      exact ⟨heq, (Call.inside.inj hj).symm⟩
    · rename_i hne
      exact absurd (ha j stage' hj) hne
  refine ⟨hc.setCall, ?_, ?_⟩
  · intro j stage' hj
    rw [(hback j stage' hj).1]
    exact hholder
  intro j stage' hj
  obtain ⟨rfl, rfl⟩ := hback j stage' hj
  exact hs.setCall

theorem Sound.finish (hc : Core w) (ha : Alone w i) : Sound (w.finish i) := by
  have hback : ∀ j stage', (w.finish i).calls j ≠ .inside stage' := by
    intro j stage' hj
    have hj : (w.setCall i .ended).calls j = .inside stage' := hj
    rw [calls_setCall] at hj
    split at hj
    · cases hj
    · rename_i hne
      exact hne (ha j stage' hj)
  have hcore : Core (w.finish i) :=
    { hc with returned := fun r hr => (hc.returned r hr).mono le_rfl (fun _ ho => ho) (fun _ ho => ho) le_rfl }
  exact ⟨hcore, fun j stage' hj => absurd hj (hback j stage'), fun j stage' hj => absurd hj (hback j stage')⟩

theorem Sound.outside (h : Sound w) (hcall : ∀ stage, call ≠ .inside stage) : Sound (w.setCall i call) := by
  have hback : ∀ j stage', (w.setCall i call).calls j = .inside stage' → w.calls j = .inside stage' := by
    intro j stage' hj
    rw [calls_setCall] at hj
    split at hj
    · exact absurd hj (hcall stage')
    · exact hj
  exact ⟨h.core.setCall, fun j stage' hj => h.lock j stage' (hback j stage' hj),
    fun j stage' hj => (h.stages j stage' (hback j stage' hj)).setCall⟩

theorem Sound.active (h : Sound w) (ha : Alone w i) {k : World → World} (hk : w.isClosed = false → Sound (k w)) :
    Sound (w.active i k) := by
  unfold World.active
  split
  · exact .finish h.core ha
  · rename_i hopen
    exact hk (Bool.eq_false_iff.mpr hopen)

theorem Sound.lease (hc : Core w) (ha : Alone w i) {ref : SecretRef} (hobserved : (i, ref) ∈ w.observed)
    (hsecret : w.state.secretToken = some ref.token) : Sound (w.lease i) := by
  unfold World.lease
  split
  · rename_i token secretToken ht hs
    have htoken : ref.token = secretToken := Option.some_inj.mp (hsecret.symm.trans hs)
    exact .finish (hc.lease ht hs ⟨ref, hobserved, htoken⟩ w.clock) ha
  · exact .finish hc ha

section

variable (h : Sound w)
include h

theorem Sound.acquire : Sound (w.acquire i) := by
  unfold World.acquire
  split
  · rename_i hfree
    have ha : Alone w i := by
      intro j stage hj
      have hheld := h.lock j stage hj
      rw [hfree] at hheld
      cases hheld
    have hcore : Core { w with state := { w.state with holder := some i } } :=
      { h.core with returned := fun r hr => (h.core.returned r hr).mono le_rfl (fun _ ho => ho) (fun _ ho => ho) le_rfl }
    unfold World.active
    split
    · exact .finish hcore ha
    · exact .goOn hcore ha rfl trivial
  · exact h

theorem Sound.resume (hi : w.calls i = .inside stage) : Sound (w.resume i stage) := by
  have ha := h.alone hi
  have hholder := h.lock i stage hi
  have hstage := h.stages i stage hi
  unfold World.resume
  split
  · exact .finish h.core ha
  · rename_i ref
    apply h.active ha
    intro _
    refine .goOn (h.core.select ref) ha ?_ ⟨hstage ref rfl, fun _ => select_secret w.state ref⟩
    exact (select_holder w.state ref).trans hholder
  · exact .finish h.core ha
  · rename_i ref material
    apply h.active ha
    intro hopen
    obtain ⟨⟨hobserved, hsecret⟩, hopened⟩ := hstage
    split
    · exact .lease h.core ha hobserved (hsecret hopen)
    · exact .goOn h.core ha hholder ⟨⟨hobserved, hsecret⟩, hopened material rfl⟩
  · exact .finish h.core ha
  · rename_i token ref
    apply h.active ha
    intro _
    exact .goOn h.core ha hholder hstage
  · exact .finish h.core ha
  · rename_i token ref material
    apply h.active ha
    intro hopen
    split
    · exact .finish h.core.clear ha
    · exact .lease (h.core.keep hstage hopen w.clock) ha hstage.bound.1 (hstage.bound.2 hopen)
  · exact h

theorem Sound.serve (hi : w.calls i = .inside stage) : Sound (w.serve b i stage) := by
  have ha := h.alone hi
  have hholder := h.lock i stage hi
  have hstage := h.stages i stage hi
  unfold World.serve
  split
  · dsimp only
    cases b.currentSecretRef w.snapshot with
    | none => exact .goOn h.core ha hholder (by rintro r ⟨⟩)
    | some ref =>
      refine .goOn (h.core.observe (i, ref)) ha hholder ?_
      rintro r ⟨⟩
      exact List.mem_cons_self
  · rename_i ref
    dsimp only
    cases w.secrets ref with
    | none => exact .goOn h.core ha hholder ⟨hstage, by rintro m ⟨⟩⟩
    | some material =>
      refine .goOn (h.core.read (ref, material)) ha hholder ⟨hstage, ?_⟩
      rintro m ⟨⟩
      exact List.mem_cons_self
  · exact .goOn h.core ha hholder hstage
  · exact .goOn h.core ha hholder hstage
  · exact h

theorem Sound.exchange (hi : w.calls i = .inside stage) : Sound (w.exchange i stage) := by
  have ha := h.alone hi
  have hholder := h.lock i stage hi
  have hstage := h.stages i stage hi
  unfold World.exchange
  split
  · obtain ⟨hbound, hopened⟩ := hstage
    refine .goOn h.core.fresh ha hholder ⟨hbound, hopened, Nat.lt_succ_self _, ?_, ?_⟩
    · intro r hr heq
      exact absurd (h.core.returned r hr).known (by rw [heq]; exact lt_irrefl _)
    · intro t ht heq
      exact absurd (h.core.known t ht) (by rw [heq]; exact lt_irrefl _)
  · exact h

theorem Sound.answer (hi : w.calls i = .inside stage) {value : String} {expiresIn : ℚ} :
    Sound (w.answer i value expiresIn stage) := by
  have ha := h.alone hi
  have hholder := h.lock i stage hi
  have hstage := h.stages i stage hi
  unfold World.answer
  split
  · split
    · exact .finish h.core ha
    apply h.active ha
    intro _
    exact .goOn h.core ha hholder hstage
  · exact h

theorem Sound.inside {k : Stage → World} (hk : ∀ stage, w.calls i = .inside stage → Sound (k stage)) :
    Sound (w.inside i k) := by
  unfold World.inside
  split
  · rename_i stage hi
    exact hk stage hi
  · exact h

theorem Sound.touched {w' : World} (hc : Core w') (hcalls : w'.calls = w.calls) (hholder : w'.state.holder = w.state.holder)
    (hobserved : w'.observed = w.observed) (hopened : w'.opened = w.opened) (hfresh : w'.freshExchange = w.freshExchange)
    (hreturned : w'.returned = w.returned) (hkept : ∀ t, w'.state.accessToken = some t → w.state.accessToken = some t)
    (hsecret : w'.isClosed = false → w.isClosed = false ∧ w'.state.secretToken = w.state.secretToken) : Sound w' := by
  have hbound : ∀ {i : ℕ} {ref : SecretRef}, Bound w i ref → Bound w' i ref := by
    intro i ref hb
    refine ⟨by rw [hobserved]; exact hb.1, ?_⟩
    intro hopen
    obtain ⟨hopen, hsame⟩ := hsecret hopen
    rw [hsame]
    exact hb.2 hopen
  have hflight : ∀ {i : ℕ} {x : Exchange}, InFlight w i x → InFlight w' i x := by
    intro i x hx
    refine ⟨hbound hx.bound, by rw [hopened]; exact hx.opened, by rw [hfresh]; exact hx.known,
      by rw [hreturned]; exact hx.unreturned, ?_⟩
    exact fun t ht => hx.unkept t (hkept t ht)
  refine ⟨hc, ?_, ?_⟩
  · rw [hcalls, hholder]
    exact h.lock
  rw [hcalls]
  intro i stage hi
  have hstage := h.stages i stage hi
  cases stage with
  | looking => trivial
  | looked ref =>
    intro r hr
    rw [hobserved]
    exact hstage r hr
  | opening ref => exact hbound hstage
  | opened ref material =>
    refine ⟨hbound hstage.1, ?_⟩
    rw [hopened]
    exact hstage.2
  | queued ref material =>
    refine ⟨hbound hstage.1, ?_⟩
    rw [hopened]
    exact hstage.2
  | exchanging x => exact hflight hstage
  | rechecking t => exact hflight hstage
  | rechecked t ref => exact hflight hstage
  | reopening t ref => exact hflight hstage
  | reopened t ref material => exact hflight hstage

end

theorem Core.same (h : Core w) {w' : World} (hstate : w'.state = w.state) (hfresh : w'.freshExchange = w.freshExchange)
    (hobserved : w'.observed = w.observed) (hopened : w'.opened = w.opened) (hreturned : w'.returned = w.returned)
    (hinvalidated : w'.invalidated = w.invalidated) : Core w' := by
  constructor
  · rw [hstate]
    exact h.secret
  · rw [hstate, hfresh]
    exact h.known
  · rw [hstate, hinvalidated]
    exact h.valid
  · rw [hstate, hopened]
    exact h.opened
  · rw [hreturned]
    refine fun r hr => (h.returned r hr).mono (by rw [hstate]) ?_ ?_ (by rw [hfresh])
    · rw [hobserved]
      exact fun _ ho => ho
    · rw [hopened]
      exact fun _ ho => ho
  · rw [hreturned, hstate]
    exact h.matched
  · rw [hinvalidated, hreturned]
    exact h.invalidated

theorem Sound.next (h : Sound w) (a : Action) : Sound (w.next b a) := by
  cases a with
  | authorize i bound =>
    unfold World.next
    dsimp only
    split
    · split
      · exact h.outside (by rintro stage ⟨⟩)
      · exact h.outside (by rintro stage ⟨⟩)
    · exact h
  | acquire i =>
    unfold World.next
    dsimp only
    split
    · rename_i hi
      exact h.acquire
    · exact h
  | serve i => exact h.inside fun stage hi => h.serve hi
  | resume i => exact h.inside fun stage hi => h.resume hi
  | exchange i => exact h.inside fun stage hi => h.exchange hi
  | answer i value expiresIn => exact h.inside fun stage hi => h.answer hi
  | raised i =>
    unfold World.next
    dsimp only
    split
    · exact h.outside (by rintro stage ⟨⟩)
    · rename_i hi
      exact .finish h.core (h.alone hi)
    · exact h
  | invalidate lease =>
    have hcore := h.core.invalidate lease
    change Sound (w.invalidate lease)
    unfold World.invalidate at hcore ⊢
    split at hcore
    · rename_i hfree
      rw [if_pos hfree]
      dsimp only at hcore ⊢
      split at hcore
      · rename_i hsame
        rw [if_pos hsame]
        exact h.touched hcore rfl rfl rfl rfl rfl rfl (by rintro t ⟨⟩) fun hopen => ⟨hopen, rfl⟩
      rename_i hdiff
      rw [if_neg hdiff]
      exact h.touched hcore rfl rfl rfl rfl rfl rfl (fun _ ht => ht) fun hopen => ⟨hopen, rfl⟩
    · rename_i hheld
      rw [if_neg hheld]
      exact h
  | retire =>
    have hcore : Core { w with isClosed := true, state := World.cleared w.state } :=
      h.core.clear.same rfl rfl rfl rfl rfl rfl
    exact h.touched hcore rfl rfl rfl rfl rfl rfl (by rintro t ⟨⟩) (by rintro ⟨⟩)
  | close =>
    have hcore : Core { w with isClosed := true } := h.core.same rfl rfl rfl rfl rfl rfl
    exact h.touched hcore rfl rfl rfl rfl rfl rfl (fun _ ht => ht) (by rintro ⟨⟩)
  | clear =>
    change Sound (if w.isClosed = true ∧ w.state.holder = none then { w with state := World.cleared w.state } else w)
    split
    · rename_i hclosed
      refine h.touched h.core.clear rfl rfl rfl rfl rfl rfl (by rintro t ⟨⟩) ?_
      intro hopen
      exact absurd (hclosed.1.symm.trans hopen) Bool.true_eq_false.mp
    · exact h
  | configure snapshot =>
    have hcore : Core { w with snapshot := snapshot } := h.core.same rfl rfl rfl rfl rfl rfl
    exact h.touched hcore rfl rfl rfl rfl rfl rfl (fun _ ht => ht) fun hopen => ⟨hopen, rfl⟩
  | store ref material =>
    have hcore : Core { w with secrets := Function.update w.secrets ref material } := h.core.same rfl rfl rfl rfl rfl rfl
    exact h.touched hcore rfl rfl rfl rfl rfl rfl (fun _ ht => ht) fun hopen => ⟨hopen, rfl⟩
  | advance now =>
    have hcore : Core { w with clock := max w.clock now } := h.core.same rfl rfl rfl rfl rfl rfl
    exact h.touched hcore rfl rfl rfl rfl rfl rfl (fun _ ht => ht) fun hopen => ⟨hopen, rfl⟩

theorem Sound.initial (h : w.Initial) : Sound w := by
  have hidle : ∀ i stage, w.calls i ≠ .inside stage := by
    intro i stage
    rw [h.calls]
    rintro ⟨⟩
  refine ⟨⟨?_, ?_, ?_, ?_, ?_, ?_, ?_⟩, fun i stage hi => absurd hi (hidle i stage), fun i stage hi => absurd hi (hidle i stage)⟩
  · rw [h.accessToken]
    rintro t ⟨⟩
  · rw [h.accessToken]
    rintro t ⟨⟩
  · rw [h.accessToken]
    rintro t ⟨⟩
  · rw [h.accessToken]
    rintro t ⟨⟩
  · rw [h.returned]
    exact fun r hr => absurd hr List.not_mem_nil
  · rw [h.returned]
    exact fun r hr => absurd hr List.not_mem_nil
  · rw [h.invalidated]
    exact fun id hid => absurd hid List.not_mem_nil

end Steps

end GameLink.Sources.Tokens

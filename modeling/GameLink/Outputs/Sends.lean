import GameLink.Outputs.Effects

namespace GameLink.Outputs

open Foundation Work Contracts

/-- The root and the generation that a `begin_sending` call goes through for. -/
def OutputCall.begins (s : OutputStore) : OutputCall → Option (String × ℕ)
  | beginSending c now lease =>
    match (transaction (Outputs.beginSending c now lease) s).1 with
    | .ok (some x) => some (x.rootInvocationId, x.claimGeneration)
    | _ => none
  | _ => none

/-- The call is a claim that goes through and drops the row of `root`, which the retention no longer keeps. -/
def OutputCall.Expunges (s : OutputStore) (root : String) : OutputCall → Prop
  | claim retention q => (∃ x s', transaction (Outputs.claim retention q) s = (.ok x, s')) ∧
      ∃ r, s.rows.get root = some r ∧ expired (q.now - retention) r = true
  | _ => False

/-- How far one routing of a result has come. `claimed` and `sending` hold the claim that the store has answered with,
`scheduled` has been approved, and `sent` has entered the message port. -/
inductive Sender where
  | idle
  | claimed (c : RootOutputClaim)
  | sending (c : RootOutputClaim)
  | scheduled (c : RootOutputClaim)
  | sent (c : RootOutputClaim)
  | ended

/-- The routings of all processes over one store. `begun` and `port` log the `begin_sending` calls that have gone
through and the entries into the message port. -/
structure World where
  store : OutputStore
  senders : ℕ → Sender
  begun : List (String × ℕ)
  port : List (String × ℕ)

inductive SendStep where
  | claim (retention : ℤ) (q : ClaimRequest)
  /-- The final check refuses the result before the send begins. -/
  | refuse (now : Instant) (errorCode : String)
  /-- The answer is lost to a cancellation unless `answered`. -/
  | begin (now lease : Instant) (answered : Bool)
  /-- The authority has changed, or the admission does not approve the send. -/
  | abort (now : Instant) (errorCode : String)
  | schedule
  | enter
  | settle (receipt : MessageReceipt) (now : Instant)
  | drop

namespace World

def call (w : World) (c : OutputCall) : World :=
  { w with store := c.run w.store, begun := w.begun ++ (c.begins w.store).toList }

def put (w : World) (i : ℕ) (x : Sender) : World := { w with senders := Function.update w.senders i x }

def owned (ownerToken : String) : Except OutputFailure RootOutputClaim → Sender
  | .ok c => if c.state = .claimed ∧ c.ownerToken = ownerToken then .claimed c else .ended
  | .error _ => .ended

def approved (answered : Bool) : Except OutputFailure (Option RootOutputClaim) → Sender
  | .ok (some c) => if answered then .sending c else .ended
  | _ => .ended

def message (c : RootOutputClaim) : String × ℕ := (c.rootInvocationId, c.claimGeneration)

def send (w : World) (i : ℕ) (step : SendStep) : World :=
  match w.senders i, step with
  | .idle, .claim retention q =>
    (w.call (.claim retention q)).put i (owned q.ownerToken (transaction (Outputs.claim retention q) w.store).1)
  | .claimed c, .refuse now errorCode =>
    (w.call (.complete c none .controlledResult now (some errorCode))).put i .ended
  | .claimed c, .begin now lease answered =>
    (w.call (.beginSending c now lease)).put i
      (approved answered (transaction (Outputs.beginSending c now lease) w.store).1)
  | .sending c, .abort now errorCode => (w.call (.abortBeforeDispatch c now errorCode)).put i .ended
  | .sending c, .schedule => w.put i (.scheduled c)
  | .scheduled c, .enter => { w with port := w.port ++ [message c] }.put i (.sent c)
  | .scheduled c, .settle receipt now => (w.call (.complete c (some receipt) .message now none)).put i .ended
  | .sent c, .settle receipt now => (w.call (.complete c (some receipt) .message now none)).put i .ended
  | _, .drop => w.put i .ended
  | _, _ => w

end World

inductive Action where
  | call (c : OutputCall)
  | send (i : ℕ) (step : SendStep)

def World.step (w : World) : Action → World
  | .call c => w.call c
  | .send i step => w.send i step

def World.calls (w : World) : Action → Option OutputCall
  | .call c => some c
  | .send i step =>
    match w.senders i, step with
    | .idle, .claim retention q => some (.claim retention q)
    | .claimed c, .refuse now errorCode => some (.complete c none .controlledResult now (some errorCode))
    | .claimed c, .begin now lease _ => some (.beginSending c now lease)
    | .sending c, .abort now errorCode => some (.abortBeforeDispatch c now errorCode)
    | .scheduled c, .settle receipt now => some (.complete c (some receipt) .message now none)
    | .sent c, .settle receipt now => some (.complete c (some receipt) .message now none)
    | _, _ => none

def outputs : System World Action where
  start w := w.store.rows = .empty ∧ w.store.nextGeneration = 1 ∧ (∀ i, w.senders i = .idle) ∧ w.begun = [] ∧ w.port = []
  allowed _ _ := True
  next := World.step

/-- The runs along which the row of `root` is not dropped by the retention. -/
def sparing (root : String) : System World Action where
  start := outputs.start
  allowed w a := ∀ c, w.calls a = some c → ¬ c.Expunges w.store root
  next := World.step

variable {s s' : OutputStore} {c : OutputCall} {root : String}

theorem OutputCall.moved (c : OutputCall) (s : OutputStore) (root : String) :
    ∃ x, (x = s.rows.get root ∨ (x = none ∧ c.Expunges s root)) ∧
      RowMove s.nextGeneration (c.run s).nextGeneration x ((c.run s).rows.get root) ∧
      s.nextGeneration ≤ (c.run s).nextGeneration := by
  have hsame : StoreMove s (c.run s) → ∃ x, (x = s.rows.get root ∨ (x = none ∧ c.Expunges s root)) ∧
      RowMove s.nextGeneration (c.run s).nextGeneration x ((c.run s).rows.get root) ∧
      s.nextGeneration ≤ (c.run s).nextGeneration :=
    fun h => ⟨_, .inl rfl, h.rows root, h.generation⟩
  cases c with
  | claim retention q =>
    rcases transaction_cases (Outputs.claim retention q) s with ⟨x, s', h⟩ | ⟨e, h⟩
    · obtain ⟨gs, hgives, -⟩ := transaction_ok.mp h
      have hmove := (claim_gives hgives).1
      have hrun : (OutputCall.claim retention q).run s = s' := congrArg Prod.snd h
      rw [hrun]
      have hget : (pruned s (q.now - retention)).rows.get root =
          (s.rows.get root).filter fun r => !expired (q.now - retention) r := Table.get_delete _ _ _
      refine ⟨_, ?_, hget ▸ hmove.rows root, hmove.generation⟩
      cases hrow : s.rows.get root with
      | none => exact .inl rfl
      | some r =>
        cases hexpired : expired (q.now - retention) r with
        | true => exact .inr ⟨by simp [Option.filter, hexpired], ⟨x, s', h⟩, r, hrow, hexpired⟩
        | false => exact .inl (by simp [Option.filter, hexpired])
    · apply hsame
      have hrun : (OutputCall.claim retention q).run s = s := congrArg Prod.snd h
      rw [hrun]
      exact .refl s
  | beginSending c now lease =>
    apply hsame
    refine transaction_store (P := StoreMove s) (.refl s) ?_
    intro y u hgives
    rcases beginSending_gives hgives with ⟨r, hmatch, -, hupdated⟩ | ⟨-, hstore⟩
    · exact hupdated.move (.begun _ _ hmatch.state rfl ⟨rfl, rfl, rfl, rfl⟩)
    · rw [hstore]
      exact .refl s
  | complete c receipt outcome completedAt errorCode =>
    apply hsame
    refine transaction_store (P := StoreMove s) (.refl s) ?_
    intro y u hgives
    rcases complete_gives hgives with ⟨r, hmatch, hupdated⟩ | ⟨-, hstore⟩
    · refine hupdated.move (.finished _ _ ?_ rfl ⟨rfl, rfl, rfl, rfl⟩)
      rw [hmatch.state, expectedState]
      split
      · rfl
      · rfl
    · rw [hstore]
      exact .refl s
  | abortBeforeDispatch c completedAt errorCode =>
    apply hsame
    refine transaction_store (P := StoreMove s) (.refl s) ?_
    intro y u hgives
    rcases abortBeforeDispatch_gives hgives with ⟨r, hmatch, hupdated⟩ | ⟨-, hstore⟩
    · refine hupdated.move (.finished _ _ ?_ rfl ⟨rfl, rfl, rfl, rfl⟩)
      rw [hmatch.state]
      rfl
    · rw [hstore]
      exact .refl s
  | recoverExpired before recoveredAt =>
    apply hsame
    refine transaction_store (P := StoreMove s) (.refl s) ?_
    intro y u hgives
    simp only [Outputs.recoverExpired, gives_bind, gives_read] at hgives
    obtain ⟨_, _, ⟨rfl, rfl⟩, hgives⟩ := hgives
    obtain ⟨hrows, hgeneration⟩ := recoverRows_gives hgives
    exact ⟨fun k => (hrows k).move, hgeneration.ge⟩

theorem OutputCall.begins_spec {g : ℕ} (h : c.begins s = some (root, g)) :
    ∃ r r', s.rows.get root = some r ∧ (c.run s).rows.get root = some r' ∧ r.claim.state = .claimed ∧
      r'.claim.state = .sending ∧ r.claim.claimGeneration = g ∧ r'.claim.claimGeneration = g := by
  cases c with
  | beginSending c now lease =>
    rcases transaction_cases (Outputs.beginSending c now lease) s with ⟨y, s', ht⟩ | ⟨e, ht⟩
    · obtain ⟨gs, hgives, -⟩ := transaction_ok.mp ht
      simp only [begins, ht] at h
      rcases beginSending_gives hgives with ⟨r, hmatch, rfl, hupdated⟩ | ⟨rfl, -⟩
      · simp only [Option.some.injEq, Prod.mk.injEq] at h
        obtain ⟨hroot, hg⟩ := h
        have hroot' : c.rootInvocationId = root := by
          rw [← hroot, ← hmatch.root]
          rfl
        have hrun : (OutputCall.beginSending c now lease).run s = s' := congrArg Prod.snd ht
        rw [hrun]
        subst hroot'
        exact ⟨r, beginRow now lease r, hupdated.was, hupdated.becomes, hmatch.state, rfl, hg, hg⟩
      · cases h
    · simp only [begins, ht] at h
      cases h
  | claim retention q => cases h
  | complete c receipt outcome completedAt errorCode => cases h
  | abortBeforeDispatch c completedAt errorCode => cases h
  | recoverExpired before recoveredAt => cases h

end GameLink.Outputs

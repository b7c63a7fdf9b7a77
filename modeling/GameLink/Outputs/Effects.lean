import GameLink.Outputs.Repository

namespace GameLink.Outputs

open Foundation Work Contracts

structure Carried (r r' : OutputRow) : Prop where
  outputIdentity : r'.claim.outputIdentity = r.claim.outputIdentity
  payloadFingerprint : r'.claim.payloadFingerprint = r.claim.payloadFingerprint
  ownerToken : r'.claim.ownerToken = r.claim.ownerToken
  claimGeneration : r'.claim.claimGeneration = r.claim.claimGeneration

inductive RowMove (n n' : ℕ) : Option OutputRow → Option OutputRow → Prop
  | kept (x : Option OutputRow) : RowMove n n' x x
  | created (r : OutputRow) (hstate : r.claim.state = .claimed) (hn : n ≤ r.claim.claimGeneration)
      (hn' : r.claim.claimGeneration < n') : RowMove n n' none (some r)
  | retaken (r r' : OutputRow) (hstate : r.claim.state = .claimed) (hstate' : r'.claim.state = .claimed)
      (hidentity : r'.claim.outputIdentity = r.claim.outputIdentity)
      (hfingerprint : r'.claim.payloadFingerprint = r.claim.payloadFingerprint)
      (hn : n ≤ r'.claim.claimGeneration) (hn' : r'.claim.claimGeneration < n') : RowMove n n' (some r) (some r')
  | begun (r r' : OutputRow) (hstate : r.claim.state = .claimed) (hstate' : r'.claim.state = .sending)
      (hcarried : Carried r r') : RowMove n n' (some r) (some r')
  | finished (r r' : OutputRow) (hstate : r.claim.state.terminal = false) (hstate' : r'.claim.state = .completed)
      (hcarried : Carried r r') : RowMove n n' (some r) (some r')
  | lost (r r' : OutputRow) (hstate : r.claim.state = .sending) (hstate' : r'.claim.state = .unknown)
      (hcarried : Carried r r') : RowMove n n' (some r) (some r')

structure StoreMove (s s' : OutputStore) : Prop where
  rows : ∀ k, RowMove s.nextGeneration s'.nextGeneration (s.rows.get k) (s'.rows.get k)
  generation : s.nextGeneration ≤ s'.nextGeneration

theorem StoreMove.refl (s : OutputStore) : StoreMove s s := ⟨fun _ => .kept _, le_rfl⟩

structure Updated (k : String) (r r' : OutputRow) (s s' : OutputStore) : Prop where
  was : s.rows.get k = some r
  becomes : s'.rows.get k = some r'
  others : ∀ k', k' ≠ k → s'.rows.get k' = s.rows.get k'
  generation : s'.nextGeneration = s.nextGeneration

theorem Updated.move {k : String} {r r' : OutputRow} {s s' : OutputStore} (h : Updated k r r' s s')
    (hmove : RowMove s.nextGeneration s'.nextGeneration (some r) (some r')) : StoreMove s s' where
  rows k' := by
    by_cases hk : k' = k
    · rw [hk, h.was, h.becomes]
      exact hmove
    · rw [h.others k' hk]
      exact .kept _
  generation := h.generation.ge

variable {u u' : UnitOfWork OutputStore OutputFailure} {s s' : OutputStore} {k : String} {c x : RootOutputClaim}
  {p : OutputRow → Bool} {f : OutputRow → OutputRow} {hf : ∀ r, (f r).root = r.root} {n : ℕ}

theorem build_eq_ok : c.build = .ok x ↔ checkClaim c = none ∧ c = x := by
  unfold RootOutputClaim.build
  cases checkClaim c with
  | none => simp
  | some e => simp

theorem readRow_eq_ok {r : OutputRow} : readRow r = .ok x ↔ checkClaim r.claim = none ∧ r.claim = x := build_eq_ok

theorem updateRows_gives (hp : ∀ r, p r = true → r.root = k) (h : (updateRows p f hf).Gives u n u') :
    (n = 1 ∧ ∃ r, p r = true ∧ Updated k r (f r) u.store u'.store) ∨ (n ≠ 1 ∧ u'.store = u.store) := by
  simp only [updateRows, gives_bind, gives_read, gives_raiseIf, gives_write, gives_pure] at h
  obtain ⟨_, _, ⟨rfl, rfl⟩, _, _, ⟨-, rfl⟩, _, _, rfl, rfl, rfl⟩ := h
  have hform : p = fun r => decide (r.root = k) && p r := by
    funext r
    cases hr : p r with
    | false => simp
    | true => simp [hp r hr]
  have hone : u.store.rows.matching p = 1 ↔ ∃ r, u.store.rows.get k = some r ∧ p r = true := by
    conv_lhs => rw [hform]
    exact Table.matching_eq_one u.store.rows k p
  by_cases hn : u.store.rows.matching p = 1
  · obtain ⟨r, hr, hpr⟩ := hone.mp hn
    refine .inl ⟨hn, r, hpr, hr, ?_, ?_, rfl⟩
    · change (u.store.rows.update p f hf).get k = some (f r)
      rw [Table.get_update, hr, Option.map_some, if_pos hpr]
    intro k' hk
    change (u.store.rows.update p f hf).get k' = u.store.rows.get k'
    exact Table.get_update_other hk hp
  · refine .inr ⟨hn, ?_⟩
    have hnone : u.store.rows.update p f hf = u.store.rows := by
      apply Table.update_of_none
      intro r hr
      by_contra hpr
      rw [Bool.not_eq_false] at hpr
      exact hn (hone.mpr ⟨r, Table.get_eq_some.mpr ⟨hr, hp r hpr⟩, hpr⟩)
    change { u.store with rows := u.store.rows.update p f hf } = u.store
    rw [hnone]

theorem lookup_gives (h : (lookup k).Gives u x u') : u' = u ∧ ∃ r, u.store.rows.get k = some r ∧ r.claim = x := by
  simp only [lookup, gives_bind, gives_read, gives_orRaise, gives_ofExcept, readRow_eq_ok] at h
  obtain ⟨_, _, ⟨rfl, rfl⟩, r, _, ⟨hr, rfl⟩, ⟨-, hx⟩, rfl⟩ := h
  exact ⟨rfl, r, hr, hx⟩

variable {y : Option RootOutputClaim}

theorem updateClaimed_gives (hp : ∀ r, p r = true → r.root = k) (h : (updateClaimed k p f hf).Gives u y u') :
    (∃ r, p r = true ∧ y = some (f r).claim ∧ Updated k r (f r) u.store u'.store) ∨
      (y = none ∧ u'.store = u.store) := by
  simp only [updateClaimed, gives_bind] at h
  obtain ⟨n, v, hupdate, h⟩ := h
  rcases updateRows_gives hp hupdate with ⟨hn, r, hpr, hupdated⟩ | ⟨hn, hstore⟩
  · rw [if_neg (not_not.mpr hn)] at h
    simp only [gives_bind, gives_pure] at h
    obtain ⟨claim, _, hlookup, rfl, rfl⟩ := h
    obtain ⟨rfl, r', hr', rfl⟩ := lookup_gives hlookup
    rw [hupdated.becomes] at hr'
    obtain rfl := Option.some.inj hr'
    exact .inl ⟨r, hpr, rfl, hupdated⟩
  · rw [if_pos hn] at h
    obtain ⟨rfl, rfl⟩ := gives_pure.mp h
    exact .inr ⟨rfl, hstore⟩

structure Matches (c : RootOutputClaim) (state : RootOutputState) (r : OutputRow) : Prop where
  root : r.root = c.rootInvocationId
  outputIdentity : r.claim.outputIdentity = c.outputIdentity
  payloadFingerprint : r.claim.payloadFingerprint = c.payloadFingerprint
  ownerToken : r.claim.ownerToken = c.ownerToken
  claimGeneration : r.claim.claimGeneration = c.claimGeneration
  state : r.claim.state = state

theorem atClaim_eq_true {state : RootOutputState} {r : OutputRow} : atClaim c state r = true ↔ Matches c state r := by
  simp only [atClaim, Bool.and_eq_true, decide_eq_true_eq]
  constructor
  · rintro ⟨h₁, h₂, h₃, h₄, h₅, h₆⟩
    exact ⟨h₁, h₂, h₃, h₄, h₅, h₆⟩
  · rintro ⟨h₁, h₂, h₃, h₄, h₅, h₆⟩
    exact ⟨h₁, h₂, h₃, h₄, h₅, h₆⟩

theorem beginSending_gives {now lease : Instant} (h : (beginSending c now lease).Gives u y u') :
    (∃ r, Matches c .claimed r ∧ y = some (beginRow now lease r).claim ∧
      Updated c.rootInvocationId r (beginRow now lease r) u.store u'.store) ∨ (y = none ∧ u'.store = u.store) := by
  simp only [beginSending, gives_bind, gives_raiseIf] at h
  obtain ⟨_, _, ⟨-, rfl⟩, _, _, ⟨-, rfl⟩, h⟩ := h
  have hp : ∀ r, (atClaim c .claimed r && decide (now < r.claim.leaseExpiresAt)) = true → Matches c .claimed r :=
    fun r hr => atClaim_eq_true.mp (Bool.and_eq_true_iff.mp hr).1
  rcases updateClaimed_gives (fun r hr => (hp r hr).root) h with ⟨r, hr, hy, hupdated⟩ | hnone
  · exact .inl ⟨r, hp r hr, hy, hupdated⟩
  · exact .inr hnone

variable {completedAt : Instant}

theorem complete_gives {receipt : Option MessageReceipt} {outcome : RootOutputOutcome}
    {errorCode : Option String}
    (h : (complete c receipt outcome completedAt errorCode).Gives u y u') :
    (∃ r, Matches c (expectedState receipt) r ∧
      Updated c.rootInvocationId r (completeRow outcome receipt errorCode completedAt r) u.store u'.store) ∨
      (y = none ∧ u'.store = u.store) := by
  simp only [complete, gives_bind, gives_raiseIf] at h
  obtain ⟨_, _, ⟨-, rfl⟩, _, _, ⟨-, rfl⟩, _, _, ⟨-, rfl⟩, _, _, ⟨-, rfl⟩, h⟩ := h
  rcases updateClaimed_gives (fun r hr => (atClaim_eq_true.mp hr).root) h with ⟨r, hr, -, hupdated⟩ | hnone
  · exact .inl ⟨r, atClaim_eq_true.mp hr, hupdated⟩
  · exact .inr hnone

theorem abortBeforeDispatch_gives {errorCode : String}
    (h : (abortBeforeDispatch c completedAt errorCode).Gives u y u') :
    (∃ r, Matches c .sending r ∧
      Updated c.rootInvocationId r (completeRow .controlledResult none (some errorCode) completedAt r) u.store
        u'.store) ∨ (y = none ∧ u'.store = u.store) := by
  simp only [abortBeforeDispatch, gives_bind, gives_raiseIf] at h
  obtain ⟨_, _, ⟨-, rfl⟩, _, _, ⟨-, rfl⟩, h⟩ := h
  have hp : ∀ r, (atClaim c .sending r && r.claim.receipt.isNone) = true → Matches c .sending r :=
    fun r hr => atClaim_eq_true.mp (Bool.and_eq_true_iff.mp hr).1
  rcases updateClaimed_gives (fun r hr => (hp r hr).root) h with ⟨r, hr, -, hupdated⟩ | hnone
  · exact .inl ⟨r, hp r hr, hupdated⟩
  · exact .inr hnone

def LostOrKept (x y : Option OutputRow) : Prop :=
  y = x ∨ ∃ r r', x = some r ∧ y = some r' ∧ r.claim.state = .sending ∧ r'.claim.state = .unknown ∧ Carried r r'

theorem LostOrKept.trans {x y z : Option OutputRow} (h : LostOrKept x y) (h' : LostOrKept y z) : LostOrKept x z := by
  rcases h with rfl | ⟨r, r', rfl, rfl, hstate, hstate', hcarried⟩
  · exact h'
  rcases h' with rfl | ⟨q, q', hq, -, hsending, -⟩
  · exact .inr ⟨r, r', rfl, rfl, hstate, hstate', hcarried⟩
  obtain rfl := Option.some.inj hq
  rw [hstate'] at hsending
  cases hsending

theorem LostOrKept.move {x y : Option OutputRow} {n n' : ℕ} (h : LostOrKept x y) : RowMove n n' x y := by
  rcases h with rfl | ⟨r, r', rfl, rfl, hstate, hstate', hcarried⟩
  · exact .kept _
  · exact .lost r r' hstate hstate' hcarried

theorem recoverRows_gives {before recoveredAt : Instant} {rows : List OutputRow} {recovered : List RootOutputClaim}
    (h : (recoverRows before recoveredAt rows).Gives u recovered u') :
    (∀ k, LostOrKept (u.store.rows.get k) (u'.store.rows.get k)) ∧
      u'.store.nextGeneration = u.store.nextGeneration := by
  induction rows generalizing u recovered with
  | nil =>
    obtain ⟨-, rfl⟩ := gives_pure.mp h
    exact ⟨fun _ => .inl rfl, rfl⟩
  | cons row rows ih =>
    simp only [recoverRows, gives_bind, gives_ofExcept, gives_pure] at h
    obtain ⟨current, _, ⟨-, rfl⟩, unknown, _, ⟨-, rfl⟩, n, v, hupdate, rest, _, hrest, -, rfl⟩ := h
    obtain ⟨hrows, hgeneration⟩ := ih hrest
    have hkey : ∀ r : OutputRow, (decide (r.root = current.rootInvocationId) &&
        (decide (r.claim.outputIdentity = current.outputIdentity) && (decide (r.claim.ownerToken = current.ownerToken) &&
          (decide (r.claim.claimGeneration = current.claimGeneration) && stale before r)))) = true →
        r.root = current.rootInvocationId ∧ r.claim.state = .sending := by
      intro r hr
      simp only [stale, Bool.and_eq_true, decide_eq_true_eq] at hr
      exact ⟨hr.1, hr.2.2.2.2.1⟩
    rcases updateRows_gives (fun r hr => (hkey r hr).1) hupdate with ⟨-, r, hr, hupdated⟩ | ⟨-, hstore⟩
    · refine ⟨fun k => LostOrKept.trans ?_ (hrows k), hgeneration.trans hupdated.generation⟩
      by_cases hk : k = current.rootInvocationId
      · rw [hk, hupdated.was, hupdated.becomes]
        exact .inr ⟨r, _, rfl, rfl, (hkey r hr).2, rfl, ⟨rfl, rfl, rfl, rfl⟩⟩
      · rw [hupdated.others k hk]
        exact .inl rfl
    · rw [hstore] at hrows hgeneration
      exact ⟨hrows, hgeneration⟩

def pruned (s : OutputStore) (cutoff : Instant) : OutputStore := { s with rows := s.rows.delete (expired cutoff) }

variable {q : ClaimRequest}

theorem claimFirst_gives (hnone : u.store.rows.get q.rootInvocationId = none) (h : (claimFirst q).Gives u x u') :
    StoreMove u.store u'.store ∧ x.rootInvocationId = q.rootInvocationId ∧
      ∃ r, u'.store.rows.get q.rootInvocationId = some r ∧ r.claim = x := by
  simp only [claimFirst, nextGeneration, gives_bind, gives_read, gives_write, gives_pure, gives_ofExcept, gives_raiseIf,
    gives_orRaise, build_eq_ok] at h
  obtain ⟨_, _, ⟨_, _, ⟨rfl, rfl⟩, _, _, rfl, rfl, rfl⟩, _, _, ⟨⟨-, rfl⟩, rfl⟩, _, _, ⟨rfl, rfl⟩, _, _, ⟨-, rfl⟩, rows, _,
    ⟨hinsert, rfl⟩, _, _, rfl, rfl, rfl⟩ := h
  have hget : ∀ k, rows.get k = if q.rootInvocationId = k then some ⟨q.first u.store.nextGeneration, q.now⟩
      else u.store.rows.get k := Table.get_insert hinsert
  refine ⟨⟨?_, Nat.le_succ _⟩, rfl, ⟨q.first u.store.nextGeneration, q.now⟩, ?_, rfl⟩
  · intro k
    change RowMove _ _ _ (rows.get k)
    rw [hget]
    by_cases hk : q.rootInvocationId = k
    · rw [if_pos hk, ← hk, hnone]
      exact .created _ rfl le_rfl (Nat.lt_succ_self _)
    · rw [if_neg hk]
      exact .kept _
  · change rows.get q.rootInvocationId = _
    rw [hget, if_pos rfl]

variable {current : RootOutputClaim}

theorem saveInterrupted_gives {now : Instant} {row : OutputRow}
    (hrow : u.store.rows.get current.rootInvocationId = some row) (hcurrent : row.claim = current)
    (hstate : current.state = .sending) (h : (saveInterrupted current now).Gives u x u') :
    StoreMove u.store u'.store ∧ x = current.interrupted := by
  simp only [saveInterrupted, gives_bind, gives_ofExcept, gives_pure, build_eq_ok] at h
  obtain ⟨_, _, ⟨⟨-, rfl⟩, rfl⟩, n, v, hupdate, rfl, rfl⟩ := h
  refine ⟨?_, rfl⟩
  have hkey : ∀ r : OutputRow, (decide (r.root = current.rootInvocationId) &&
      (decide (r.claim.outputIdentity = current.outputIdentity) &&
        decide (r.claim.claimGeneration = current.claimGeneration))) = true → r.root = current.rootInvocationId := by
    intro r hr
    exact of_decide_eq_true (Bool.and_eq_true_iff.mp hr).1
  rcases updateRows_gives hkey hupdate with ⟨-, r, -, hupdated⟩ | ⟨-, hstore⟩
  · apply hupdated.move
    have hr := hupdated.was
    rw [hrow] at hr
    obtain rfl := Option.some.inj hr
    rw [← hcurrent] at hstate
    exact .lost _ _ hstate rfl ⟨rfl, rfl, rfl, rfl⟩
  · rw [hstore]
    exact .refl _

theorem claimAgain_gives (h : (claimAgain q current).Gives u x u') :
    StoreMove u.store u'.store ∧ ∃ r, u'.store.rows.get q.rootInvocationId = some r ∧ r.claim = x := by
  simp only [claimAgain, nextGeneration, gives_bind, gives_read, gives_write, gives_pure] at h
  obtain ⟨_, _, ⟨_, _, ⟨rfl, rfl⟩, _, _, rfl, rfl, rfl⟩, n, v, hupdate, hlookup⟩ := h
  obtain ⟨rfl, hx⟩ := lookup_gives hlookup
  refine ⟨?_, hx⟩
  have hkey : ∀ r : OutputRow, (decide (r.root = q.rootInvocationId) &&
      (decide (r.claim.claimGeneration = current.claimGeneration) && (decide (r.claim.state = .claimed) &&
        decide (r.claim.leaseExpiresAt ≤ q.now)))) = true → r.root = q.rootInvocationId ∧ r.claim.state = .claimed := by
    intro r hr
    simp only [Bool.and_eq_true, decide_eq_true_eq] at hr
    exact ⟨hr.1, hr.2.2.1⟩
  rcases updateRows_gives (fun r hr => (hkey r hr).1) hupdate with ⟨-, r, hr, hupdated⟩ | ⟨-, hstore⟩
  · have hgeneration : u'.store.nextGeneration = u.store.nextGeneration + 1 := hupdated.generation
    refine ⟨?_, by omega⟩
    intro k
    by_cases hk : k = q.rootInvocationId
    · have hwas : u.store.rows.get k = some r := hk ▸ hupdated.was
      rw [hwas, hk, hupdated.becomes]
      refine .retaken r _ (hkey r hr).2 ?_ rfl rfl le_rfl ?_
      · exact (hkey r hr).2
      · rw [hgeneration]
        exact Nat.lt_succ_self _
    · have hother : u'.store.rows.get k = u.store.rows.get k := hupdated.others k hk
      rw [hother]
      exact .kept _
  · rw [hstore]
    exact ⟨fun k => .kept _, Nat.le_succ _⟩

theorem claimExisting_gives {row : OutputRow}
    (hrow : u.store.rows.get q.rootInvocationId = some row) (h : (claimExisting q row).Gives u x u') :
    StoreMove u.store u'.store ∧ row.claim.outputIdentity = q.outputIdentity ∧
      row.claim.payloadFingerprint = q.payloadFingerprint := by
  simp only [claimExisting, gives_bind, gives_ofExcept, gives_raiseIf, readRow_eq_ok] at h
  obtain ⟨current, _, ⟨⟨-, hcurrent⟩, rfl⟩, _, _, ⟨hsame, rfl⟩, h⟩ := h
  rw [hcurrent]
  refine ⟨?_, not_not.mp (not_or.mp hsame).1, not_not.mp (not_or.mp hsame).2⟩
  split at h
  · obtain ⟨-, rfl⟩ := gives_pure.mp h
    exact .refl _
  split at h
  · rename_i hstate
    have hkey : current.rootInvocationId = q.rootInvocationId := by
      have hroot : row.root = q.rootInvocationId := Table.key_of_get hrow
      rw [← hcurrent]
      exact hroot
    exact (saveInterrupted_gives (hkey ▸ hrow) hcurrent hstate h).1
  · exact (claimAgain_gives h).1

theorem claim_gives {retention : ℤ} (h : (claim retention q).Gives u x u') :
    StoreMove (pruned u.store (q.now - retention)) u'.store ∧
      ∀ row, (pruned u.store (q.now - retention)).rows.get q.rootInvocationId = some row →
        row.claim.outputIdentity = q.outputIdentity ∧ row.claim.payloadFingerprint = q.payloadFingerprint := by
  simp only [claim, gives_bind, gives_raiseIf, gives_write, gives_read] at h
  obtain ⟨_, _, ⟨-, rfl⟩, _, _, rfl, _, _, ⟨rfl, rfl⟩, h⟩ := h
  cases hrow : (u.store.rows.delete (expired (q.now - retention))).get q.rootInvocationId with
  | none =>
    rw [hrow] at h
    refine ⟨(claimFirst_gives hrow h).1, ?_⟩
    intro row hrow'
    change (u.store.rows.delete (expired (q.now - retention))).get q.rootInvocationId = some row at hrow'
    rw [hrow] at hrow'
    cases hrow'
  | some row =>
    rw [hrow] at h
    obtain ⟨hmove, hsame⟩ := claimExisting_gives hrow h
    refine ⟨hmove, ?_⟩
    intro row' hrow'
    change (u.store.rows.delete (expired (q.now - retention))).get q.rootInvocationId = some row' at hrow'
    rw [hrow] at hrow'
    obtain rfl := Option.some.inj hrow'
    exact hsame

end GameLink.Outputs

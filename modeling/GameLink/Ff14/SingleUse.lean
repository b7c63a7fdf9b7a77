import GameLink.Ff14.Candidates
import Mathlib.Data.List.ReduceOption

namespace GameLink.Ff14.Candidates

open Foundation

structure Offer where
  owner : TrustedOwner
  batch : CandidateBatch

structure Fence where
  owner : TrustedOwner
  eventRef : String
  consumedAt : ℚ

/-- `issued`, `offered`, `chosen` and `fences` are the history: the tickets, the latest first, the batches with their
owners, those that were chosen from, and the consumed events. -/
structure World where
  clock : ℚ
  registry : CandidateRegistry
  issued : List QueryTicket
  offered : List Offer
  chosen : List String
  fences : List Fence

inductive Action where
  | begin (owner : Option TrustedOwner) (sourceRef : Option String) (generation : String) (pruned stamped : ℚ)
  | consumeEvents (ticket : QueryTicket) (refs : List (Option String)) (checked stamped : ℚ)
  | requireFreshEvent (owner : TrustedOwner) (eventRef : String) (now : ℚ)
  | toolQuery (owner : TrustedOwner) (eventRef query action : String) (checked pruned : ℚ)
  | chooseConfirmed (owner : Option TrustedOwner) (batchId generation : String) (itemId : ℤ) (eventRef : String)
      (retain : Bool) (pruned fresh checked stamped chosen : ℚ)
  | clarify (owner : TrustedOwner) (batchId generation eventRef : String) (checked pruned : ℚ)
  | releaseConfirmed (ticket : QueryTicket)
  | abandon (ticket : QueryTicket)
  | finish (ticket : QueryTicket) (query : Query) (retain : Bool) (now : ℚ)
  | publish (ticket : QueryTicket) (query : Query) (candidates : List ItemCandidate) (truncated : Bool) (batchId : String)
      (now : ℚ)
  | choose (owner : Option TrustedOwner) (batchId generation : String) (itemId : ℤ) (retain : Bool) (now : ℚ)
  | size (now : ℚ)

def Action.readings : Action → List ℚ
  | begin _ _ _ pruned stamped => [pruned, stamped]
  | consumeEvents _ _ checked stamped => [checked, stamped]
  | requireFreshEvent _ _ now => [now]
  | toolQuery _ _ _ _ checked pruned => [checked, pruned]
  | chooseConfirmed _ _ _ _ _ _ pruned fresh checked stamped chosen => [pruned, fresh, checked, stamped, chosen]
  | clarify _ _ _ _ checked pruned => [checked, pruned]
  | finish _ _ _ now => [now]
  | publish _ _ _ _ _ now => [now]
  | choose _ _ _ _ _ now => [now]
  | size now => [now]
  | _ => []

def fencesOf (owner : TrustedOwner) (refs : List (Option String)) (now : ℚ) : List Fence :=
  refs.reduceOption.map fun eventRef => ⟨owner, eventRef, now⟩

namespace World

variable (p : Policy)

def settle (w : World) (now : ℚ) (s : CandidateRegistry) : World := { w with clock := now, registry := s }

def begin (w : World) (owner : Option TrustedOwner) (sourceRef : Option String) (generation : String)
    (pruned stamped : ℚ) : World :=
  match w.registry.begin p owner sourceRef generation pruned stamped with
  | (.ok ticket, s) => { w.settle stamped s with issued := ticket :: w.issued }
  | (.error _, s) => w.settle stamped s

def consumeEvents (w : World) (ticket : QueryTicket) (refs : List (Option String)) (checked stamped : ℚ) : World :=
  match w.registry.consumeEvents p ticket refs checked stamped with
  | (.ok _, s) => { w.settle stamped s with fences := w.fences ++ fencesOf ticket.owner refs stamped }
  | (.error _, s) => w.settle stamped s

def publish (w : World) (ticket : QueryTicket) (query : Query) (candidates : List ItemCandidate) (truncated : Bool)
    (batchId : String) (now : ℚ) : World :=
  match w.registry.publish p ticket query candidates truncated batchId now with
  | (.ok batch, s) => { w.settle now s with offered := w.offered ++ [⟨ticket.owner, batch⟩] }
  | (.error _, s) => w.settle now s

def choose (w : World) (owner : Option TrustedOwner) (batchId generation : String) (itemId : ℤ) (retain : Bool)
    (now : ℚ) : World :=
  match w.registry.choose owner batchId generation itemId retain now with
  | (.ok _, s) => { w.settle now s with chosen := batchId :: w.chosen }
  | (.error _, s) => w.settle now s

def confirmed (w : World) (owner : Option TrustedOwner) (batchId generation : String) (itemId : ℤ) (eventRef : String)
    (pruned fresh checked stamped : ℚ) : List Fence :=
  match owner with
  | none => []
  | some owner =>
    if eventRef = "" then []
    else
      match w.registry.confirm p owner batchId generation itemId eventRef pruned fresh checked stamped with
      | (.ok (r, _), _) => fencesOf owner [r.sourceRef, some eventRef] stamped
      | (.error _, _) => []

def chooseConfirmed (w : World) (owner : Option TrustedOwner) (batchId generation : String) (itemId : ℤ)
    (eventRef : String) (retain : Bool) (pruned fresh checked stamped chosen : ℚ) : World :=
  match w.registry.chooseConfirmed p owner batchId generation itemId eventRef retain pruned fresh checked stamped chosen with
  | (.ok _, s) => { w.settle chosen s with
      chosen := batchId :: w.chosen
      fences := w.fences ++ w.confirmed p owner batchId generation itemId eventRef pruned fresh checked stamped }
  | (.error _, s) => { w.settle chosen s with
      fences := w.fences ++ w.confirmed p owner batchId generation itemId eventRef pruned fresh checked stamped }

def next (w : World) : Action → World
  | .begin owner sourceRef generation pruned stamped => w.begin p owner sourceRef generation pruned stamped
  | .consumeEvents ticket refs checked stamped => w.consumeEvents p ticket refs checked stamped
  | .requireFreshEvent owner eventRef now => w.settle now (w.registry.requireFreshEvent owner eventRef now).2
  | .toolQuery owner eventRef query action checked pruned =>
    w.settle pruned (w.registry.toolQuery owner eventRef query action checked pruned).2
  | .chooseConfirmed owner batchId generation itemId eventRef retain pruned fresh checked stamped chosen =>
    w.chooseConfirmed p owner batchId generation itemId eventRef retain pruned fresh checked stamped chosen
  | .clarify owner batchId generation eventRef checked pruned =>
    w.settle pruned (w.registry.clarify owner batchId generation eventRef checked pruned).2
  | .releaseConfirmed ticket => w.settle w.clock (w.registry.releaseConfirmed ticket)
  | .abandon ticket => w.settle w.clock (w.registry.abandon ticket)
  | .finish ticket query retain now => w.settle now (w.registry.finish ticket query retain now).2
  | .publish ticket query candidates truncated batchId now => w.publish p ticket query candidates truncated batchId now
  | .choose owner batchId generation itemId retain now => w.choose owner batchId generation itemId retain now
  | .size now => w.settle now (w.registry.prune now)

def allowed (w : World) (a : Action) : Prop :=
  (w.clock :: a.readings).Pairwise (· ≤ ·) ∧ match a with
    | .begin _ _ generation _ _ => ∀ ticket ∈ w.issued, ticket.generation ≠ generation
    | .publish _ _ _ _ batchId _ => ∀ o ∈ w.offered, o.batch.batchId ≠ batchId
    | _ => True

structure initial (w : World) : Prop where
  registry : w.registry = ⟨.empty, .empty⟩
  issued : w.issued = []
  offered : w.offered = []
  chosen : w.chosen = []
  fences : w.fences = []

def latest (w : World) (owner : TrustedOwner) : Option String :=
  (w.issued.find? fun ticket => decide (ticket.owner = owner)).map QueryTicket.generation

def Superseded (w : World) (ticket : QueryTicket) : Prop :=
  ticket ∈ w.issued ∧ w.latest ticket.owner ≠ some ticket.generation

end World

def registry (p : Policy) : System World Action where
  start := World.initial
  allowed := World.allowed
  next := World.next p

structure Kept (now : ℚ) (s s' : CandidateRegistry) : Prop where
  pending : ∀ r' ∈ s'.pending.rows, ∃ r ∈ s.pending.rows, r'.owner = r.owner ∧ r'.generation = r.generation ∧
    (r'.batch = r.batch ∨ r'.batch = none)
  pendingLength : s'.pending.rows.length ≤ s.pending.rows.length
  consumed : ∀ c ∈ s'.consumed.rows, c ∈ s.consumed.rows
  consumedLength : s'.consumed.rows.length ≤ s.consumed.rows.length
  live : ∀ c ∈ s.consumed.rows, now < c.expires → c ∈ s'.consumed.rows

section

variable {s s' s'' : CandidateRegistry} {now later : ℚ} {p : Policy} {owner : TrustedOwner} {ticket : QueryTicket}

theorem Kept.refl (now : ℚ) (s : CandidateRegistry) : Kept now s s :=
  ⟨fun r hr => ⟨r, hr, rfl, rfl, .inl rfl⟩, le_rfl, fun _ hc => hc, le_rfl, fun _ hc _ => hc⟩

theorem Kept.mono (h : Kept now s s') (hle : now ≤ later) : Kept later s s' :=
  ⟨h.pending, h.pendingLength, h.consumed, h.consumedLength, fun c hc hlive => h.live c hc (hle.trans_lt hlive)⟩

theorem Kept.trans (h : Kept now s s') (h' : Kept later s' s'') (hle : now ≤ later) : Kept later s s'' where
  pending r'' hr'' := by
    obtain ⟨r', hr', howner', hgeneration', hbatch'⟩ := h'.pending r'' hr''
    obtain ⟨r, hr, howner, hgeneration, hbatch⟩ := h.pending r' hr'
    refine ⟨r, hr, howner'.trans howner, hgeneration'.trans hgeneration, ?_⟩
    cases hbatch' with
    | inl hsame =>
      rw [hsame]
      exact hbatch
    | inr hnone => exact .inr hnone
  pendingLength := h'.pendingLength.trans h.pendingLength
  consumed c hc := h.consumed c (h'.consumed c hc)
  consumedLength := h'.consumedLength.trans h.consumedLength
  live c hc hlive := h'.live c (h.live c hc (hle.trans_lt hlive)) hlive

theorem kept_prune (s : CandidateRegistry) (now : ℚ) : Kept now s (s.prune now) where
  pending r hr := ⟨r, List.mem_of_mem_filter hr, rfl, rfl, .inl rfl⟩
  pendingLength := List.length_filter_le _ _
  consumed _ hc := List.mem_of_mem_filter hc
  consumedLength := List.length_filter_le _ _
  live c hc hlive := by
    apply List.mem_filter.mpr
    refine ⟨hc, ?_⟩
    rw [Bool.not_eq_true', decide_eq_false_iff_not, not_le]
    exact hlive

theorem kept_drop (s : CandidateRegistry) (owner : TrustedOwner) (now : ℚ) : Kept now s (s.drop owner) where
  pending r hr := ⟨r, List.mem_of_mem_filter hr, rfl, rfl, .inl rfl⟩
  pendingLength := List.length_filter_le _ _
  consumed _ hc := hc
  consumedLength := le_rfl
  live _ hc _ := hc

variable {f : Pending → Pending}

theorem mem_assign {hf : ∀ r, (f r).owner = r.owner} {r' : Pending} :
    r' ∈ (s.assign owner f hf).pending.rows ↔ ∃ r ∈ s.pending.rows, (if r.owner = owner then f r else r) = r' := by
  change r' ∈ s.pending.rows.map _ ↔ _
  rw [List.mem_map]
  simp only [decide_eq_true_eq]

theorem kept_assign {hf : ∀ r, (f r).owner = r.owner} (s : CandidateRegistry)
    (hgeneration : ∀ r, (f r).generation = r.generation) (hbatch : ∀ r, (f r).batch = r.batch ∨ (f r).batch = none) :
    Kept now s (s.assign owner f hf) where
  pending r' hr' := by
    obtain ⟨r, hr, rfl⟩ := mem_assign.mp hr'
    refine ⟨r, hr, ?_⟩
    split
    · exact ⟨hf r, hgeneration r, hbatch r⟩
    · exact ⟨rfl, rfl, .inl rfl⟩
  pendingLength := le_of_eq (List.length_map ..)
  consumed _ hc := hc
  consumedLength := le_rfl
  live _ hc _ := hc

theorem heldBy_eq_some {r : Pending} (h : s.heldBy ticket = some r) :
    r ∈ s.pending.rows ∧ r.owner = ticket.owner ∧ r.generation = ticket.generation := by
  obtain ⟨hget, hgeneration⟩ := Option.filter_eq_some_iff.mp h
  exact ⟨Table.mem_of_get hget, Table.key_of_get hget, of_decide_eq_true hgeneration⟩

theorem offering_eq_some {batchId generation : String} {r : Pending} {batch : CandidateBatch}
    (h : s.offering owner batchId generation = some (r, batch)) : r ∈ s.pending.rows ∧ r.owner = owner ∧
      r.generation = generation ∧ r.batch = some batch ∧ batch.batchId = batchId := by
  obtain ⟨r', hr', hbatch⟩ := Option.bind_eq_some_iff.mp h
  obtain ⟨b, hb, hpair⟩ := Option.map_eq_some_iff.mp hbatch
  obtain ⟨hbatch', hid⟩ := Option.filter_eq_some_iff.mp hb
  obtain ⟨hmem, howner, hgeneration⟩ := heldBy_eq_some hr'
  cases hpair
  exact ⟨hmem, howner, hgeneration, hbatch', of_decide_eq_true hid⟩

theorem current_cases (s : CandidateRegistry) (ticket : QueryTicket) (now : ℚ) :
    (∃ r, (s.prune now).heldBy ticket = some r ∧ s.current ticket now = (.ok r, s.prune now)) ∨
      ((s.prune now).heldBy ticket = none ∧ s.current ticket now = (.error .stale, s.prune now)) := by
  unfold CandidateRegistry.current
  cases h : (s.prune now).heldBy ticket with
  | none => exact .inr ⟨rfl, rfl⟩
  | some r => exact .inl ⟨r, rfl, rfl⟩

variable {checked pruned : ℚ}

theorem kept_toolQuery {eventRef query action : String} (h : checked ≤ pruned) :
    Kept pruned s (s.toolQuery owner eventRef query action checked pruned).2 := by
  unfold CandidateRegistry.toolQuery CandidateRegistry.requireFreshEvent
  split
  · exact .refl _ _
  cases (s.prune checked).replays owner eventRef with
  | true => exact (kept_prune s checked).mono h
  | false => exact (kept_prune s checked).trans (kept_prune _ pruned) h

theorem kept_clarify {batchId generation eventRef : String} (h : checked ≤ pruned) :
    Kept pruned s (s.clarify owner batchId generation eventRef checked pruned).2 := by
  unfold CandidateRegistry.clarify CandidateRegistry.requireFreshEvent
  cases (s.prune checked).replays owner eventRef with
  | true => exact (kept_prune s checked).mono h
  | false =>
    have hpruned := (kept_prune s checked).trans (kept_prune _ pruned) h
    rw [if_neg Bool.false_ne_true]
    dsimp only
    cases ((s.prune checked).prune pruned).offering owner batchId generation with
    | none => exact hpruned
    | some offer =>
      dsimp only
      split
      · exact hpruned
      · exact hpruned

theorem kept_releaseConfirmed : Kept now s (s.releaseConfirmed ticket) := by
  unfold CandidateRegistry.releaseConfirmed
  split
  · exact kept_drop _ _ _
  · exact .refl _ _

theorem kept_abandon : Kept now s (s.abandon ticket) := by
  unfold CandidateRegistry.abandon
  split
  · exact kept_drop _ _ _
  · exact .refl _ _

theorem kept_finish {query : Query} {retain : Bool} : Kept now s (s.finish ticket query retain now).2 := by
  unfold CandidateRegistry.finish
  obtain ⟨r, -, heq⟩ | ⟨-, heq⟩ := current_cases s ticket now
  · rw [heq]
    cases retain with
    | true => exact kept_prune s now
    | false => exact (kept_prune s now).trans (kept_drop _ _ now) le_rfl
  · rw [heq]
    exact kept_prune s now

theorem choose_cases (s : CandidateRegistry) (owner : TrustedOwner) (batchId generation : String) (itemId : ℤ)
    (retain : Bool) (now : ℚ) :
    (∃ e, s.choose (some owner) batchId generation itemId retain now = (.error e, s.prune now)) ∨
      ∃ r batch selected s', (s.prune now).offering owner batchId generation = some (r, batch) ∧
        selected ∈ batch.candidates ∧ selected.itemId = itemId ∧
        s.choose (some owner) batchId generation itemId retain now = (.ok (batch.query.select selected), s') ∧
        Kept now s s' ∧ ∀ r' ∈ s'.pending.rows, r'.owner = owner → r'.batch = none := by
  unfold CandidateRegistry.choose
  dsimp only
  cases hoffering : (s.prune now).offering owner batchId generation with
  | none => exact .inl ⟨_, rfl⟩
  | some offer =>
    obtain ⟨r, batch⟩ := offer
    dsimp only
    cases hfind : batch.candidates.find? fun c => decide (c.itemId = itemId) with
    | none => exact .inl ⟨_, rfl⟩
    | some selected =>
      right
      refine ⟨r, batch, selected, _, rfl, List.mem_of_find?_eq_some hfind, by simpa using List.find?_some hfind, rfl, ?_, ?_⟩
      · split
        · exact (kept_prune s now).trans (kept_assign _ (fun _ => rfl) fun _ => .inr rfl) le_rfl
        · exact (kept_prune s now).trans (kept_drop _ _ now) le_rfl
      intro r' hr' howner
      cases retain with
      | true =>
        obtain ⟨r₀, -, rfl⟩ := mem_assign.mp hr'
        by_cases hr₀ : r₀.owner = owner
        · rw [if_pos hr₀]
          rfl
        · rw [if_neg hr₀] at howner
          exact absurd howner hr₀
      | false =>
        have hout := (List.mem_filter.mp hr').2
        rw [Bool.not_eq_true', decide_eq_false_iff_not] at hout
        exact absurd howner hout

theorem length_replace {ρ κ : Type} [DecidableEq κ] {key : ρ → κ} (t : Table key) (r : ρ) :
    (t.replace r).rows.length ≤ t.rows.length + 1 ∧ (t.get (key r) ≠ none → (t.replace r).rows.length ≤ t.rows.length) := by
  change ((t.rows.filter _) ++ [r]).length ≤ _ ∧ (_ → ((t.rows.filter _) ++ [r]).length ≤ _)
  rw [List.length_append, List.length_singleton]
  constructor
  · exact Nat.succ_le_succ (List.length_filter_le _ _)
  intro hget
  obtain ⟨r', hr'⟩ := Option.ne_none_iff_exists'.mp hget
  apply Nat.succ_le_of_lt
  apply List.length_filter_lt_length_iff_exists.mpr
  refine ⟨r', Table.mem_of_get hr', ?_⟩
  simp [Table.key_of_get hr']

theorem consumeEvents_cases (p : Policy) (s : CandidateRegistry) (ticket : QueryTicket) (refs : List (Option String))
    (checked stamped : ℚ) :
    (∃ e, s.consumeEvents p ticket refs checked stamped = (.error e, s.prune checked)) ∨
      ∃ events, s.consumeEvents p ticket refs checked stamped = (.ok (), { s.prune checked with
          consumed := (s.prune checked).consumed.replace ⟨ticket, events, stamped + 300⟩ }) ∧
        (∀ eventRef, some eventRef ∈ refs → eventRef ∈ events) ∧
        (∀ c ∈ (s.prune checked).consumed.rows, c.ticket = ticket → c.refs ⊆ events) ∧ events.card ≤ 4 ∧
        ((s.prune checked).consumed.get ticket ≠ none ∨ (s.prune checked).consumed.rows.length < p.capacity) := by
  unfold CandidateRegistry.consumeEvents
  obtain ⟨r, -, heq⟩ | ⟨-, heq⟩ := current_cases s ticket checked
  · rw [heq]
    dsimp only
    split
    · exact .inl ⟨_, rfl⟩
    rename_i hevents
    rw [not_or, not_lt] at hevents
    split
    · exact .inl ⟨_, rfl⟩
    rename_i hroom
    right
    refine ⟨_, rfl, ?_, ?_, hevents.2, ?_⟩
    · intro eventRef href
      apply Finset.mem_union_left
      rw [List.mem_toFinset]
      exact List.reduceOption_mem_iff.mpr href
    · intro c hc hticket eventRef href
      apply Finset.mem_union_right
      have hget : (s.prune checked).consumed.get ticket = some c := Table.get_eq_some.mpr ⟨hc, hticket⟩
      rw [hget]
      exact href
    · rw [not_and_or, not_le] at hroom
      exact hroom
  · rw [heq]
    exact .inl ⟨_, rfl⟩

end

namespace World

structure Sound (p : Policy) (w : World) : Prop where
  pendingSize : w.registry.pending.rows.length ≤ p.capacity
  consumedSize : w.registry.consumed.rows.length ≤ p.capacity
  candidates : ∀ r ∈ w.registry.pending.rows, ∀ b ∈ r.batch, b.candidates.length ≤ p.maxCandidates
  events : ∀ c ∈ w.registry.consumed.rows, c.refs.card ≤ 4
  expiries : ∀ c ∈ w.registry.consumed.rows, c.expires ≤ w.clock + 300
  fenced : ∀ f ∈ w.fences, w.clock < f.consumedAt + 300 → ∃ c ∈ w.registry.consumed.rows,
    c.ticket.owner = f.owner ∧ f.eventRef ∈ c.refs ∧ f.consumedAt + 300 ≤ c.expires
  generations : ∀ r ∈ w.registry.pending.rows, w.latest r.owner = some r.generation
  offers : ∀ r ∈ w.registry.pending.rows, ∀ b ∈ r.batch, ⟨r.owner, b⟩ ∈ w.offered ∧ b.generation = r.generation ∧
    b.batchId ∉ w.chosen
  batchIds : (w.offered.map fun o => o.batch.batchId).Nodup
  chosenOnce : w.chosen.Nodup
  chosenOffered : ∀ batchId ∈ w.chosen, ∃ o ∈ w.offered, o.batch.batchId = batchId

section

variable {p : Policy} {w : World} {s' : CandidateRegistry} {now : ℚ} {a : Action}

section

variable (h : w.Sound p)
include h

theorem Sound.of_kept (hk : Kept now w.registry s') (hclock : w.clock ≤ now) :
    (w.settle now s').Sound p where
  pendingSize := hk.pendingLength.trans h.pendingSize
  consumedSize := hk.consumedLength.trans h.consumedSize
  candidates r' hr' b hb := by
    obtain ⟨r, hr, -, -, hbatch⟩ := hk.pending r' hr'
    cases hbatch with
    | inl hsame =>
      rw [hsame] at hb
      exact h.candidates r hr b hb
    | inr hnone =>
      rw [hnone] at hb
      cases hb
  events c hc := h.events c (hk.consumed c hc)
  expiries c hc := (h.expiries c (hk.consumed c hc)).trans (add_le_add_left hclock 300)
  fenced f hf hlive := by
    change now < f.consumedAt + 300 at hlive
    obtain ⟨c, hc, howner, href, hexpires⟩ := h.fenced f hf (hclock.trans_lt hlive)
    exact ⟨c, hk.live c hc (hlive.trans_le hexpires), howner, href, hexpires⟩
  generations r' hr' := by
    obtain ⟨r, hr, howner, hgeneration, -⟩ := hk.pending r' hr'
    rw [howner, hgeneration]
    exact h.generations r hr
  offers r' hr' b hb := by
    obtain ⟨r, hr, howner, hgeneration, hbatch⟩ := hk.pending r' hr'
    cases hbatch with
    | inl hsame =>
      rw [hsame] at hb
      rw [howner, hgeneration]
      exact h.offers r hr b hb
    | inr hnone =>
      rw [hnone] at hb
      cases hb
  batchIds := h.batchIds
  chosenOnce := h.chosenOnce
  chosenOffered := h.chosenOffered

theorem Sound.offer_unique {o o' : Offer} (ho : o ∈ w.offered) (ho' : o' ∈ w.offered)
    (hid : o.batch.batchId = o'.batch.batchId) : o = o' := List.inj_on_of_nodup_map h.batchIds ho ho' hid

theorem Sound.consumeEvents (ticket : QueryTicket) (refs : List (Option String)) {checked stamped : ℚ}
    (hclock : w.clock ≤ checked) (hchecked : checked ≤ stamped) :
    (w.consumeEvents p ticket refs checked stamped).Sound p := by
  unfold World.consumeEvents
  have hpruned := kept_prune w.registry checked
  obtain ⟨e, heq⟩ | ⟨events, heq, href, hold, hcard, hroom⟩ :=
    consumeEvents_cases p w.registry ticket refs checked stamped
  · rw [heq]
    exact h.of_kept (hpruned.mono hchecked) (hclock.trans hchecked)
  rw [heq]
  have hs := h.of_kept hpruned hclock
  obtain ⟨hlength, hreplaced⟩ := length_replace (w.registry.prune checked).consumed
    (⟨ticket, events, stamped + 300⟩ : Consumed)
  refine ⟨hs.pendingSize, ?_, hs.candidates, ?_, ?_, ?_, hs.generations, hs.offers, hs.batchIds, hs.chosenOnce,
    hs.chosenOffered⟩
  · change ((w.registry.prune checked).consumed.replace _).rows.length ≤ p.capacity
    cases hroom with
    | inl hrow => exact (hreplaced hrow).trans hs.consumedSize
    | inr hfree => exact hlength.trans hfree
  · intro c hc
    cases List.mem_append.mp hc with
    | inl hkept => exact hs.events c (List.mem_of_mem_filter hkept)
    | inr hnew =>
      rw [List.mem_singleton.mp hnew]
      exact hcard
  · intro c hc
    cases List.mem_append.mp hc with
    | inl hkept => exact (hs.expiries c (List.mem_of_mem_filter hkept)).trans (add_le_add_left hchecked 300)
    | inr hnew => exact le_of_eq (congrArg Consumed.expires (List.mem_singleton.mp hnew))
  · intro f hf hlive
    change stamped < f.consumedAt + 300 at hlive
    have hnew : (⟨ticket, events, stamped + 300⟩ : Consumed) ∈
        ((w.registry.prune checked).consumed.replace ⟨ticket, events, stamped + 300⟩).rows :=
      List.mem_append_right _ (List.mem_singleton.mpr rfl)
    cases List.mem_append.mp hf with
    | inl hbefore =>
      obtain ⟨c, hc, howner, hmem, hexpires⟩ := hs.fenced f hbefore (hchecked.trans_lt hlive)
      by_cases hticket : c.ticket = ticket
      · -- the row of the ticket is replaced by one with more events that ends later
        refine ⟨_, hnew, ?_, hold c hc hticket hmem, hexpires.trans ?_⟩
        · rw [← howner, hticket]
        · exact (hs.expiries c hc).trans (add_le_add_left hchecked 300)
      · refine ⟨c, List.mem_append_left _ (List.mem_filter.mpr ⟨hc, ?_⟩), howner, hmem, hexpires⟩
        simpa using hticket
    | inr hnow =>
      obtain ⟨eventRef, hmem, rfl⟩ := List.mem_map.mp hnow
      exact ⟨_, hnew, rfl, href eventRef (List.reduceOption_mem_iff.mp hmem), le_rfl⟩

theorem Sound.choose (owner : Option TrustedOwner) (batchId generation : String) (itemId : ℤ)
    (retain : Bool) (hclock : w.clock ≤ now) : (w.choose owner batchId generation itemId retain now).Sound p := by
  unfold World.choose
  cases owner with
  | none => exact h.of_kept (.refl now _) hclock
  | some owner =>
    obtain ⟨e, heq⟩ | ⟨r, batch, selected, s', hoffering, -, -, heq, hk, hgone⟩ :=
      choose_cases w.registry owner batchId generation itemId retain now
    · rw [heq]
      exact h.of_kept (kept_prune _ now) hclock
    rw [heq]
    have hs := h.of_kept hk hclock
    have hpruned := h.of_kept (kept_prune w.registry now) hclock
    obtain ⟨hr, howner, -, hbatch, hid⟩ := offering_eq_some hoffering
    obtain ⟨hoffered, -, hnew⟩ := hpruned.offers r hr batch hbatch
    rw [hid] at hnew
    refine ⟨hs.pendingSize, hs.consumedSize, hs.candidates, hs.events, hs.expiries, hs.fenced, hs.generations, ?_,
      hs.batchIds, List.nodup_cons.mpr ⟨hnew, h.chosenOnce⟩, ?_⟩
    · intro r' hr' b hb
      obtain ⟨hoffered', hgeneration', hold'⟩ := hs.offers r' hr' b hb
      refine ⟨hoffered', hgeneration', ?_⟩
      intro hin
      cases List.mem_cons.mp hin with
      | inr hold => exact hold' hold
      | inl hsame =>
        have hunique := hs.offer_unique hoffered hoffered' (hid.trans hsame.symm)
        have howner' : r'.owner = owner := (congrArg Offer.owner hunique).symm.trans howner
        rw [hgone r' hr' howner'] at hb
        cases hb
    · intro batchId' hin
      cases List.mem_cons.mp hin with
      | inl hsame =>
        rw [hsame]
        exact ⟨_, hoffered, hid⟩
      | inr hold => exact h.chosenOffered batchId' hold

theorem Sound.confirm (owner : TrustedOwner) (batchId generation eventRef : String) (itemId : ℤ)
    {pruned fresh checked stamped : ℚ} (hclock : w.clock ≤ pruned) (hfresh : pruned ≤ fresh) (hchecked : fresh ≤ checked)
    (hstamped : checked ≤ stamped) :
    (∃ e s, w.registry.confirm p owner batchId generation itemId eventRef pruned fresh checked stamped = (.error e, s) ∧
      (w.settle stamped s).Sound p) ∨
    ∃ r batch s, w.registry.confirm p owner batchId generation itemId eventRef pruned fresh checked stamped =
        (.ok (r, batch), s) ∧
      World.Sound p { w.settle stamped s with fences := w.fences ++ fencesOf owner [r.sourceRef, some eventRef] stamped } := by
  have hpruned := kept_prune w.registry pruned
  have hboth := hpruned.trans (kept_prune (w.registry.prune pruned) fresh) hfresh
  have hlate : pruned ≤ stamped := (hfresh.trans hchecked).trans hstamped
  have hearly := h.of_kept (hpruned.mono hlate) (hclock.trans hlate)
  have hrefused := h.of_kept (hboth.mono (hchecked.trans hstamped)) (hclock.trans hlate)
  unfold CandidateRegistry.confirm
  cases (w.registry.prune pruned).offering owner batchId generation with
  | none => exact .inl ⟨_, _, rfl, hearly⟩
  | some offer =>
    obtain ⟨r, batch⟩ := offer
    dsimp only
    split
    · exact .inl ⟨_, _, rfl, hearly⟩
    unfold CandidateRegistry.requireFreshEvent
    cases ((w.registry.prune pruned).prune fresh).replays owner eventRef with
    | true => exact .inl ⟨_, _, rfl, hrefused⟩
    | false =>
      rw [if_neg Bool.false_ne_true]
      dsimp only
      split
      · exact .inl ⟨_, _, rfl, hrefused⟩
      have hconsumed := (h.of_kept hboth (hclock.trans hfresh)).consumeEvents ⟨owner, generation⟩
        [r.sourceRef, some eventRef] hchecked hstamped
      unfold World.consumeEvents at hconsumed
      change World.Sound p (match ((w.registry.prune pruned).prune fresh).consumeEvents p ⟨owner, generation⟩
        [r.sourceRef, some eventRef] checked stamped with | (.ok _, s) => _ | (.error _, s) => _) at hconsumed
      cases hresult : ((w.registry.prune pruned).prune fresh).consumeEvents p ⟨owner, generation⟩
          [r.sourceRef, some eventRef] checked stamped with
      | mk result s =>
        rw [hresult] at hconsumed
        cases result with
        | error e => exact .inl ⟨_, _, rfl, hconsumed⟩
        | ok _ => exact .inr ⟨_, _, _, rfl, hconsumed⟩

variable {owner : Option TrustedOwner}

theorem Sound.chooseConfirmed {batchId generation eventRef : String}
    {itemId : ℤ} {retain : Bool} {pruned fresh checked stamped chosen : ℚ} (hclock : w.clock ≤ pruned)
    (hfresh : pruned ≤ fresh) (hchecked : fresh ≤ checked) (hstamped : checked ≤ stamped) (hchosen : stamped ≤ chosen) :
    (w.chooseConfirmed p owner batchId generation itemId eventRef retain pruned fresh checked stamped chosen).Sound p := by
  have hlate : w.clock ≤ chosen := (((hclock.trans hfresh).trans hchecked).trans hstamped).trans hchosen
  have hidle := h.of_kept (.refl chosen w.registry) hlate
  unfold World.chooseConfirmed World.confirmed CandidateRegistry.chooseConfirmed
  cases owner with
  | none =>
    dsimp only
    rw [List.append_nil]
    exact hidle
  | some owner =>
    dsimp only
    by_cases hevent : eventRef = ""
    · rw [if_pos hevent, if_pos hevent]
      dsimp only
      rw [List.append_nil]
      exact hidle
    rw [if_neg hevent, if_neg hevent]
    obtain ⟨e, s, heq, hs⟩ | ⟨r, batch, s, heq, hs⟩ := h.confirm owner batchId generation eventRef itemId
      hclock hfresh hchecked hstamped
    · rw [heq]
      dsimp only
      rw [List.append_nil]
      exact hs.of_kept (.refl chosen s) hchosen
    rw [heq]
    dsimp only
    have hchoice := hs.choose (some owner) batchId generation itemId retain hchosen
    unfold World.choose at hchoice
    change World.Sound p (match s.choose (some owner) batchId generation itemId retain chosen with
      | (.ok _, s) => _ | (.error _, s) => _) at hchoice
    cases hresult : s.choose (some owner) batchId generation itemId retain chosen with
    | mk result s' =>
      rw [hresult] at hchoice
      cases result with
      | error e => exact hchoice
      | ok query =>
        dsimp only
        cases retain with
        | false => exact hchoice
        | true =>
          have hassigned := fun f hf => @kept_assign chosen owner f hf s'
          exact hchoice.of_kept (hassigned _ _ (fun _ => rfl) fun _ => .inl rfl) le_rfl

theorem Sound.publish {ticket : QueryTicket} {query : Query} {candidates : List ItemCandidate}
    {truncated : Bool} {batchId : String} (hclock : w.clock ≤ now) (hnew : ∀ o ∈ w.offered, o.batch.batchId ≠ batchId) :
    (w.publish p ticket query candidates truncated batchId now).Sound p := by
  have hs := h.of_kept (kept_prune w.registry now) hclock
  unfold World.publish CandidateRegistry.publish
  obtain ⟨r, hheld, heq⟩ | ⟨-, heq⟩ := current_cases w.registry ticket now
  · rw [heq]
    dsimp only
    by_cases hids : ¬ (candidates.map ItemCandidate.itemId).Nodup ∨
        (candidates.any fun c => decide (2147483647 < c.itemId)) = true
    · rw [if_pos hids]
      exact hs
    rw [if_neg hids]
    obtain ⟨hr, howner, hgeneration⟩ := heldBy_eq_some hheld
    have hrow : ∀ r' ∈ (w.registry.prune now).pending.rows, r'.owner = ticket.owner → r' = r := by
      intro r' hr' howner'
      exact (w.registry.prune now).pending.eq_of_key_eq hr' hr (howner'.trans howner.symm)
    refine ⟨?_, hs.consumedSize, ?_, hs.events, hs.expiries, hs.fenced, ?_, ?_, ?_, hs.chosenOnce, ?_⟩
    · change ((w.registry.prune now).pending.rows.map _).length ≤ p.capacity
      rw [List.length_map]
      exact hs.pendingSize
    · intro r' hr' b hb
      obtain ⟨r₀, hr₀, rfl⟩ := mem_assign.mp hr'
      by_cases howner₀ : r₀.owner = ticket.owner
      · rw [if_pos howner₀] at hb
        cases hb
        exact List.length_take_le _ _
      · rw [if_neg howner₀] at hb
        exact hs.candidates r₀ hr₀ b hb
    · intro r' hr'
      obtain ⟨r₀, hr₀, rfl⟩ := mem_assign.mp hr'
      by_cases howner₀ : r₀.owner = ticket.owner
      · rw [if_pos howner₀]
        exact hs.generations r₀ hr₀
      · rw [if_neg howner₀]
        exact hs.generations r₀ hr₀
    · intro r' hr' b hb
      obtain ⟨r₀, hr₀, rfl⟩ := mem_assign.mp hr'
      by_cases howner₀ : r₀.owner = ticket.owner
      · rw [if_pos howner₀] at hb ⊢
        cases hb
        refine ⟨List.mem_append_right _ ?_, ?_, ?_⟩
        · rw [List.mem_singleton, CandidateRegistry.owner_setBatch, howner₀]
        · rw [hrow r₀ hr₀ howner₀]
          exact hgeneration.symm
        intro hin
        obtain ⟨o, ho, hid⟩ := h.chosenOffered _ hin
        exact hnew o ho hid
      · rw [if_neg howner₀] at hb ⊢
        obtain ⟨hoffered, hsame, hold⟩ := hs.offers r₀ hr₀ b hb
        exact ⟨List.mem_append_left _ hoffered, hsame, hold⟩
    · change ((w.offered ++ [_]).map _).Nodup
      rw [List.map_append, List.nodup_append]
      refine ⟨h.batchIds, List.nodup_singleton _, ?_⟩
      intro id hid id' hid'
      obtain ⟨o, ho, rfl⟩ := List.mem_map.mp hid
      rw [List.map_singleton, List.mem_singleton] at hid'
      rw [hid']
      exact hnew o ho
    · intro id hid
      obtain ⟨o, ho, hsame⟩ := h.chosenOffered id hid
      exact ⟨o, List.mem_append_left _ ho, hsame⟩
  · rw [heq]
    exact hs

theorem Sound.begin {sourceRef : Option String} {generation : String}
    {pruned stamped : ℚ} (hclock : w.clock ≤ pruned) (hstamped : pruned ≤ stamped) :
    (w.begin p owner sourceRef generation pruned stamped).Sound p := by
  unfold World.begin CandidateRegistry.begin
  cases owner with
  | none => exact h.of_kept (.refl _ _) (hclock.trans hstamped)
  | some owner =>
    have hkept := ((kept_prune w.registry pruned).trans (kept_drop _ owner pruned) le_rfl).mono hstamped
    have hs := h.of_kept hkept (hclock.trans hstamped)
    dsimp only
    generalize (w.registry.prune pruned).drop owner = s at hs
    have hold : ∀ r ∈ ((CandidateRegistry.evictOldest p s.pending).replace
        ⟨owner, generation, stamped + p.ttl, none, sourceRef, none, none⟩).rows,
        (r ∈ s.pending.rows ∧ r.owner ≠ owner) ∨ r = ⟨owner, generation, stamped + p.ttl, none, sourceRef, none, none⟩ := by
      intro r hr
      cases List.mem_append.mp hr with
      | inl hkept =>
        obtain ⟨hmem, hother⟩ := List.mem_filter.mp hkept
        exact .inl ⟨List.mem_of_mem_drop hmem, by simpa using hother⟩
      | inr hnew => exact .inr (List.mem_singleton.mp hnew)
    refine ⟨?_, hs.consumedSize, ?_, hs.events, hs.expiries, hs.fenced, ?_, ?_, hs.batchIds, hs.chosenOnce,
      hs.chosenOffered⟩
    · refine (length_replace (CandidateRegistry.evictOldest p s.pending) _).1.trans ?_
      have hcapacity := p.capacity_bounds.1
      change (s.pending.rows.drop (s.pending.rows.length + 1 - p.capacity)).length + 1 ≤ p.capacity
      rw [List.length_drop]
      omega
    · intro r hr b hb
      obtain ⟨hmem, -⟩ | rfl := hold r hr
      · exact hs.candidates r hmem b hb
      · cases hb
    · intro r hr
      change ((⟨owner, generation⟩ :: w.issued).find? fun ticket => decide (ticket.owner = r.owner)).map
        QueryTicket.generation = some r.generation
      obtain ⟨hmem, hother⟩ | rfl := hold r hr
      · rw [List.find?_cons_of_neg (by simpa using hother.symm)]
        exact hs.generations r hmem
      · rw [List.find?_cons_of_pos (by simp)]
        rfl
    · intro r hr b hb
      obtain ⟨hmem, -⟩ | rfl := hold r hr
      · exact hs.offers r hmem b hb
      · cases hb

theorem sound_next (ha : w.allowed a) : (w.next p a).Sound p := by
  obtain ⟨hreadings, hfresh⟩ := ha
  cases a with
  | begin owner sourceRef generation pruned stamped =>
    simp only [Action.readings, List.pairwise_cons, List.mem_cons, List.not_mem_nil, or_false, forall_eq_or_imp, forall_eq] at hreadings
    exact h.begin hreadings.1.1 hreadings.2.1
  | consumeEvents ticket refs checked stamped =>
    simp only [Action.readings, List.pairwise_cons, List.mem_cons, List.not_mem_nil, or_false, forall_eq_or_imp, forall_eq] at hreadings
    exact h.consumeEvents ticket refs hreadings.1.1 hreadings.2.1
  | requireFreshEvent owner eventRef now =>
    simp only [Action.readings, List.pairwise_cons, List.mem_singleton, forall_eq] at hreadings
    exact h.of_kept (kept_prune _ now) hreadings.1
  | toolQuery owner eventRef query action checked pruned =>
    simp only [Action.readings, List.pairwise_cons, List.mem_cons, List.not_mem_nil, or_false, forall_eq_or_imp, forall_eq] at hreadings
    exact h.of_kept (kept_toolQuery hreadings.2.1) (hreadings.1.1.trans hreadings.2.1)
  | chooseConfirmed owner batchId generation itemId eventRef retain pruned fresh checked stamped chosen =>
    simp only [Action.readings, List.pairwise_cons, List.mem_cons, List.not_mem_nil, or_false, forall_eq_or_imp, forall_eq] at hreadings
    obtain ⟨hclock, hpruned, hfresh', hchecked, hstamped, -⟩ := hreadings
    exact h.chooseConfirmed hclock.1 hpruned.1 hfresh'.1 hchecked.1 hstamped
  | clarify owner batchId generation eventRef checked pruned =>
    simp only [Action.readings, List.pairwise_cons, List.mem_cons, List.not_mem_nil, or_false, forall_eq_or_imp, forall_eq] at hreadings
    exact h.of_kept (kept_clarify hreadings.2.1) (hreadings.1.1.trans hreadings.2.1)
  | releaseConfirmed ticket => exact h.of_kept kept_releaseConfirmed le_rfl
  | abandon ticket => exact h.of_kept kept_abandon le_rfl
  | finish ticket query retain now =>
    simp only [Action.readings, List.pairwise_cons, List.mem_singleton, forall_eq] at hreadings
    exact h.of_kept kept_finish hreadings.1
  | publish ticket query candidates truncated batchId now =>
    simp only [Action.readings, List.pairwise_cons, List.mem_singleton, forall_eq] at hreadings
    exact h.publish hreadings.1 hfresh
  | choose owner batchId generation itemId retain now =>
    simp only [Action.readings, List.pairwise_cons, List.mem_singleton, forall_eq] at hreadings
    exact h.choose owner batchId generation itemId retain hreadings.1
  | size now =>
    simp only [Action.readings, List.pairwise_cons, List.mem_singleton, forall_eq] at hreadings
    exact h.of_kept (kept_prune _ now) hreadings.1

end

theorem sound_of_initial (h : w.initial) : w.Sound p := by
  obtain ⟨hregistry, hissued, hoffered, hchosen, hfences⟩ := h
  constructor
  · rw [hregistry]
    exact Nat.zero_le _
  · rw [hregistry]
    exact Nat.zero_le _
  · rw [hregistry]
    rintro r ⟨⟩
  · rw [hregistry]
    rintro c ⟨⟩
  · rw [hregistry]
    rintro c ⟨⟩
  · rw [hfences]
    rintro f ⟨⟩
  · rw [hregistry]
    rintro r ⟨⟩
  · rw [hregistry]
    rintro r ⟨⟩
  · rw [hoffered]
    exact List.nodup_nil
  · rw [hchosen]
    exact List.nodup_nil
  · rw [hchosen]
    rintro id ⟨⟩

theorem Sound.replays (h : w.Sound p) {f : Fence} (hf : f ∈ w.fences) (hclock : w.clock ≤ now)
    (hlive : now < f.consumedAt + 300) (hk : Kept now w.registry s') : s'.replays f.owner f.eventRef = true := by
  obtain ⟨c, hc, howner, href, hexpires⟩ := h.fenced f hf (hclock.trans_lt hlive)
  apply List.any_eq_true.mpr
  refine ⟨c, hk.live c hc (hlive.trans_le hexpires), ?_⟩
  rw [Bool.and_eq_true, decide_eq_true_eq, decide_eq_true_eq]
  exact ⟨howner, href⟩

theorem Sound.heldBy_superseded (h : w.Sound p) {ticket : QueryTicket} (hticket : w.Superseded ticket)
    (hk : Kept now w.registry s') : s'.heldBy ticket = none := by
  cases hheld : s'.heldBy ticket with
  | none => rfl
  | some r' =>
    obtain ⟨hr', howner', hgeneration'⟩ := heldBy_eq_some hheld
    obtain ⟨r, hr, howner, hgeneration, -⟩ := hk.pending r' hr'
    have hlatest := h.generations r hr
    rw [← howner, ← hgeneration, howner', hgeneration'] at hlatest
    exact absurd hlatest hticket.2

end

structure Inert (p : Policy) (w : World) (ticket : QueryTicket) : Prop where
  consumeEvents : ∀ refs checked stamped,
    w.registry.consumeEvents p ticket refs checked stamped = (.error .stale, w.registry.prune checked)
  finish : ∀ query retain now, w.registry.finish ticket query retain now = (.error .stale, w.registry.prune now)
  publish : ∀ query candidates truncated batchId now,
    w.registry.publish p ticket query candidates truncated batchId now = (.error .stale, w.registry.prune now)
  abandon : w.registry.abandon ticket = w.registry
  releaseConfirmed : w.registry.releaseConfirmed ticket = w.registry
  choose : ∀ batchId itemId retain now, w.registry.choose (some ticket.owner) batchId ticket.generation itemId retain now =
    (.error .staleBatch, w.registry.prune now)
  chooseConfirmed : ∀ batchId itemId eventRef retain pruned fresh checked stamped chosen, ∃ e, ∃ s,
    w.registry.chooseConfirmed p (some ticket.owner) batchId ticket.generation itemId eventRef retain pruned fresh checked
      stamped chosen = (.error e, s) ∧ (s = w.registry ∨ s = w.registry.prune pruned)
  clarify : ∀ batchId eventRef checked pruned, ∃ e, ∃ s,
    w.registry.clarify ticket.owner batchId ticket.generation eventRef checked pruned = (.error e, s) ∧
      (s = w.registry.prune checked ∨ s = (w.registry.prune checked).prune pruned)

def Carries (w : World) (owner : TrustedOwner) (batchId generation : String) (itemId : ℤ) (query : Query) : Prop :=
  ∃ batch selected, ⟨owner, batch⟩ ∈ w.offered ∧ batch.batchId = batchId ∧ batch.generation = generation ∧
    selected ∈ batch.candidates ∧ selected.itemId = itemId ∧ query = batch.query.select selected ∧
    query.terms = batch.query.terms ∧ batchId ∉ w.chosen ∧ ∀ o ∈ w.offered, o.batch.batchId = batchId → o = ⟨owner, batch⟩

def rejects (p : Policy) (w : World) (f : Fence) : Action → Prop
  | .requireFreshEvent owner eventRef now => owner = f.owner → eventRef = f.eventRef →
      ∃ e, (w.registry.requireFreshEvent owner eventRef now).1 = .error e
  | .toolQuery owner eventRef query action checked pruned => owner = f.owner → eventRef = f.eventRef →
      ∃ e, (w.registry.toolQuery owner eventRef query action checked pruned).1 = .error e
  | .chooseConfirmed owner batchId generation itemId eventRef retain pruned fresh checked stamped chosen =>
      owner = some f.owner → eventRef = f.eventRef → ∃ e, (w.registry.chooseConfirmed p owner batchId generation itemId
        eventRef retain pruned fresh checked stamped chosen).1 = .error e
  | .clarify owner batchId generation eventRef checked pruned => owner = f.owner → eventRef = f.eventRef →
      ∃ e, (w.registry.clarify owner batchId generation eventRef checked pruned).1 = .error e
  | _ => True

structure SingleUse (p : Policy) (w : World) : Prop where
  chosenOnce : w.chosen.Nodup
  fenced : ∀ f ∈ w.fences, ∀ a, w.allowed a → (∀ t ∈ a.readings, t < f.consumedAt + 300) → w.rejects p f a
  superseded : ∀ ticket, w.Superseded ticket → w.Inert p ticket
  pendingSize : w.registry.pending.rows.length ≤ p.capacity
  consumedSize : w.registry.consumed.rows.length ≤ p.capacity
  candidates : ∀ r ∈ w.registry.pending.rows, ∀ b ∈ r.batch, b.candidates.length ≤ p.maxCandidates
  events : ∀ c ∈ w.registry.consumed.rows, c.refs.card ≤ 4
  choose : ∀ owner batchId generation itemId retain now query, w.allowed (.choose (some owner) batchId generation itemId retain now) →
    (w.registry.choose (some owner) batchId generation itemId retain now).1 = .ok query →
      w.Carries owner batchId generation itemId query
  chooseConfirmed : ∀ owner batchId generation itemId eventRef retain pruned fresh checked stamped chosen query,
    w.allowed (.chooseConfirmed (some owner) batchId generation itemId eventRef retain pruned fresh checked stamped chosen) →
    (w.registry.chooseConfirmed p (some owner) batchId generation itemId eventRef retain pruned fresh checked stamped
      chosen).1 = .ok query → w.Carries owner batchId generation itemId query

section

variable {p : Policy} {w : World} {now : ℚ} {s' : CandidateRegistry}

theorem Sound.inert (h : w.Sound p) {ticket : QueryTicket} (hticket : w.Superseded ticket) : w.Inert p ticket := by
  have hheld : ∀ now, (w.registry.prune now).heldBy ticket = none :=
    fun now => h.heldBy_superseded hticket (kept_prune _ now)
  have hcurrent : ∀ now, w.registry.current ticket now = (.error .stale, w.registry.prune now) := by
    intro now
    rw [CandidateRegistry.current, hheld]
    rfl
  have hnow : w.registry.heldBy ticket = none := h.heldBy_superseded hticket (.refl 0 _)
  have hoffering : ∀ batchId now, (w.registry.prune now).offering ticket.owner batchId ticket.generation = none := by
    intro batchId now
    rw [CandidateRegistry.offering, hheld]
    rfl
  constructor
  · intro refs checked stamped
    rw [CandidateRegistry.consumeEvents, hcurrent]
  · intro query retain now
    rw [CandidateRegistry.finish, hcurrent]
  · intro query candidates truncated batchId now
    rw [CandidateRegistry.publish, hcurrent]
  · rw [CandidateRegistry.abandon, hnow]
    rfl
  · rw [CandidateRegistry.releaseConfirmed, hnow]
    rfl
  · intro batchId itemId retain now
    unfold CandidateRegistry.choose
    dsimp only
    rw [hoffering]
  · intro batchId itemId eventRef retain pruned fresh checked stamped chosen
    unfold CandidateRegistry.chooseConfirmed
    dsimp only
    split
    · exact ⟨_, _, rfl, .inl rfl⟩
    · rw [CandidateRegistry.confirm, hoffering]
      exact ⟨_, _, rfl, .inr rfl⟩
  · intro batchId eventRef checked pruned
    unfold CandidateRegistry.clarify CandidateRegistry.requireFreshEvent
    cases (w.registry.prune checked).replays ticket.owner eventRef with
    | true => exact ⟨_, _, rfl, .inl rfl⟩
    | false =>
      rw [if_neg Bool.false_ne_true]
      dsimp only
      have hgone : ((w.registry.prune checked).prune pruned).heldBy ticket = none := by
        cases hheld' : ((w.registry.prune checked).prune pruned).heldBy ticket with
        | none => rfl
        | some r =>
          have hr := heldBy_eq_some hheld'
          have hmem : r ∈ (w.registry.prune checked).pending.rows := List.mem_of_mem_filter hr.1
          have hnone := hheld checked
          rw [CandidateRegistry.heldBy, Table.get_eq_some.mpr ⟨hmem, hr.2.1⟩, Option.filter_some,
            if_pos (decide_eq_true hr.2.2)] at hnone
          cases hnone
      rw [CandidateRegistry.offering, hgone]
      exact ⟨_, _, rfl, .inr rfl⟩

theorem Sound.rejects (h : w.Sound p) {f : Fence} (hf : f ∈ w.fences) {a : Action} (ha : w.allowed a)
    (hlive : ∀ t ∈ a.readings, t < f.consumedAt + 300) : w.rejects p f a := by
  have hreadings := ha.1
  have hfirst : ∀ checked, w.clock ≤ checked → checked < f.consumedAt + 300 →
      w.registry.requireFreshEvent f.owner f.eventRef checked = (.error .replayed, w.registry.prune checked) := by
    intro checked hclock hlt
    rw [CandidateRegistry.requireFreshEvent, h.replays hf hclock hlt (kept_prune _ checked), if_pos rfl]
  cases a with
  | requireFreshEvent owner eventRef now =>
    simp only [Action.readings, List.pairwise_cons, List.mem_singleton, forall_eq] at hreadings hlive
    rintro rfl rfl
    rw [hfirst now hreadings.1 hlive]
    exact ⟨_, rfl⟩
  | toolQuery owner eventRef query action checked pruned =>
    simp only [Action.readings, List.pairwise_cons, List.mem_cons, List.not_mem_nil, or_false, forall_eq_or_imp, forall_eq]
      at hreadings hlive
    rintro rfl rfl
    unfold CandidateRegistry.toolQuery
    split
    · exact ⟨_, rfl⟩
    · rw [hfirst checked hreadings.1.1 hlive.1]
      exact ⟨_, rfl⟩
  | clarify owner batchId generation eventRef checked pruned =>
    simp only [Action.readings, List.pairwise_cons, List.mem_cons, List.not_mem_nil, or_false, forall_eq_or_imp, forall_eq]
      at hreadings hlive
    rintro rfl rfl
    rw [CandidateRegistry.clarify, hfirst checked hreadings.1.1 hlive.1]
    exact ⟨_, rfl⟩
  | chooseConfirmed owner batchId generation itemId eventRef retain pruned fresh checked stamped chosen =>
    simp only [Action.readings, List.pairwise_cons, List.mem_cons, List.not_mem_nil, or_false, forall_eq_or_imp, forall_eq]
      at hreadings hlive
    rintro rfl rfl
    unfold CandidateRegistry.chooseConfirmed
    dsimp only
    split
    · exact ⟨_, rfl⟩
    have hboth := (kept_prune w.registry pruned).trans (kept_prune (w.registry.prune pruned) fresh) hreadings.2.1.1
    have hknown := h.replays hf (hreadings.1.1.trans hreadings.2.1.1) hlive.2.1 hboth
    unfold CandidateRegistry.confirm
    cases (w.registry.prune pruned).offering f.owner batchId generation with
    | none => exact ⟨_, rfl⟩
    | some offer =>
      dsimp only
      by_cases hsource : some f.eventRef ∈ [offer.1.sourceRef, offer.1.confirmationRef]
      · rw [if_pos hsource]
        exact ⟨_, rfl⟩
      · rw [if_neg hsource, CandidateRegistry.requireFreshEvent, hknown, if_pos rfl]
        exact ⟨_, rfl⟩
  | _ => trivial

theorem Sound.carries (h : w.Sound p) (owner : TrustedOwner) (batchId generation : String) (itemId : ℤ) (retain : Bool)
    (query : Query) (hclock : w.clock ≤ now)
    (hok : (w.registry.choose (some owner) batchId generation itemId retain now).1 = .ok query) :
    w.Carries owner batchId generation itemId query := by
  obtain ⟨e, heq⟩ | ⟨r, batch, selected, s, hoffering, hselected, hitem, heq, -, -⟩ :=
    choose_cases w.registry owner batchId generation itemId retain now
  · rw [heq] at hok
    cases hok
  rw [heq] at hok
  cases hok
  obtain ⟨hr, howner, hgeneration, hbatch, hid⟩ := offering_eq_some hoffering
  have hpruned := h.of_kept (kept_prune w.registry now) hclock
  obtain ⟨hoffered, hsame, hnew⟩ := hpruned.offers r hr batch hbatch
  rw [howner] at hoffered
  refine ⟨batch, selected, hoffered, hid, hsame.trans hgeneration, hselected, hitem, rfl, Query.terms_select selected _, ?_, ?_⟩
  · rw [← hid]
    exact hnew
  · intro o ho hid'
    exact h.offer_unique ho hoffered (hid'.trans hid.symm)

theorem Sound.carries_confirmed (h : w.Sound p) {owner : TrustedOwner} {batchId generation eventRef : String} {itemId : ℤ}
    {retain : Bool} {query : Query} {pruned fresh checked stamped chosen : ℚ}
    (ha : w.allowed (.chooseConfirmed (some owner) batchId generation itemId eventRef retain pruned fresh checked stamped chosen))
    (hok : (w.registry.chooseConfirmed p (some owner) batchId generation itemId eventRef retain pruned fresh checked
      stamped chosen).1 = .ok query) : w.Carries owner batchId generation itemId query := by
  have hreadings := ha.1
  simp only [Action.readings, List.pairwise_cons, List.mem_cons, List.not_mem_nil, or_false, forall_eq_or_imp, forall_eq]
    at hreadings
  obtain ⟨hclock, hpruned, hfresh, hchecked, hstamped, -⟩ := hreadings
  unfold CandidateRegistry.chooseConfirmed at hok
  dsimp only at hok
  split at hok
  · cases hok
  obtain ⟨e, s, heq, -⟩ | ⟨r, batch, s, heq, hs⟩ := h.confirm owner batchId generation eventRef itemId
    hclock.1 hpruned.1 hfresh.1 hchecked.1
  · rw [heq] at hok
    cases hok
  rw [heq] at hok
  dsimp only at hok
  have hcarries := hs.carries owner batchId generation itemId retain query hstamped
  cases hresult : s.choose (some owner) batchId generation itemId retain chosen with
  | mk result s' =>
    rw [hresult] at hok
    cases result with
    | error e => cases hok
    | ok query' =>
      cases hok
      apply hcarries
      change (s.choose (some owner) batchId generation itemId retain chosen).1 = _
      rw [hresult]

end

end World

/-- In every run of the registry the candidates are for single use. -/
theorem candidates_single_use {p : Policy} {w : World} (h : (registry p).Reachable w) : w.SingleUse p := by
  have hs : w.Sound p := h.invariant (fun _ => World.sound_of_initial) fun _ _ => World.sound_next
  constructor
  · exact hs.chosenOnce
  · exact fun f hf a ha hlive => hs.rejects hf ha hlive
  · exact fun ticket hticket => hs.inert hticket
  · exact hs.pendingSize
  · exact hs.consumedSize
  · exact hs.candidates
  · exact hs.events
  · intro owner batchId generation itemId retain now query ha hok
    have hreadings := ha.1
    simp only [Action.readings, List.pairwise_cons, List.mem_singleton, forall_eq] at hreadings
    exact hs.carries owner batchId generation itemId retain query hreadings.1 hok
  · intro owner batchId generation itemId eventRef retain pruned fresh checked stamped chosen query ha hok
    exact hs.carries_confirmed ha hok

namespace Sample

def policy : Policy := ⟨300, 128, 6, by decide +kernel, by decide, by decide⟩

def owner : TrustedOwner := ⟨"user", "session", "chat"⟩

def query : Query := .market ⟨"crystal", none, ⟨"region", ["China"], none, "default", "core_default"⟩, "hq", "min", 3, 3,
  "ff14-market-query-v1", none, none⟩

def empty : World := ⟨0, ⟨.empty, .empty⟩, [], [], [], []⟩

def candidates : List ItemCandidate := [⟨2, "Fire Crystal"⟩, ⟨4, "Ice Crystal"⟩]

def run : List Action := [.begin (some owner) (some "first") "generation" 1 2,
  .publish ⟨owner, "generation"⟩ query candidates false "batch" 3,
  .chooseConfirmed (some owner) "batch" "generation" 4 "second" true 4 5 6 7 8]

end Sample

theorem candidates_single_use_sample : ∃ w : World, w.chosen = ["batch"] ∧ w.fences.length = 2 ∧ w.SingleUse Sample.policy := by
  have hrun : (registry Sample.policy).Trace Sample.empty Sample.run
      (Sample.run.foldl (World.next Sample.policy) Sample.empty) := by
    refine .cons ⟨by decide +kernel, ?_⟩ (.cons ⟨by decide +kernel, ?_⟩ (.cons ⟨by decide +kernel, trivial⟩ (.nil _)))
    · rintro ticket ⟨⟩
    · rintro o ⟨⟩
  refine ⟨_, ?_, ?_, candidates_single_use ⟨_, _, ⟨rfl, rfl, rfl, rfl, rfl⟩, hrun⟩⟩
  · decide +kernel
  · decide +kernel

end GameLink.Ff14.Candidates

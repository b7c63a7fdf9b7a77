import GameLink.Foundation.Runs
import GameLink.Foundation.Table
import Mathlib.Algebra.Order.Ring.Rat
import Mathlib.Data.Finset.Card

namespace GameLink.Ff14.Candidates

open Foundation

structure TrustedOwner where
  user : String
  session : String
  origin : String
  deriving DecidableEq

structure QueryTicket where
  owner : TrustedOwner
  generation : String
  deriving DecidableEq

structure ItemCandidate where
  itemId : ℤ
  name : String
  deriving DecidableEq

inductive ScopeTarget where
  | name (value : String)
  | number (value : ℤ)
  deriving DecidableEq

structure QueryScope where
  kind : String
  regions : List String
  target : Option ScopeTarget
  source : String
  defaultBasis : String
  deriving DecidableEq

structure MarketQuery where
  query : String
  itemId : Option ℤ
  scope : QueryScope
  quality : String
  intent : String
  coreRevision : ℤ
  moduleRevision : ℤ
  parserVersion : String
  originalQuery : Option String
  itemName : Option String
  deriving DecidableEq

structure ItemQuery where
  query : String
  itemId : Option ℤ
  originalQuery : Option String
  itemName : Option String
  deriving DecidableEq

inductive Query where
  | market (q : MarketQuery)
  | item (q : ItemQuery)
  deriving DecidableEq

def Query.query : Query → String
  | market q => q.query
  | item q => q.query

def Query.select (candidate : ItemCandidate) : Query → Query
  | market q => .market { q with
      query := toString candidate.itemId
      itemId := some candidate.itemId
      originalQuery := some q.query
      itemName := some candidate.name }
  | item q => .item { q with
      query := toString candidate.itemId
      itemId := some candidate.itemId
      originalQuery := some q.query
      itemName := some candidate.name }

def Query.terms : Query → Option (QueryScope × String × String × ℤ × ℤ × String)
  | market q => some (q.scope, q.quality, q.intent, q.coreRevision, q.moduleRevision, q.parserVersion)
  | item _ => none

theorem Query.terms_select (candidate : ItemCandidate) (q : Query) : (q.select candidate).terms = q.terms := by
  cases q with
  | market q => rfl
  | item q => rfl

structure CandidateBatch where
  batchId : String
  generation : String
  query : Query
  candidates : List ItemCandidate
  truncated : Bool
  deriving DecidableEq

structure Pending where
  owner : TrustedOwner
  generation : String
  expires : ℚ
  batch : Option CandidateBatch
  sourceRef : Option String
  consumedBatch : Option CandidateBatch
  confirmationRef : Option String

structure Consumed where
  ticket : QueryTicket
  refs : Finset String
  expires : ℚ

inductive ErrorCode where
  | parameterError | unsupported | unparsed
  deriving DecidableEq

structure QueryResolutionError where
  message : String
  code : ErrorCode

namespace QueryResolutionError

def replayed : QueryResolutionError := ⟨"已消费的原始或确认消息不能重新查询。", .parameterError⟩

def unboundEvents : QueryResolutionError := ⟨"候选消息绑定超出边界。", .parameterError⟩

def consumedFull : QueryResolutionError := ⟨"候选消费记录已满，请稍后用新消息查询。", .parameterError⟩

def noOwner : QueryResolutionError := ⟨"缺少可信用户/会话绑定，无法续接候选。", .unsupported⟩

def invalidAction : QueryResolutionError := ⟨"查询 action 无效。", .parameterError⟩

def sourceMessage : QueryResolutionError := ⟨"原始消息不能改变待选查询或猜选。", .parameterError⟩

def noCandidates : QueryResolutionError := ⟨"没有有效候选，请明确查询条件。", .parameterError⟩

def noMessage : QueryResolutionError := ⟨"缺少可信用户消息绑定。", .unsupported⟩

def invalidConfirmation : QueryResolutionError := ⟨"候选确认无效或已过期，请重新查询。", .parameterError⟩

def notListed : QueryResolutionError := ⟨"请选择当前列表中的物品 ID。", .parameterError⟩

def invalidBatch : QueryResolutionError := ⟨"候选批次无效或已过期。", .parameterError⟩

def stale : QueryResolutionError := ⟨"候选已失效，请重新查询。", .parameterError⟩

def invalidIds : QueryResolutionError := ⟨"物品候选 ID 无效。", .unparsed⟩

def noSession : QueryResolutionError := ⟨"缺少可信用户/会话绑定。", .unsupported⟩

def staleBatch : QueryResolutionError := ⟨"候选批次无效或已过期，请重新查询。", .parameterError⟩

end QueryResolutionError

structure Policy where
  ttl : ℚ
  capacity : ℕ
  maxCandidates : ℕ
  ttl_bounds : 0 < ttl ∧ ttl ≤ 300
  capacity_bounds : 1 ≤ capacity ∧ capacity ≤ 128
  candidate_bounds : 1 ≤ maxCandidates ∧ maxCandidates ≤ 6

structure CandidateRegistry where
  pending : Table Pending.owner
  consumed : Table Consumed.ticket

abbrev Outcome (α : Type) := Except QueryResolutionError α × CandidateRegistry

namespace CandidateRegistry

def prune (s : CandidateRegistry) (now : ℚ) : CandidateRegistry where
  pending := s.pending.delete fun r => decide (r.expires ≤ now)
  consumed := s.consumed.delete fun c => decide (c.expires ≤ now)

def replays (s : CandidateRegistry) (owner : TrustedOwner) (eventRef : String) : Bool :=
  s.consumed.rows.any fun c => decide (c.ticket.owner = owner) && decide (eventRef ∈ c.refs)

def requireFreshEvent (s : CandidateRegistry) (owner : TrustedOwner) (eventRef : String) (now : ℚ) : Outcome Unit :=
  (if (s.prune now).replays owner eventRef then .error .replayed else .ok (), s.prune now)

def heldBy (s : CandidateRegistry) (ticket : QueryTicket) : Option Pending :=
  (s.pending.get ticket.owner).filter fun r => decide (r.generation = ticket.generation)

def current (s : CandidateRegistry) (ticket : QueryTicket) (now : ℚ) : Outcome Pending :=
  (((s.prune now).heldBy ticket).elim (.error .stale) .ok, s.prune now)

def drop (s : CandidateRegistry) (owner : TrustedOwner) : CandidateRegistry :=
  { s with pending := s.pending.delete fun r => decide (r.owner = owner) }

def events (s : CandidateRegistry) (ticket : QueryTicket) (refs : List (Option String)) : Finset String :=
  refs.reduceOption.toFinset ∪ (s.consumed.get ticket).elim ∅ Consumed.refs

def consumeEvents (p : Policy) (s : CandidateRegistry) (ticket : QueryTicket) (refs : List (Option String))
    (checked stamped : ℚ) : Outcome Unit :=
  match s.current ticket checked with
  | (.error e, s) => (.error e, s)
  | (.ok _, s) =>
    if s.events ticket refs = ∅ ∨ 4 < (s.events ticket refs).card then (.error .unboundEvents, s)
    else if s.consumed.get ticket = none ∧ p.capacity ≤ s.consumed.rows.length then (.error .consumedFull, s)
    else (.ok (), { s with consumed := s.consumed.replace ⟨ticket, s.events ticket refs, stamped + 300⟩ })

def evictOldest (p : Policy) (t : Table Pending.owner) : Table Pending.owner where
  rows := t.rows.drop (t.rows.length + 1 - p.capacity)
  unique := t.unique.sublist ((List.drop_sublist _ _).map Pending.owner)

def begin (p : Policy) (s : CandidateRegistry) (owner : Option TrustedOwner) (sourceRef : Option String)
    (generation : String) (pruned stamped : ℚ) : Outcome QueryTicket :=
  match owner with
  | none => (.error .noOwner, s)
  | some owner =>
    let s := (s.prune pruned).drop owner
    (.ok ⟨owner, generation⟩, { s with
      pending := (evictOldest p s.pending).replace ⟨owner, generation, stamped + p.ttl, none, sourceRef, none, none⟩ })

def toolAnswer (pending : Option Pending) (eventRef query action : String) :
    Except QueryResolutionError (Option CandidateBatch) :=
  if pending.any fun r => decide (some eventRef ∈ [r.sourceRef, r.confirmationRef]) then
    match pending.bind Pending.batch with
    | some batch => if query = batch.query.query then .ok (some batch) else .error .sourceMessage
    | none => .error .sourceMessage
  else if action ∈ ["continue", "clarify"] then
    match pending.bind Pending.batch with
    | some batch => .ok (some batch)
    | none => .error .noCandidates
  else .ok none

def toolQuery (s : CandidateRegistry) (owner : TrustedOwner) (eventRef query action : String) (checked pruned : ℚ) :
    Outcome (Option CandidateBatch) :=
  if action ∉ ["query", "correction", "continue", "clarify"] then (.error .invalidAction, s)
  else
    match s.requireFreshEvent owner eventRef checked with
    | (.error e, s) => (.error e, s)
    | (.ok _, s) => (toolAnswer ((s.prune pruned).pending.get owner) eventRef query action, s.prune pruned)

def offering (s : CandidateRegistry) (owner : TrustedOwner) (batchId generation : String) : Option (Pending × CandidateBatch) :=
  (s.heldBy ⟨owner, generation⟩).bind fun r => (r.batch.filter fun b => decide (b.batchId = batchId)).map fun b => (r, b)

def clarify (s : CandidateRegistry) (owner : TrustedOwner) (batchId generation eventRef : String) (checked pruned : ℚ) :
    Outcome CandidateBatch :=
  match s.requireFreshEvent owner eventRef checked with
  | (.error e, s) => (.error e, s)
  | (.ok _, s) =>
    match (s.prune pruned).offering owner batchId generation with
    | none => (.error .invalidBatch, s.prune pruned)
    | some (r, batch) =>
      if r.sourceRef = some eventRef then (.error .invalidBatch, s.prune pruned) else (.ok batch, s.prune pruned)

def releaseConfirmed (s : CandidateRegistry) (ticket : QueryTicket) : CandidateRegistry :=
  if (s.heldBy ticket).any fun r => r.consumedBatch.isSome then s.drop ticket.owner else s

def abandon (s : CandidateRegistry) (ticket : QueryTicket) : CandidateRegistry :=
  if (s.heldBy ticket).isSome then s.drop ticket.owner else s

def finish (s : CandidateRegistry) (ticket : QueryTicket) (query : Query) (retain : Bool) (now : ℚ) : Outcome Query :=
  match s.current ticket now with
  | (.error e, s) => (.error e, s)
  | (.ok _, s) => (.ok query, if retain then s else s.drop ticket.owner)

def assign (s : CandidateRegistry) (owner : TrustedOwner) (f : Pending → Pending) (hf : ∀ r, (f r).owner = r.owner) :
    CandidateRegistry :=
  { s with pending := s.pending.update (fun r => decide (r.owner = owner)) f hf }

def setBatch (batch : Option CandidateBatch) (r : Pending) : Pending := { r with batch := batch }

theorem owner_setBatch (batch : Option CandidateBatch) (r : Pending) : (setBatch batch r).owner = r.owner := rfl

def setConfirmed (batch : CandidateBatch) (eventRef : String) (r : Pending) : Pending :=
  { r with consumedBatch := some batch, confirmationRef := some eventRef }

theorem owner_setConfirmed (batch : CandidateBatch) (eventRef : String) (r : Pending) :
    (setConfirmed batch eventRef r).owner = r.owner := rfl

def newBatch (p : Policy) (ticket : QueryTicket) (query : Query) (candidates : List ItemCandidate) (truncated : Bool)
    (batchId : String) : CandidateBatch :=
  ⟨batchId, ticket.generation, query, candidates.take p.maxCandidates,
    truncated || decide (p.maxCandidates < candidates.length)⟩

def publish (p : Policy) (s : CandidateRegistry) (ticket : QueryTicket) (query : Query) (candidates : List ItemCandidate)
    (truncated : Bool) (batchId : String) (now : ℚ) : Outcome CandidateBatch :=
  match s.current ticket now with
  | (.error e, s) => (.error e, s)
  | (.ok _, s) =>
    if ¬ (candidates.map ItemCandidate.itemId).Nodup ∨ (candidates.any fun c => decide (2147483647 < c.itemId)) = true then
      (.error .invalidIds, s)
    else
      (.ok (newBatch p ticket query candidates truncated batchId),
        s.assign ticket.owner (setBatch (some (newBatch p ticket query candidates truncated batchId))) (owner_setBatch _))

def choose (s : CandidateRegistry) (owner : Option TrustedOwner) (batchId generation : String) (itemId : ℤ) (retain : Bool)
    (now : ℚ) : Outcome Query :=
  match owner with
  | none => (.error .noSession, s)
  | some owner =>
    match (s.prune now).offering owner batchId generation with
    | none => (.error .staleBatch, s.prune now)
    | some (_, batch) =>
      match batch.candidates.find? fun c => decide (c.itemId = itemId) with
      | none => (.error .notListed, s.prune now)
      | some selected => (.ok (batch.query.select selected),
          if retain then (s.prune now).assign owner (setBatch none) (owner_setBatch none) else (s.prune now).drop owner)

def confirm (p : Policy) (s : CandidateRegistry) (owner : TrustedOwner) (batchId generation : String) (itemId : ℤ)
    (eventRef : String) (pruned fresh checked stamped : ℚ) : Outcome (Pending × CandidateBatch) :=
  match (s.prune pruned).offering owner batchId generation with
  | none => (.error .invalidConfirmation, s.prune pruned)
  | some (r, batch) =>
    if some eventRef ∈ [r.sourceRef, r.confirmationRef] then (.error .invalidConfirmation, s.prune pruned)
    else
      match (s.prune pruned).requireFreshEvent owner eventRef fresh with
      | (.error e, s) => (.error e, s)
      | (.ok _, s) =>
        if batch.candidates.all fun c => decide (c.itemId ≠ itemId) then (.error .notListed, s)
        else
          match s.consumeEvents p ⟨owner, generation⟩ [r.sourceRef, some eventRef] checked stamped with
          | (.error e, s) => (.error e, s)
          | (.ok _, s) => (.ok (r, batch), s)

def chooseConfirmed (p : Policy) (s : CandidateRegistry) (owner : Option TrustedOwner) (batchId generation : String)
    (itemId : ℤ) (eventRef : String) (retain : Bool) (pruned fresh checked stamped chosen : ℚ) : Outcome Query :=
  match owner with
  | none => (.error .noMessage, s)
  | some owner =>
    if eventRef = "" then (.error .noMessage, s)
    else
      match s.confirm p owner batchId generation itemId eventRef pruned fresh checked stamped with
      | (.error e, s) => (.error e, s)
      | (.ok (_, batch), s) =>
        match s.choose (some owner) batchId generation itemId retain chosen with
        | (.error e, s) => (.error e, s)
        | (.ok query, s) =>
          (.ok query, if retain then s.assign owner (setConfirmed batch eventRef) (owner_setConfirmed batch eventRef) else s)

end CandidateRegistry

end GameLink.Ff14.Candidates

import GameLink.Foundation.Runs
import Mathlib.Algebra.Order.Ring.Rat

namespace GameLink.Sources.Tokens

open Foundation

structure SecretRef where
  token : String
  principalId : String
  moduleId : String
  field : String
  operationId : String
  deriving DecidableEq

inductive SecretMetadataState where
  | active | tombstoned
  deriving DecidableEq

structure SecretMetadata where
  field : String
  state : SecretMetadataState
  secretRef : Option SecretRef

structure ClientMaterial where
  clientId : String
  clientSecret : String
  deriving DecidableEq

structure Binding where
  principalId : String
  moduleId : String
  credentialRef : String

def Binding.currentSecretRef (b : Binding) (snapshot : List SecretMetadata) : Option SecretRef :=
  match snapshot.filter fun item => decide (item.field = b.credentialRef) with
  | [metadata] =>
    match metadata.state, metadata.secretRef with
    | .active, some ref =>
      if ref.principalId = b.principalId ∧ ref.moduleId = b.moduleId ∧ ref.field = b.credentialRef then some ref else none
    | _, _ => none
  | _ => none

structure Exchange where
  id : ℕ
  secret : SecretRef
  material : ClientMaterial
  started : ℚ
  deriving DecidableEq

structure Token where
  exchange : Exchange
  value : String
  expiresIn : ℚ
  deriving DecidableEq

def Token.lifetime (t : Token) : ℚ := min t.expiresIn 86400

def Token.earlyExpiry (t : Token) : ℚ := min 30 (t.lifetime / 10)

structure CredentialLease where
  token : Token
  generation : ℕ
  secretToken : String
  deriving DecidableEq

structure TokenState where
  holder : Option ℕ
  secretToken : Option String
  accessToken : Option Token
  expiresAt : ℚ
  generation : ℕ

inductive Stage where
  | looking
  | looked (ref : Option SecretRef)
  | opening (ref : SecretRef)
  | opened (ref : SecretRef) (material : Option ClientMaterial)
  | queued (ref : SecretRef) (material : ClientMaterial)
  | exchanging (exchange : Exchange)
  | rechecking (token : Token)
  | rechecked (token : Token) (ref : Option SecretRef)
  | reopening (token : Token) (ref : SecretRef)
  | reopened (token : Token) (ref : SecretRef) (material : Option ClientMaterial)

inductive Call where
  | idle
  | waiting
  | inside (stage : Stage)
  | ended

structure Return where
  call : ℕ
  lease : CredentialLease
  time : ℚ

/-- The service for one source, with the configuration and the secrets. `observed`, `opened`, `returned` and
`invalidated` are its history. -/
structure World where
  clock : ℚ
  isClosed : Bool
  state : TokenState
  snapshot : List SecretMetadata
  secrets : SecretRef → Option ClientMaterial
  calls : ℕ → Call
  freshExchange : ℕ
  observed : List (ℕ × SecretRef)
  opened : List (SecretRef × ClientMaterial)
  returned : List Return
  invalidated : List ℕ

inductive Action where
  | authorize (i : ℕ) (bound : Bool)
  | acquire (i : ℕ)
  | serve (i : ℕ)
  | resume (i : ℕ)
  | exchange (i : ℕ)
  | answer (i : ℕ) (value : String) (expiresIn : ℚ)
  /-- an await raises, or is cancelled -/
  | raised (i : ℕ)
  | invalidate (lease : CredentialLease)
  | retire
  | close
  /-- a close that holds the lock -/
  | clear
  | configure (snapshot : List SecretMetadata)
  | store (ref : SecretRef) (material : Option ClientMaterial)
  | advance (now : ℚ)

namespace World

def setCall (w : World) (i : ℕ) (call : Call) : World := { w with calls := Function.update w.calls i call }

def goOn (w : World) (i : ℕ) (stage : Stage) : World := w.setCall i (.inside stage)

def leave (w : World) (i : ℕ) : World := w.setCall i .ended

def finish (w : World) (i : ℕ) : World := { w with state := { w.state with holder := none } }.setCall i .ended

def lease (w : World) (i : ℕ) : World :=
  match w.state.accessToken, w.state.secretToken with
  | some token, some secretToken =>
    { w with returned := ⟨i, ⟨token, w.state.generation, secretToken⟩, w.clock⟩ :: w.returned }.finish i
  | _, _ => w.finish i

def cleared (s : TokenState) : TokenState :=
  { s with accessToken := none, secretToken := none, expiresAt := 0, generation := s.generation + 1 }

def select (s : TokenState) (ref : SecretRef) : TokenState :=
  if s.secretToken = some ref.token then s
  else { s with accessToken := none, expiresAt := 0, secretToken := some ref.token, generation := s.generation + 1 }

def keep (s : TokenState) (token : Token) (now : ℚ) : TokenState :=
  { s with
    accessToken := some token
    expiresAt := now + max 0 (token.lifetime - token.earlyExpiry)
    generation := s.generation + 1 }

def active (w : World) (i : ℕ) (k : World → World) : World := if w.isClosed then w.finish i else k w

def acquire (w : World) (i : ℕ) : World :=
  if w.state.holder = none then
    { w with state := { w.state with holder := some i } }.active i fun w => w.goOn i .looking
  else w

def resume (w : World) (i : ℕ) : Stage → World
  | .looked none => w.finish i
  | .looked (some ref) => w.active i fun w => { w with state := select w.state ref }.goOn i (.opening ref)
  | .opened _ none => w.finish i
  | .opened ref (some material) => w.active i fun w =>
    if w.state.accessToken.isSome ∧ w.clock < w.state.expiresAt then w.lease i else w.goOn i (.queued ref material)
  | .rechecked _ none => w.finish i
  | .rechecked token (some ref) => w.active i fun w => w.goOn i (.reopening token ref)
  | .reopened _ _ none => w.finish i
  | .reopened token ref (some material) => w.active i fun w =>
    if ref ≠ token.exchange.secret ∨ material ≠ token.exchange.material then
      { w with state := cleared w.state }.finish i
    else { w with state := keep w.state token w.clock }.lease i
  | _ => w

variable (b : Binding)

def serve (w : World) (i : ℕ) : Stage → World
  | .looking =>
    let ref := b.currentSecretRef w.snapshot
    { w with observed := ref.elim w.observed fun ref => (i, ref) :: w.observed }.goOn i (.looked ref)
  | .opening ref =>
    let material := w.secrets ref
    { w with opened := material.elim w.opened fun material => (ref, material) :: w.opened }.goOn i (.opened ref material)
  | .rechecking token => w.goOn i (.rechecked token (b.currentSecretRef w.snapshot))
  | .reopening token ref => w.goOn i (.reopened token ref (w.secrets ref))
  | _ => w

def exchange (w : World) (i : ℕ) : Stage → World
  | .queued ref material =>
    { w with freshExchange := w.freshExchange + 1 }.goOn i (.exchanging ⟨w.freshExchange, ref, material, w.clock⟩)
  | _ => w

def answer (w : World) (i : ℕ) (value : String) (expiresIn : ℚ) : Stage → World
  | .exchanging exchange =>
    if expiresIn ≤ 0 then w.finish i else w.active i fun w => w.goOn i (.rechecking ⟨exchange, value, expiresIn⟩)
  | _ => w

def invalidate (w : World) (lease : CredentialLease) : World :=
  if w.state.holder = none then
    let w := { w with
      invalidated :=
        if ∃ r ∈ w.returned, r.lease = lease then lease.token.exchange.id :: w.invalidated else w.invalidated }
    if w.state.secretToken = some lease.secretToken ∧ w.state.generation = lease.generation then
      { w with state := { w.state with accessToken := none, expiresAt := 0, generation := w.state.generation + 1 } }
    else w
  else w

def inside (w : World) (i : ℕ) (k : Stage → World) : World :=
  match w.calls i with
  | .inside stage => k stage
  | _ => w

def next (w : World) : Action → World
  | .authorize i bound =>
    match w.calls i with
    | .idle => if w.isClosed || !bound then w.leave i else w.setCall i .waiting
    | _ => w
  | .acquire i =>
    match w.calls i with
    | .waiting => w.acquire i
    | _ => w
  | .serve i => w.inside i fun stage => w.serve b i stage
  | .resume i => w.inside i fun stage => w.resume i stage
  | .exchange i => w.inside i fun stage => w.exchange i stage
  | .answer i value expiresIn => w.inside i fun stage => w.answer i value expiresIn stage
  | .raised i =>
    match w.calls i with
    | .waiting => w.leave i
    | .inside _ => w.finish i
    | _ => w
  | .invalidate lease => w.invalidate lease
  | .retire => { w with isClosed := true, state := cleared w.state }
  | .close => { w with isClosed := true }
  | .clear => if w.isClosed = true ∧ w.state.holder = none then { w with state := cleared w.state } else w
  | .configure snapshot => { w with snapshot := snapshot }
  | .store ref material => { w with secrets := Function.update w.secrets ref material }
  | .advance now => { w with clock := max w.clock now }

structure Initial (w : World) : Prop where
  holder : w.state.holder = none
  accessToken : w.state.accessToken = none
  calls : ∀ i, w.calls i = .idle
  observed : w.observed = []
  opened : w.opened = []
  returned : w.returned = []
  invalidated : w.invalidated = []

def Prompt (w : World) : Action → Prop
  | .resume i => ∀ token ref material, w.calls i = .inside (.reopened token ref material) →
    w.clock - token.exchange.started ≤ token.earlyExpiry
  | _ => True

end World

def tokens (b : Binding) : System World Action where
  start := World.Initial
  allowed _ _ := True
  next := World.next b

def promptTokens (b : Binding) : System World Action where
  start := World.Initial
  allowed := World.Prompt
  next := World.next b

end GameLink.Sources.Tokens

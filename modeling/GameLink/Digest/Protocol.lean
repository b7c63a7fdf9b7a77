import GameLink.Digest.Effects
import GameLink.Foundation.Runs

namespace GameLink.Digest

open Foundation Work Contracts Store

section

variable [Hashing]

inductive EnvelopeAction where
  | claimDueEnvelope (windowId : String) (recipient : ConversationRef) (now leaseExpiresAt : Instant) (token : String)
  | reconcileEnvelopeMembers (claim : DigestEnvelopeClaim) (receipts : List DigestMemberReceipt) (revision : ℕ)
  | beginEnvelopeSend (claim : DigestEnvelopeClaim) (revision attemptNumber : ℕ) (startedAt : Instant)
  | completeEnvelopeSend (claim : DigestEnvelopeClaim) (attempt : DeliveryAttempt) (revision : ℕ)
      (retryAt : Option Instant)
  | abortEnvelopeSend (claim : DigestEnvelopeClaim) (attempt : DeliveryAttempt) (revision : ℕ)
  | recoverExpiredEnvelopeClaims (before recoveredAt : Instant) (restart : Bool)
  | retryFailedEnvelope (envelopeId : String) (revision : ℕ) (now : Instant)
  | elsewhere (s : Database)

structure Presented where
  envelopeId : String
  token : Option String
  revision : ℕ

namespace EnvelopeAction

def run (bindings : GateBindings) (s : Database) : EnvelopeAction → Database
  | claimDueEnvelope windowId recipient now leaseExpiresAt token =>
    (transaction (Digest.claimDueEnvelope bindings windowId recipient now leaseExpiresAt token) s).2
  | reconcileEnvelopeMembers claim receipts revision =>
    (transaction (Digest.reconcileEnvelopeMembers bindings claim receipts revision) s).2
  | beginEnvelopeSend claim revision attemptNumber startedAt =>
    (transaction (Digest.beginEnvelopeSend bindings claim revision attemptNumber startedAt) s).2
  | completeEnvelopeSend claim attempt revision retryAt =>
    (transaction (Digest.completeEnvelopeSend claim attempt revision retryAt) s).2
  | abortEnvelopeSend claim attempt revision => (transaction (Digest.abortEnvelopeSend claim attempt revision) s).2
  | recoverExpiredEnvelopeClaims before recoveredAt restart =>
    (transaction (Digest.recoverExpiredEnvelopeClaims before recoveredAt restart) s).2
  | retryFailedEnvelope id revision now => (transaction (Digest.retryFailedEnvelope bindings id revision now) s).2
  | elsewhere s' => { s' with envelopes := s.envelopes }

def issues : EnvelopeAction → Option String
  | claimDueEnvelope _ _ _ _ token => some token
  | _ => none

def presents : EnvelopeAction → Option Presented
  | claimDueEnvelope .. => none
  | reconcileEnvelopeMembers claim _ revision => some ⟨claim.envelope.envelopeId, some claim.claimToken, revision⟩
  | beginEnvelopeSend claim revision _ _ => some ⟨claim.envelope.envelopeId, some claim.claimToken, revision⟩
  | completeEnvelopeSend claim _ revision _ => some ⟨claim.envelope.envelopeId, some claim.claimToken, revision⟩
  | abortEnvelopeSend claim _ revision => some ⟨claim.envelope.envelopeId, some claim.claimToken, revision⟩
  | recoverExpiredEnvelopeClaims .. => none
  | retryFailedEnvelope id revision _ => some ⟨id, none, revision⟩
  | elsewhere _ => none

end EnvelopeAction

structure EnvelopeHistory where
  store : Database
  issued : List String

def EnvelopeHistory.row (h : EnvelopeHistory) (id : String) : Option EnvelopeRow := h.store.envelopes.get id

def protocol (bindings : GateBindings) : System EnvelopeHistory EnvelopeAction where
  start h := h.store.envelopes = Table.empty
  allowed h a := ∀ t ∈ a.issues, t ∉ h.issued
  next h a := ⟨a.run bindings h.store, a.issues.toList ++ h.issued⟩

variable {bindings : GateBindings}

structure EnvelopeAction.Step (a : EnvelopeAction) (id : String) (r r' : Option EnvelopeRow) : Prop where
  row : RowStep a.issues r r'
  current : r' ≠ r → ∀ p ∈ a.presents, p.envelopeId = id ∧ ∃ row ∈ r, row.revision = p.revision ∧
    ∀ t ∈ p.token, row.claimToken = some t

variable {a : EnvelopeAction} {id : String}

theorem EnvelopeAction.Step.same (r : Option EnvelopeRow) : a.Step id r r :=
  ⟨.same r, fun h => absurd rfl h⟩

theorem Rewritten.step {current e' : DigestEnvelope} {s s' : Database} {p : Presented}
    (h : Rewritten (envelopeRow current) e' s s') (hm : EnvelopeMove current e')
    (ht : ∀ t, e'.claimToken = some t → current.claimToken = some t ∨ a.issues = some t)
    (hp : a.presents = some p) (hid : p.envelopeId = current.envelopeId) (hrev : current.revision = p.revision)
    (htoken : ∀ t ∈ p.token, current.claimToken = some t) (id : String) :
    a.Step id (s.envelopes.get id) (s'.envelopes.get id) := by
  refine ⟨h.row_step hm ht id, fun hne q hq => ?_⟩
  obtain rfl := Option.some.inj (hp.symm.trans hq)
  have hkey : id = current.envelopeId := by
    by_contra hkey
    rw [h.2, if_neg (show id ≠ (envelopeRow current).envelopeId from hkey)] at hne
    exact hne rfl
  subst hkey
  exact ⟨hid, _, h.1, hrev, htoken⟩

theorem UnderClaim.step {claim : DigestEnvelopeClaim} {revision : ℕ} {s s' : Database}
    (h : UnderClaim claim revision s s')
    (hp : a.presents = some ⟨claim.envelope.envelopeId, some claim.claimToken, revision⟩) (id : String) :
    a.Step id (s.envelopes.get id) (s'.envelopes.get id) := by
  rcases h with hsame | ⟨current, e', hrow, hrev, htoken, hm, ht, hrew⟩
  · rw [hsame]
    exact .same _
  have hkey : (envelopeRow current).envelopeId = claim.envelope.envelopeId := Table.key_of_get hrow
  refine hrew.step hm (fun t h => .inl (ht t h)) hp hkey.symm hrev ?_ id
  rintro _ ⟨⟩
  exact htoken

theorem step_transaction {α : Type} {w : StoreWork α} {s : Database}
    (hw : ∀ x u, w.Gives ⟨s, []⟩ x u → a.Step id (s.envelopes.get id) (u.store.envelopes.get id)) :
    a.Step id (s.envelopes.get id) ((transaction w s).2.envelopes.get id) :=
  transaction_store (P := fun s' : Database => a.Step id (s.envelopes.get id) (s'.envelopes.get id)) (.same _) hw

theorem run_step {s : Database} (ha : Agreeing s) (a : EnvelopeAction) (id : String) :
    a.Step id (s.envelopes.get id) ((a.run bindings s).envelopes.get id) := by
  cases a with
  | claimDueEnvelope windowId recipient now leaseExpiresAt token =>
    exact step_transaction fun x u h => ⟨claimDue_gives ha h id, fun _ p hp => by cases hp⟩
  | reconcileEnvelopeMembers claim receipts revision =>
    exact step_transaction fun x u h => (reconcile_gives ha h).step rfl id
  | beginEnvelopeSend claim revision attemptNumber startedAt =>
    exact step_transaction fun x u h => (begin_gives ha h).step rfl id
  | completeEnvelopeSend claim attempt revision retryAt =>
    exact step_transaction fun x u h => (complete_gives ha h).step rfl id
  | abortEnvelopeSend claim attempt revision =>
    exact step_transaction fun x u h => (abort_gives ha h).step rfl id
  | recoverExpiredEnvelopeClaims before recoveredAt restart =>
    refine step_transaction fun x u h => ⟨?_, fun _ p hp => by cases hp⟩
    rcases recover_gives ha h id with hsame | ⟨current, e', hrow, hm, ht, hnew⟩
    · rw [hsame]
      exact .same _
    · rw [hrow, hnew]
      exact .moved current e' hm fun t h => by rw [ht] at h; cases h
  | retryFailedEnvelope envelopeId revision now =>
    refine step_transaction fun x u h => ?_
    rcases retry_gives ha h with hsame | ⟨current, e', hrow, hrev, hm, ht, hrew⟩
    · rw [hsame]
      exact .same _
    · have hkey : (envelopeRow current).envelopeId = envelopeId := Table.key_of_get hrow
      exact hrew.step hm (fun t h => by rw [ht] at h; cases h) rfl hkey.symm hrev (fun t ht => by cases ht) id
  | elsewhere s' => exact .same _

structure Sound (h : EnvelopeHistory) : Prop where
  agreeing : Agreeing h.store
  issued : ∀ id row t, h.row id = some row → row.claimToken = some t → t ∈ h.issued
  settled : ∀ id row, h.row id = some row → attemptReading.Settled row.envelope.deliveryAttempts

theorem RowStep.after {token : Option String} {r : Option EnvelopeRow} {row' : EnvelopeRow}
    (h : RowStep token r (some row')) :
    r = some row' ∨ ∃ e', row' = envelopeRow e' ∧
      (∀ t, e'.claimToken = some t → token = some t ∨ ∃ e, r = some (envelopeRow e) ∧ e.claimToken = some t) ∧
      (e'.deliveryAttempts = [] ∨ ∃ e, r = some (envelopeRow e) ∧
        attemptReading.Move e.deliveryAttempts e'.deliveryAttempts) := by
  cases h with
  | same => exact .inl rfl
  | created e hl ht => exact .inr ⟨e, rfl, fun t h => .inl (ht t h), .inl hl⟩
  | moved current e' hm ht =>
    refine .inr ⟨e', rfl, fun t h => ?_, .inr ⟨current, rfl, hm.ledger⟩⟩
    rcases ht t h with ht | ht
    · exact .inr ⟨current, rfl, ht⟩
    · exact .inl ht

variable {h : EnvelopeHistory}

theorem Sound.next (hs : Sound h) : Sound ((protocol bindings).next h a) := by
  have hstep : ∀ id, a.Step id (h.row id) (((protocol bindings).next h a).row id) := run_step hs.agreeing a
  have hafter : ∀ id row, ((protocol bindings).next h a).row id = some row → _ := fun id row hrow =>
    RowStep.after (hrow ▸ (hstep id).row)
  constructor
  · intro id row hrow
    rcases hafter id row hrow with hold | ⟨e', rfl, -⟩
    · exact hs.agreeing id row hold
    · rfl
  · intro id row t hrow ht
    rcases hafter id row hrow with hold | ⟨e', rfl, htoken, -⟩
    · exact List.mem_append_right _ (hs.issued id row t hold ht)
    rcases htoken t ht with hnew | ⟨e, hold, hte⟩
    · exact List.mem_append_left _ (by rw [hnew]; exact List.mem_singleton_self t)
    · exact List.mem_append_right _ (hs.issued id _ t hold hte)
  · intro id row hrow
    rcases hafter id row hrow with hold | ⟨e', rfl, -, hempty | ⟨e, hold, hm⟩⟩
    · exact hs.settled id row hold
    · intro i hi
      rw [show (envelopeRow e').envelope.deliveryAttempts = [] from hempty] at hi
      exact absurd hi (Nat.not_lt_zero _)
    · exact hm.settled (hs.settled id _ hold)

theorem sound_of_reachable (hr : (protocol bindings).Reachable h) : Sound h := by
  refine hr.invariant (fun h h₀ => ?_) fun h a hs _ => hs.next
  have hnone : ∀ id, h.row id = none := by
    intro id
    rw [EnvelopeHistory.row, show h.store.envelopes = Table.empty from h₀]
    rfl
  refine ⟨fun id row hrow => ?_, fun id row t hrow => ?_, fun id row hrow => ?_⟩
  · cases (hnone id).symm.trans hrow
  · rw [hnone id] at hrow
    cases hrow
  · rw [hnone id] at hrow
    cases hrow

/-- How a row may have changed since it read `row`: not at all, or its revision went up, by moves of an
open envelope and its ledger. -/
structure Since (row row' : EnvelopeRow) : Prop where
  revision : row' = row ∨ row.revision < row'.revision
  closed : row.state ∈ [.sent, .unknown, .cancelled] → row' = row
  ledger : attemptReading.Moves row.envelope.deliveryAttempts row'.envelope.deliveryAttempts

theorem Since.refl (row : EnvelopeRow) : Since row row := ⟨.inl rfl, fun _ => rfl, .refl⟩

theorem Since.trans {r₁ r₂ r₃ : EnvelopeRow} (h : Since r₁ r₂) (h' : Since r₂ r₃) : Since r₁ r₃ where
  revision := by
    rcases h.revision with rfl | hlt
    · exact h'.revision
    rcases h'.revision with rfl | hlt'
    · exact .inr hlt
    · exact .inr (hlt.trans hlt')
  closed hc := by
    obtain rfl := h.closed hc
    exact h'.closed hc
  ledger := h.ledger.trans h'.ledger

def EnvelopeRow.custody (row : EnvelopeRow) : Custody String := ⟨row.revision, row.claimToken⟩

variable {row : EnvelopeRow}

theorem row_next (hs : Sound h) (ha : (protocol bindings).allowed h a) (hrow : h.row id = some row) :
    ∃ row', ((protocol bindings).next h a).row id = some row' ∧ Since row row' ∧
      attemptReading.Move row.envelope.deliveryAttempts row'.envelope.deliveryAttempts ∧
      Custody.Step (EnvelopeRow.custody row) h.issued (EnvelopeRow.custody row') ((protocol bindings).next h a).issued ∧
      (row' ≠ row → ∀ p ∈ a.presents, p.envelopeId = id ∧ row.revision = p.revision ∧
        ∀ t ∈ p.token, row.claimToken = some t) := by
  have hstep : a.Step id (h.row id) (((protocol bindings).next h a).row id) := run_step hs.agreeing a id
  obtain ⟨hmove, hcur⟩ := hstep
  rw [hrow] at hmove hcur
  have hgrow : h.issued ⊆ ((protocol bindings).next h a).issued := fun t ht => List.mem_append_right _ ht
  generalize ((protocol bindings).next h a).row id = r' at hmove hcur
  have hcurrent : ∀ row', r' = some row' → row' ≠ row → ∀ p ∈ a.presents, p.envelopeId = id ∧
      row.revision = p.revision ∧ ∀ t ∈ p.token, row.claimToken = some t := by
    rintro row' rfl hne p hp
    obtain ⟨hid, row₀, hrow₀, hrev, ht⟩ := hcur (fun he => hne (Option.some.inj he)) p hp
    obtain rfl := Option.some.inj hrow₀
    exact ⟨hid, hrev, ht⟩
  cases hmove with
  | same => exact ⟨row, rfl, .refl row, .keep, ⟨hgrow, .inl rfl⟩, hcurrent row rfl⟩
  | moved current e' hm ht =>
    have hlt : current.revision < e'.revision := by
      rw [hm.revision]
      exact Nat.lt_succ_self _
    refine ⟨envelopeRow e', rfl, ⟨.inr hlt, fun hc => absurd hc hm.open_state, .single hm.ledger⟩, hm.ledger,
      ⟨hgrow, .inr ⟨hlt, fun t h => ?_⟩⟩, hcurrent _ rfl⟩
    rcases ht t h with hold | hnew
    · exact .inl hold
    · exact .inr ⟨ha t hnew, List.mem_append_left _ (by rw [hnew]; exact List.mem_singleton_self t)⟩

theorem row_trace {h h' : EnvelopeHistory} {as : List EnvelopeAction} (hs : Sound h)
    (ht : (protocol bindings).Trace h as h') (hrow : h.row id = some row) :
    ∃ row', h'.row id = some row' ∧ Since row row' ∧
      ∀ t, (EnvelopeRow.custody row).Stale h.issued t → (EnvelopeRow.custody row').Stale h'.issued t := by
  induction ht generalizing row with
  | nil h => exact ⟨row, hrow, .refl row, fun t h => h⟩
  | cons ha ht ih =>
    obtain ⟨row₁, hrow₁, hsince, -, hcustody, -⟩ := row_next hs ha hrow
    obtain ⟨row₂, hrow₂, hsince', hstale⟩ := ih hs.next hrow₁
    exact ⟨row₂, hrow₂, hsince.trans hsince', fun t h => hstale t (hcustody.stale h)⟩

theorem attempts_numbered (e : DigestEnvelope) : attemptReading.Numbered e.deliveryAttempts := by
  intro i hi
  have hseq := e.attempts_sequential
  rw [EnvelopeFields.sequential, List.all_eq_true] at hseq
  have hmem : (e.deliveryAttempts[i], i) ∈ e.deliveryAttempts.zipIdx := by
    rw [List.mem_zipIdx_iff_getElem?, List.getElem?_eq_getElem hi]
  have h := hseq _ hmem
  rw [Bool.and_eq_true] at h
  exact of_decide_eq_true h.1

/-- What is presented was taken from `row` and no longer holds of `row'`: the revision has moved on or
the claim is over. -/
def Presented.Superseded (p : Presented) (row row' : EnvelopeRow) : Prop :=
  (p.revision = row.revision ∧ row'.revision ≠ row.revision) ∨
    ∃ t, p.token = some t ∧ row.claimToken = some t ∧ row'.claimToken ≠ some t

def EnvelopeAction.Changes (bindings : GateBindings) (a : EnvelopeAction) (h : EnvelopeHistory) (id : String) : Prop :=
  ((protocol bindings).next h a).row id ≠ h.row id

theorem superseded_unchanged {h₀ h₁ h₂ : EnvelopeHistory} {as bs : List EnvelopeAction} (hs : Sound h₀)
    (ht : (protocol bindings).Trace h₀ as h₁) (ht' : (protocol bindings).Trace h₁ bs h₂)
    {row₀ row₁ : EnvelopeRow} (hrow₀ : h₀.row id = some row₀) (hrow₁ : h₁.row id = some row₁)
    (ha : (protocol bindings).allowed h₂ a) {p : Presented} (hp : a.presents = some p)
    (hover : p.Superseded row₀ row₁) : ¬ a.Changes bindings h₂ id := by
  have hs₁ := ht.invariant (P := Sound) (fun h a hs _ => hs.next) hs
  have hs₂ := ht'.invariant (P := Sound) (fun h a hs _ => hs.next) hs₁
  obtain ⟨row, hrow, hsince, -⟩ := row_trace hs ht hrow₀
  obtain rfl := Option.some.inj (hrow₁.symm.trans hrow)
  obtain ⟨row₂, hrow₂, hsince', hstale⟩ := row_trace hs₁ ht' hrow₁
  obtain ⟨row₃, hrow₃, -, -, -, hcur⟩ := row_next hs₂ ha hrow₂
  intro hchange
  have hne : row₃ ≠ row₂ := by
    rintro rfl
    exact hchange (hrow₃.trans hrow₂.symm)
  obtain ⟨-, hrev, htoken⟩ := hcur hne p hp
  rcases hover with ⟨hrev₀, hne₁⟩ | ⟨t, hpt, ht₀, ht₁⟩
  · have hle := hsince.revision
    have hle' := hsince'.revision
    rcases hle with rfl | hlt
    · exact hne₁ rfl
    rcases hle' with rfl | hlt'
    · omega
    · omega
  · have hissued : t ∈ h₁.issued := by
      have hmono := ht.invariant (P := fun h => t ∈ h.issued) (fun h a hin _ => List.mem_append_right _ hin)
        (hs.issued id row₀ t hrow₀ ht₀)
      exact hmono
    exact (hstale t ⟨hissued, ht₁⟩).2 (htoken t hpt)

/-- A settled envelope stays as it is, its ledger grows only past a FAILED entry, and a superseded claim changes
nothing. -/
theorem digest_envelope_at_most_once (bindings : GateBindings) {h₀ h₁ : EnvelopeHistory} {as : List EnvelopeAction}
    (hr : (protocol bindings).Reachable h₀) (ht : (protocol bindings).Trace h₀ as h₁) {id : String}
    {row₀ : EnvelopeRow} (hrow₀ : h₀.row id = some row₀) :
    ∃ row₁, h₁.row id = some row₁ ∧ (row₀.state ∈ [.sent, .unknown, .cancelled] → row₁ = row₀) ∧
      (∀ i (hi : i < row₁.envelope.deliveryAttempts.length),
        (row₁.envelope.deliveryAttempts[i]).attemptNumber = i + 1 ∧
          (i + 1 < row₁.envelope.deliveryAttempts.length → (row₁.envelope.deliveryAttempts[i]).state = .failed)) ∧
      (∀ i, i + 1 < row₀.envelope.deliveryAttempts.length →
        row₁.envelope.deliveryAttempts[i]? = row₀.envelope.deliveryAttempts[i]?) ∧
      (∀ a, (protocol bindings).allowed h₁ a → ∃ row₂, ((protocol bindings).next h₁ a).row id = some row₂ ∧
        (row₂.envelope.deliveryAttempts.length ≤ row₁.envelope.deliveryAttempts.length ∨
          ∃ attempt, row₂.envelope.deliveryAttempts = row₁.envelope.deliveryAttempts ++ [attempt] ∧
            ∀ last ∈ row₁.envelope.deliveryAttempts.getLast?, last.state = .failed)) ∧
      (∀ a p, (protocol bindings).allowed h₁ a → a.presents = some p → a.Changes bindings h₁ id →
        p.envelopeId = id ∧ row₁.revision = p.revision ∧ ∀ t, p.token = some t → row₁.claimToken = some t) ∧
      (∀ a b p q t t', (protocol bindings).allowed h₁ a → (protocol bindings).allowed h₁ b →
        a.presents = some p → b.presents = some q → a.Changes bindings h₁ id → b.Changes bindings h₁ id →
        p.token = some t → q.token = some t' → t = t') ∧
      ∀ bs h₂ a p, (protocol bindings).Trace h₁ bs h₂ → (protocol bindings).allowed h₂ a → a.presents = some p →
        p.Superseded row₀ row₁ → ¬ a.Changes bindings h₂ id := by
  have hs := sound_of_reachable hr
  have hs₁ := sound_of_reachable (hr.trace ht)
  obtain ⟨row₁, hrow₁, hsince, -⟩ := row_trace hs ht hrow₀
  have hcurrent : ∀ a p, (protocol bindings).allowed h₁ a → a.presents = some p → a.Changes bindings h₁ id →
      p.envelopeId = id ∧ row₁.revision = p.revision ∧ ∀ t, p.token = some t → row₁.claimToken = some t := by
    intro a p ha hp hchange
    obtain ⟨row₂, hrow₂, -, -, -, hcur⟩ := row_next hs₁ ha hrow₁
    refine hcur ?_ p hp
    rintro rfl
    exact hchange (hrow₂.trans hrow₁.symm)
  refine ⟨row₁, hrow₁, hsince.closed, fun i hi => ⟨attempts_numbered _ i hi, hs₁.settled id row₁ hrow₁ i⟩,
    fun i hi => hsince.ledger.earlier hi, fun a ha => ?_, hcurrent, ?_, ?_⟩
  · obtain ⟨row₂, hrow₂, -, hmove, -⟩ := row_next hs₁ ha hrow₁
    refine ⟨row₂, hrow₂, ?_⟩
    generalize row₂.envelope.deliveryAttempts = l at hmove
    cases hmove with
    | keep => exact .inl le_rfl
    | settle prior x y hl hx hn => exact .inl (by rw [hl]; simp)
    | «begin» x hn hl => exact .inr ⟨x, rfl, hl⟩
  · intro a b p q t t' ha hb hp hq hca hcb hpt hqt
    have hta := (hcurrent a p ha hp hca).2.2 t hpt
    have htb := (hcurrent b q hb hq hcb).2.2 t' hqt
    exact Option.some.inj (hta.symm.trans htb)
  · intro bs h₂ a p ht' ha hp hover
    exact superseded_unchanged hs ht ht' hrow₀ hrow₁ ha hp hover

end

section

attribute [local instance] Sample.hashing

def sampleEnvelopeId : String := "digest-cb660e891b933b036ea6041ef2b7d363e89a016f"

def claimedRun : EnvelopeHistory :=
  (protocol Sample.bindings).next ⟨Sample.database, []⟩ (.claimDueEnvelope "w" Sample.recipient 10 20 "t")

def recoveredRun : EnvelopeHistory :=
  (protocol Sample.bindings).next claimedRun (.recoverExpiredEnvelopeClaims 15 15 true)

def claimed : {run : EnvelopeHistory // (run.row sampleEnvelopeId).map (fun r => r.claimToken) = some (some "t")} :=
  ⟨claimedRun, by decide +kernel⟩

theorem sample_rows : (claimedRun.row sampleEnvelopeId).map (fun r => r.claimToken) = some (some "t") ∧
      (recoveredRun.row sampleEnvelopeId).map (fun r => (r.state, r.revision, r.claimToken)) = some (.ready, 3, none) :=
  ⟨claimed.property, by decide +kernel⟩

/-- The worker whose claim was recovered at a restart can no longer begin to send. -/
theorem digest_envelope_at_most_once_recovered : ∃ row, claimedRun.row sampleEnvelopeId = some row ∧
      ∀ claim : DigestEnvelopeClaim, claim.envelope = row.envelope → claim.claimToken = "t" →
        ¬ (EnvelopeAction.beginEnvelopeSend claim 3 1 15).Changes Sample.bindings recoveredRun sampleEnvelopeId := by
  obtain ⟨row₀, hrow₀, h₀⟩ := Option.map_eq_some_iff.mp sample_rows.1
  obtain ⟨row₁, hrow₁, h₁⟩ := Option.map_eq_some_iff.mp sample_rows.2
  refine ⟨row₀, hrow₀, fun claim he ht => ?_⟩
  have hstart : (protocol Sample.bindings).Reachable ⟨Sample.database, []⟩ := .of_start rfl
  have hclaimed := hstart.next (.claimDueEnvelope "w" Sample.recipient 10 20 "t") (by rintro _ ⟨⟩; exact List.not_mem_nil)
  have hrecover : (protocol Sample.bindings).Trace claimedRun [.recoverExpiredEnvelopeClaims 15 15 true] recoveredRun :=
    .single (by rintro _ ⟨⟩)
  obtain ⟨row, hrow, -, -, -, -, -, -, hover⟩ := digest_envelope_at_most_once Sample.bindings hclaimed hrecover hrow₀
  obtain rfl := Option.some.inj (hrow₁.symm.trans hrow)
  have htoken₁ : row₁.claimToken = none := (Prod.mk.inj (Prod.mk.inj h₁).2).2
  refine hover [] recoveredRun _ ⟨claim.envelope.envelopeId, some claim.claimToken, 3⟩ (.nil _) (by rintro _ ⟨⟩) rfl
    (.inr ⟨"t", by rw [ht], h₀, ?_⟩)
  rw [htoken₁]
  exact (Option.some_ne_none _).symm

end

end GameLink.Digest

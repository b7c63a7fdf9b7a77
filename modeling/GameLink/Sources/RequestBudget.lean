import GameLink.Foundation.Runs
import GameLink.Foundation.SlidingWindow
import GameLink.Foundation.Table
import Mathlib.Data.Rat.Floor

namespace GameLink.Sources

open Foundation SlidingWindow

structure SourceDeclaration where
  sourceId : String
  host : String
  requestsPerMinute : ℕ+

structure Attempt where
  host : String
  attemptedAt : ℚ
  deriving DecidableEq

structure Cooldown where
  host : String
  untilAt : ℚ

structure HttpBudgetStatus where
  sourceId : String
  requestsPerHour : Option ℕ+
  used : ℕ
  remaining : Option ℕ
  nextAvailableAt : Option ℚ

inductive SourceHttpError where
  | requestRejected
  | rateLimited (retryAfterSeconds : ℤ) (nextAvailableAt : ℚ)

structure SourceRequestBudget where
  attempts : List Attempt
  cooldowns : Table Cooldown.host

namespace SourceRequestBudget

/-- `SELECT attempted_at … WHERE host = ? AND attempted_at > ? ORDER BY attempted_at`. -/
def times (s : SourceRequestBudget) (host : String) (now : ℚ) : List ℚ :=
  ((s.attempts.filter fun a => decide (a.host = host) && decide (now - 3600 < a.attemptedAt)).map
    Attempt.attemptedAt).insertionSort fun a b => a ≤ b

def due (s : SourceRequestBudget) (declaration : SourceDeclaration) (limit : Option ℕ+) (now : ℚ) : ℚ :=
  let times := s.times declaration.host now
  let due := (s.cooldowns.get declaration.host).elim now fun c => max now c.untilAt
  let due := (limit.bind fun l => freeAt 3600 l times).elim due (max due)
  (freeAt 60 declaration.requestsPerMinute (recent 60 now times)).elim due (max due)

def status (s : SourceRequestBudget) (declaration : SourceDeclaration) (limit : Option ℕ+) (now : ℚ) :
    HttpBudgetStatus where
  sourceId := declaration.sourceId
  requestsPerHour := limit
  used := (s.times declaration.host now).length
  remaining := limit.map fun l => l - (s.times declaration.host now).length
  nextAvailableAt := if now < s.due declaration limit now then some (s.due declaration limit now) else none

def prune (s : SourceRequestBudget) (now : ℚ) : SourceRequestBudget :=
  { s with attempts := s.attempts.filter fun a => !decide (a.attemptedAt ≤ now - 3600) }

def retryAfterSeconds (nextAvailableAt now : ℚ) : ℤ := min 86400 (max 1 ⌈nextAvailableAt - now⌉)

def reserve (s : SourceRequestBudget) (declaration : SourceDeclaration) (limit : Option ℕ+) (now : ℚ) :
    Except SourceHttpError Unit × SourceRequestBudget :=
  if now < 0 then (.error .requestRejected, s)
  else
    match ((s.prune now).status declaration limit now).nextAvailableAt with
    | some due => (.error (.rateLimited (retryAfterSeconds due now) due), s.prune now)
    | none => (.ok (), { s.prune now with attempts := (s.prune now).attempts ++ [⟨declaration.host, now⟩] })

def coolDownUntil (seconds now : ℚ) : ℚ := now + max 1 (min 86400 seconds)

def coolDown (s : SourceRequestBudget) (declaration : SourceDeclaration) (seconds now : ℚ) : SourceRequestBudget :=
  { s with cooldowns := s.cooldowns.replace ⟨declaration.host,
      (s.cooldowns.get declaration.host).elim (coolDownUntil seconds now) fun c => max c.untilAt (coolDownUntil seconds now)⟩ }

end SourceRequestBudget

structure World where
  clock : ℚ
  ledger : SourceRequestBudget
  granted : List Attempt
  cooled : List Cooldown

inductive Action where
  | tick (elapsed : ℚ)
  | reserve (declaration : SourceDeclaration) (limit : Option ℕ+)
  | coolDown (declaration : SourceDeclaration) (seconds : ℚ)

namespace World

def next (w : World) : Action → World
  | .tick elapsed => { w with clock := w.clock + elapsed }
  | .reserve declaration limit =>
    match w.ledger.reserve declaration limit w.clock with
    | (.ok _, s) => { w with ledger := s, granted := w.granted ++ [⟨declaration.host, w.clock⟩] }
    | (.error _, s) => { w with ledger := s }
  | .coolDown declaration seconds =>
    if w.clock < 0 then w
    else { w with
      ledger := w.ledger.coolDown declaration seconds w.clock
      cooled := w.cooled ++ [⟨declaration.host, SourceRequestBudget.coolDownUntil seconds w.clock⟩] }

def allowed (_ : World) : Action → Prop
  | .tick elapsed => 0 ≤ elapsed
  | _ => True

structure initial (w : World) : Prop where
  ledger : w.ledger = ⟨[], .empty⟩
  granted : w.granted = []
  cooled : w.cooled = []

def attemptsIn (w : World) (host : String) (span : ℚ) : List Attempt :=
  w.granted.filter fun a => decide (a.host = host ∧ w.clock - span < a.attemptedAt ∧ a.attemptedAt ≤ w.clock)

end World

def budget : System World Action where
  start := World.initial
  allowed := World.allowed
  next := World.next

namespace SourceRequestBudget

variable {s s' : SourceRequestBudget} {declaration : SourceDeclaration} {limit : Option ℕ+} {now t : ℚ}

theorem filter_prune (s : SourceRequestBudget) (now : ℚ) :
    (s.prune now).attempts = s.attempts.filter fun a => decide (now - 3600 < a.attemptedAt) := by
  apply List.filter_congr
  intro a _
  rw [← decide_not]
  exact decide_eq_decide.mpr not_le

end SourceRequestBudget

namespace World

structure Kept (w : World) : Prop where
  past : ∀ a ∈ w.granted, a.attemptedAt ≤ w.clock
  stored : (w.ledger.attempts.filter fun a => decide (w.clock - 3600 < a.attemptedAt)) =
    w.granted.filter fun a => decide (w.clock - 3600 < a.attemptedAt)
  cooled : ∀ c ∈ w.cooled, ∃ row, w.ledger.cooldowns.get c.host = some row ∧ c.untilAt ≤ row.untilAt

variable {w : World} {a : Action} {declaration : SourceDeclaration} {limit : Option ℕ+}

theorem Kept.prune (h : w.Kept) : Kept { w with ledger := w.ledger.prune w.clock } where
  past := h.past
  stored := by
    change (w.ledger.prune w.clock).attempts.filter _ = _
    rw [SourceRequestBudget.filter_prune, List.filter_filter]
    simp only [Bool.and_self]
    exact h.stored
  cooled := h.cooled

theorem Kept.grant (h : w.Kept) (attempt : Attempt) (hattempt : attempt.attemptedAt = w.clock) : Kept { w with
      ledger := { w.ledger with attempts := w.ledger.attempts ++ [attempt] }
      granted := w.granted ++ [attempt] } where
  past := by
    intro b hb
    cases List.mem_append.mp hb with
    | inl hold => exact h.past b hold
    | inr hnew =>
      rw [List.mem_singleton.mp hnew]
      exact le_of_eq hattempt
  stored := by
    change (w.ledger.attempts ++ [attempt]).filter _ = (w.granted ++ [attempt]).filter _
    rw [List.filter_append, List.filter_append]
    congr 1
    exact h.stored
  cooled := h.cooled

theorem Kept.coolDown (h : w.Kept) (seconds : ℚ) : Kept { w with
    ledger := w.ledger.coolDown declaration seconds w.clock
    cooled := w.cooled ++ [⟨declaration.host, SourceRequestBudget.coolDownUntil seconds w.clock⟩] } where
  past := h.past
  stored := h.stored
  cooled := by
    intro c hc
    change ∃ row, (w.ledger.cooldowns.replace _).get c.host = some row ∧ _
    rw [Table.get_replace]
    dsimp only
    by_cases hhost : declaration.host = c.host
    · rw [if_pos hhost]
      refine ⟨_, rfl, ?_⟩
      cases List.mem_append.mp hc with
      | inl hold =>
        obtain ⟨row, hrow, hle⟩ := h.cooled c hold
        rw [hhost, hrow]
        exact hle.trans (le_max_left _ _)
      | inr hnew =>
        rw [List.mem_singleton.mp hnew]
        cases w.ledger.cooldowns.get declaration.host with
        | none => exact le_rfl
        | some row => exact le_max_right _ _
    · rw [if_neg hhost]
      cases List.mem_append.mp hc with
      | inl hold => exact h.cooled c hold
      | inr hnew =>
        rw [List.mem_singleton.mp hnew] at hhost
        exact absurd rfl hhost

theorem Kept.attempts (h : w.Kept) {host : String} {span : ℚ} (hspan : span ≤ 3600) :
    (w.attemptsIn host span).length = (recent span w.clock (w.ledger.times host w.clock)).length := by
  have hrecent : ((w.ledger.times host w.clock).filter fun x => decide (w.clock - span < x)).length =
      (((w.ledger.attempts.filter fun b => decide (w.clock - 3600 < b.attemptedAt)).filter
        fun b => decide (b.host = host) && decide (w.clock - span < b.attemptedAt))).length := by
    rw [SourceRequestBudget.times,
      ((List.perm_insertionSort (fun x y : ℚ => x ≤ y) _).filter _).length_eq, List.filter_map, List.length_map,
      List.filter_filter, List.filter_filter]
    congr 1
    apply List.filter_congr
    intro b _
    simp only [Function.comp]
    cases decide (w.clock - span < b.attemptedAt) <;> cases decide (b.host = host) <;>
      cases decide (w.clock - 3600 < b.attemptedAt) <;> rfl
  rw [recent, hrecent, h.stored, List.filter_filter, attemptsIn]
  congr 1
  apply List.filter_congr
  intro b hb
  have hpast := h.past b hb
  rw [Bool.eq_iff_iff]
  simp only [Bool.and_eq_true, decide_eq_true_eq]
  constructor
  · exact fun hin => ⟨⟨hin.1, hin.2.1⟩, (sub_le_sub_left hspan w.clock).trans_lt hin.2.1⟩
  · exact fun hin => ⟨hin.1.1, hin.1.2, hpast⟩

end World

end GameLink.Sources

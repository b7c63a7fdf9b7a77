import GameLink.Jobs.Driver
import GameLink.Jobs.Safety

namespace GameLink.Jobs

open Foundation Work

variable {s s' : JobStore} {maxRunning : ℕ}

def Queued (s : JobStore) (r : DurableJob) : Prop := r ∈ s.jobs.rows ∧ r.status = .queued

variable {f : DurableJob → DurableJob} {p : DurableJob → Bool}

theorem Edited.queue (h : Edited p f s s')
    (hp : ∀ r ∈ s.jobs.rows, p r = true → r.status ≠ .queued ∧ (f r).status ≠ .queued) (r : DurableJob) :
    Queued s' r ↔ Queued s r := by
  constructor
  · rintro ⟨hr, hq⟩
    obtain ⟨r₀, hr₀, rfl⟩ := edited_rows h hr
    by_cases hpr : p r₀
    · rw [if_pos hpr] at hq
      exact absurd hq (hp r₀ hr₀ hpr).2
    · rw [if_neg hpr] at hq ⊢
      exact ⟨hr₀, hq⟩
  · rintro ⟨hr, hq⟩
    obtain ⟨hid, -, rfl⟩ := h
    refine ⟨List.mem_map.mpr ⟨r, hr, if_neg ?_⟩, hq⟩
    intro hpr
    exact (hp r hr hpr).1 hq

theorem Edited.dequeue (h : Edited p f s s')
    (hp : ∀ r, (f r).status ≠ .queued) (r : DurableJob) : Queued s' r ↔ Queued s r ∧ p r = false := by
  constructor
  · rintro ⟨hr, hq⟩
    obtain ⟨r₀, hr₀, rfl⟩ := edited_rows h hr
    by_cases hpr : p r₀
    · rw [if_pos hpr] at hq
      exact absurd hq (hp r₀)
    · rw [if_neg hpr] at hq ⊢
      exact ⟨⟨hr₀, hq⟩, by simpa using hpr⟩
  · rintro ⟨⟨hr, hq⟩, hpr⟩
    obtain ⟨hid, -, rfl⟩ := h
    exact ⟨List.mem_map.mpr ⟨r, hr, by simp [hpr]⟩, hq⟩

variable {r : DurableJob}

theorem Held.not_queued {jobId token : String} (h : Held jobId token s) (hr : r ∈ s.jobs.rows)
    (hid : r.jobId = jobId) : r.status = .running := by
  obtain ⟨row, hrow, hstatus, -⟩ := h
  have hsame : r = row := s.jobs.eq_of_key_eq hr (Table.mem_of_get hrow) (hid.trans (Table.key_of_get hrow).symm)
  rw [hsame]
  exact hstatus

theorem not_queued_of_running (h : r.status = .running) : r.status ≠ .queued := by
  rw [h]
  decide

theorem calls_queue {sha256 : String → String} {a : JobAction} (ha : ServiceAction.calls a)
    (ho : a.run sha256 s = (.ok (), s')) (r : DurableJob) :
    Queued s' r ↔ Queued s r ∧ ∀ now, a = .expire now → now < r.expiresAt := by
  obtain ⟨gs, hg, -⟩ := transaction_ok.mp ho
  cases a with
  | update jobId token progress checkpoint now check =>
    obtain ⟨hheld, newProgress, newCheckpoint, he⟩ := update_gives hg
    rw [he.queue]
    · simp
    intro r hr hp
    have hrun := hheld.not_queued hr (of_decide_eq_true (Bool.and_eq_true_iff.mp hp).1)
    exact ⟨not_queued_of_running hrun, not_queued_of_running hrun⟩
  | publish jobId token entries now check maxResultBytes =>
    obtain ⟨hheld, encoded, size, progress, results, -, -, he⟩ := publish_gives hg
    rw [he.queue]
    · simp [Queued]
    intro r hr hp
    have hrun := hheld.not_queued hr (of_decide_eq_true hp)
    exact ⟨not_queued_of_running hrun, not_queued_of_running hrun⟩
  | finish jobId token status summary error now check =>
    obtain ⟨newSummary, he⟩ := finish_gives hg
    rw [he.queue]
    · simp
    intro r hr hp
    have hrun : r.status = .running := of_decide_eq_true (Bool.and_eq_true_iff.mp (Bool.and_eq_true_iff.mp hp).1).2
    refine ⟨not_queued_of_running hrun, ?_⟩
    have hstatus : status ∈ [.succeeded, .failed, .interrupted] := ha
    simp only [List.mem_cons, List.not_mem_nil, or_false] at hstatus
    rcases hstatus with rfl | rfl | rfl <;> simp
  | expire now =>
    simp only [JobAction.body, expire, deleteJobs, gives_bind, gives_read, gives_write, gives_pure] at hg
    obtain ⟨n, _, ⟨_, _, ⟨rfl, rfl⟩, _, _, rfl, -, rfl⟩, -, rfl, -⟩ := hg
    simp only [Queued, Table.delete, List.mem_filter, JobAction.expire.injEq, forall_eq']
    constructor
    · rintro ⟨⟨hr, hp⟩, hq⟩
      refine ⟨⟨hr, hq⟩, ?_⟩
      simpa [hq] using hp
    rintro ⟨⟨hr, hq⟩, hlt⟩
    refine ⟨⟨hr, ?_⟩, hq⟩
    simpa [hq] using hlt
  | provision principal =>
    simp only [JobAction.body, gives_write, UnitOfWork.mk.injEq] at hg
    obtain ⟨rfl, -⟩ := hg
    simp [Queued]
  | _ => exact absurd ha id

variable {check : Check} {jobId token now : String}

theorem claim_dequeues {revision : ℕ} {row : Option DurableJob}
    (h : transaction (claim jobId revision token now check) s = (.ok row, s')) (r : DurableJob) :
    Queued s' r ↔ Queued s r ∧ claimable jobId revision now r = false := by
  obtain ⟨gs, hg, -⟩ := transaction_ok.mp h
  exact (claim_gives hg).1.dequeue (fun _ => by simp) r

variable {row : DurableJob}

theorem claim_row {revision : ℕ}
    (h : transaction (claim jobId revision token now check) s = (.ok (some row), s')) :
    row.jobId = jobId ∧ ∀ r, Queued s' r → r.jobId ≠ jobId := by
  have hqueue := claim_dequeues h
  obtain ⟨gs, hg, -⟩ := transaction_ok.mp h
  rcases (claim_gives hg).2 with ⟨hnone, -⟩ | ⟨hrow, hcount⟩
  · cases hnone
  refine ⟨Table.key_of_get hrow.symm, ?_⟩
  intro r hr hid
  obtain ⟨hold, hnot⟩ := (hqueue r).mp hr
  have hpos : 0 < s.jobs.rows.countP (claimable jobId revision now) := by
    rw [show s.jobs.rows.countP (claimable jobId revision now) = 1 from hcount]
    exact Nat.one_pos
  obtain ⟨r₀, hr₀, hc⟩ := List.countP_pos_iff.mp hpos
  have hsame : r = r₀ := s.jobs.eq_of_key_eq hold.1 hr₀ (hid.trans (jobId_of_claimable hc).symm)
  rw [hsame, hc] at hnot
  cases hnot

theorem reject_dequeues {jobId code now : String} {x : Unit}
    (h : transaction (rejectQueued jobId code now) s = (.ok x, s')) (r : DurableJob) :
    Queued s' r ↔ Queued s r ∧ r.jobId ≠ jobId := by
  obtain ⟨gs, hg, -⟩ := transaction_ok.mp h
  rw [(rejectQueued_gives hg).dequeue fun _ => by simp]
  apply and_congr_right
  rintro ⟨-, hq⟩
  simp [hq]

theorem finishFailed_queue {code now : String} {x : Unit}
    (h : transaction (finishFailed row code now) s = (.ok x, s')) (r : DurableJob) : Queued s' r ↔ Queued s r := by
  obtain ⟨gs, hg, -⟩ := transaction_ok.mp h
  unfold finishFailed at hg
  split at hg
  · obtain ⟨-, hs⟩ := gives_pure.mp hg
    cases hs
    rfl
  obtain ⟨newSummary, he⟩ := finish_gives hg
  apply he.queue
  intro r _ hp
  refine ⟨?_, by simp⟩
  apply not_queued_of_running
  exact of_decide_eq_true (Bool.and_eq_true_iff.mp (Bool.and_eq_true_iff.mp hp).1).2

theorem activeInputs_map {rows : List DurableJob}
    (hp : ∀ r ∈ rows, p r = true → (f r).active = r.active ∧ (f r).activeInput = r.activeInput) :
    activeInputs (rows.map fun r => if p r then f r else r) = activeInputs rows := by
  unfold activeInputs
  induction rows with
  | nil => rfl
  | cons r rows ih =>
    have hrows := ih fun r' hr' => hp r' (List.mem_cons_of_mem _ hr')
    have hkept : (if p r then f r else r).active = r.active ∧
        (if p r then f r else r).activeInput = r.activeInput := by
      split
      · rename_i hpr
        exact hp r List.mem_cons_self hpr
      · exact ⟨rfl, rfl⟩
    rw [List.map_cons, List.filter_cons, List.filter_cons, hkept.1]
    split
    · rw [List.map_cons, List.map_cons, hkept.2, hrows]
    · exact hrows

theorem claim_returns {c : DurableJob} {token now : String} (hs : s.Constrained) (hc : Queued s c)
    (hnow : now < c.expiresAt) (hcall : check.call = .ok ()) (hfence : check.fence = none) :
    ∃ row s', transaction (claim c.jobId c.revision token now check) s = (.ok (some row), s') := by
  have hclaimable : claimable c.jobId c.revision now c = true := by simp [claimable, hc.2, hnow]
  let f : DurableJob → DurableJob := fun r =>
    { r with status := .running, revision := r.revision + 1, runToken := some token, updatedAt := now }
  let jobs := s.jobs.update (claimable c.jobId c.revision now) f fun _ => rfl
  have hunique : (activeInputs jobs.rows).Nodup := by
    have hsame : activeInputs jobs.rows = activeInputs s.jobs.rows := by
      apply activeInputs_map
      intro r _ hr
      simp only [claimable, Bool.and_eq_true, decide_eq_true_eq] at hr
      exact ⟨by simp [f, DurableJob.active, JobStatus.active, hr.1.1.2], rfl⟩
    rw [hsame]
    exact hs.2
  have hchecks : jobs.rows.all DurableJob.checks = true := by
    rw [List.all_eq_true]
    intro r' hr'
    obtain ⟨r, hr, rfl⟩ := List.mem_map.mp hr'
    have hold := List.all_eq_true.mp hs.1 r hr
    split
    · simp only [DurableJob.checks, Bool.and_eq_true, decide_eq_true_eq] at hold ⊢
      exact ⟨⟨Nat.succ_pos _, hold.1.2⟩, hold.2⟩
    · exact hold
  have hcount := matching_claimable hc.1 hclaimable
  have hget : jobs.get c.jobId = some (f c) := by
    rw [Table.get_update, Table.get_eq_some.mpr ⟨hc.1, rfl⟩, Option.map_some, if_pos hclaimable]
  refine ⟨f c, { s with jobs := jobs }, ?_⟩
  apply transaction_ok.mpr
  refine ⟨[fun _ => check.fence], ?_, ?_⟩
  · simp only [claim, gives_bind, gives_ofExcept, updateJobs_gives, gives_ite, gives_pure, gives_read,
      gives_addCommitGuard]
    refine ⟨(), ⟨s, []⟩, ⟨hcall, rfl⟩, 1, ⟨{ s with jobs := jobs }, []⟩, ⟨hchecks, hunique, hcount.symm, rfl⟩, ?_⟩
    exact .inr ⟨by simp, (), _, rfl, _, _, ⟨rfl, rfl⟩, hget.symm, rfl⟩
  intro g hg
  rw [List.mem_singleton] at hg
  subst hg
  exact hfence

def ids (rows : List DurableJob) : Finset String := (rows.map DurableJob.jobId).toFinset

namespace Driver

def ahead : Driver → List DurableJob
  | examining rest => rest
  | claiming candidate rest => candidate :: rest
  | claimed _ rest => rest
  | rejecting candidate _ rest => candidate :: rest
  | failing _ _ rest => rest
  | _ => []

def taken : Driver → Finset String
  | claimed (some row) _ => {row.jobId}
  | _ => ∅

def inPage : Driver → Bool
  | waiting => false
  | expiring => false
  | reading => false
  | stopped => false
  | _ => true

def refused : Driver → Bool
  | rejecting .. => true
  | failing .. => true
  | _ => false

end Driver

structure Covered (maxRunning : ℕ) (s : JobStore) (engaged : Finset String) (ahead : List DurableJob)
    (beyond refused : Bool) : Prop where
  distinct : (ahead.map DurableJob.jobId).Nodup
  whole : beyond = false → ∀ r, Queued s r → r.jobId ∈ engaged ∨ r ∈ ahead
  full : beyond = true → refused = false ∧ (∀ c ∈ ahead, Queued s c) ∧ maxRunning ≤ (engaged ∪ ids ahead).card

namespace Covered

variable {engaged engaged' : Finset String} {c : DurableJob} {ahead : List DurableJob} {beyond refused : Bool}

theorem mono (h : Covered maxRunning s engaged ahead beyond refused) (he : engaged ⊆ engaged') :
    Covered maxRunning s engaged' ahead beyond refused := by
  refine ⟨h.distinct, ?_, ?_⟩
  · intro hb r hr
    exact (h.whole hb r hr).imp_left fun hr => he hr
  intro hb
  obtain ⟨href, hahead, hcard⟩ := h.full hb
  exact ⟨href, hahead, hcard.trans (Finset.card_le_card (Finset.union_subset_union_left he))⟩

theorem queue (h : Covered maxRunning s engaged ahead beyond refused) (hq : ∀ r, Queued s' r → Queued s r)
    (hkept : beyond = true → ∀ c ∈ ahead, Queued s c → Queued s' c) :
    Covered maxRunning s' engaged ahead beyond refused := by
  refine ⟨h.distinct, ?_, ?_⟩
  · intro hb r hr
    exact h.whole hb r (hq r hr)
  intro hb
  obtain ⟨href, hahead, hcard⟩ := h.full hb
  exact ⟨href, fun c hc => hkept hb c hc (hahead c hc), hcard⟩

theorem skip (h : Covered maxRunning s engaged (c :: ahead) beyond refused) (hc : c.jobId ∈ engaged) :
    Covered maxRunning s engaged ahead beyond refused := by
  refine ⟨(List.nodup_cons.mp h.distinct).2, ?_, ?_⟩
  · intro hb r hr
    rcases h.whole hb r hr with hr | hr
    · exact .inl hr
    rcases List.mem_cons.mp hr with rfl | hr
    · exact .inl hc
    · exact .inr hr
  · intro hb
    obtain ⟨href, hahead, hcard⟩ := h.full hb
    refine ⟨href, fun c' hc' => hahead c' (List.mem_cons_of_mem _ hc'), hcard.trans (Finset.card_le_card ?_)⟩
    intro id hid
    simp only [ids, List.map_cons, List.toFinset_cons, Finset.mem_union, Finset.mem_insert] at hid ⊢
    rcases hid with hid | rfl | hid
    · exact .inl hid
    · exact .inl hc
    · exact .inr hid

theorem drop {refused' : Bool} (h : Covered maxRunning s engaged (c :: ahead) false refused)
    (hq : ∀ r, Queued s' r → Queued s r ∧ r ≠ c) : Covered maxRunning s' engaged ahead false refused' := by
  refine ⟨(List.nodup_cons.mp h.distinct).2, ?_, fun hb => by cases hb⟩
  intro hb r hr
  obtain ⟨hr, hne⟩ := hq r hr
  exact (h.whole hb r hr).imp_right fun hr => (List.mem_cons.mp hr).resolve_left hne

theorem refuse {refused' : Bool} (h : Covered maxRunning s engaged ahead false refused) :
    Covered maxRunning s engaged ahead false refused' := ⟨h.distinct, h.whole, fun hb => by cases hb⟩

theorem take (h : Covered maxRunning s engaged (c :: ahead) beyond false)
    (hq : ∀ r, Queued s' r → Queued s r) (hkept : ∀ r, Queued s r → r.jobId ≠ c.jobId → Queued s' r) :
    Covered maxRunning s' (engaged ∪ {c.jobId}) ahead beyond false := by
  obtain ⟨hc, hahead⟩ := List.nodup_cons.mp h.distinct
  have hmore : Covered maxRunning s (engaged ∪ {c.jobId}) (c :: ahead) beyond false :=
    h.mono Finset.subset_union_left
  have hskip := hmore.skip (Finset.mem_union_right _ (Finset.mem_singleton_self _))
  apply hskip.queue hq
  intro _ c' hc' hr
  apply hkept c' hr
  intro hid
  exact hc (List.mem_map.mpr ⟨c', hc', hid⟩)

end Covered

theorem pairwise_jobId (s : JobStore) (limit : ℕ) : ((queued limit s).map DurableJob.jobId).Nodup := by
  have hfilter : ((s.jobs.rows.filter fun r => r.status = .queued).map DurableJob.jobId).Nodup :=
    s.jobs.unique.sublist (List.filter_sublist.map _)
  have hsorted : ((queueRows s).map DurableJob.jobId).Nodup :=
    (List.Perm.nodup_iff ((List.perm_insertionSort _ _).map _)).mpr hfilter
  exact hsorted.sublist ((List.take_sublist _ _).map _)

theorem mem_queueRows : r ∈ queueRows s ↔ Queued s r := by
  simp [queueRows, Queued]

theorem covered_page (s : JobStore) (engaged : Finset String) :
    Covered maxRunning s engaged (queued maxRunning s) (maxRunning < (queueRows s).length) false := by
  refine ⟨pairwise_jobId s maxRunning, ?_, ?_⟩
  · intro hb r hr
    have hle : (queueRows s).length ≤ maxRunning := by simpa using hb
    rw [queued, List.take_of_length_le hle]
    exact .inr (mem_queueRows.mpr hr)
  intro hb
  have hlt : maxRunning < (queueRows s).length := of_decide_eq_true hb
  refine ⟨rfl, fun c hc => mem_queueRows.mp (List.mem_of_mem_take hc), ?_⟩
  have hcard : (ids (queued maxRunning s)).card = maxRunning := by
    rw [ids, List.toFinset_card_of_nodup (pairwise_jobId s maxRunning), List.length_map, queued, List.length_take]
    omega
  calc maxRunning = (ids (queued maxRunning s)).card := hcard.symm
    _ ≤ _ := Finset.card_le_card Finset.subset_union_right

/-- While a page left queued rows out, none of its candidates is refused: the registry admits it, the check
lets the claim through, the task is created, and no expiry takes it. No candidate expires between its page
and its claim. No caller ends between its commit and the event. -/
def Fair (maxRunning : ℕ) (s : Service) : ServiceAction → Prop
  | .drive (.examine registry) => s.beyond = true → ∀ c rest, s.driver = .examining (c :: rest) →
      s.busy.card < maxRunning → c.jobId ∉ s.busy → admitCandidate registry c = .ok ()
  | .drive (.claim _ now check) => ∀ c rest, s.driver = .claiming c rest →
      now < c.expiresAt ∧ (s.beyond = true → check.call = .ok () ∧ check.fence = none)
  | .drive (.createTask refusal) => s.beyond = true → refusal = none
  | .call (.expire now) => s.beyond = true → ∀ c ∈ s.driver.ahead, now < c.expiresAt
  | .abandon => False
  | _ => True

structure Caught (maxRunning : ℕ) (s : Service) : Prop where
  served : s.driver = .waiting → s.Served maxRunning
  covered : s.driver.inPage = true →
    Covered maxRunning s.store (s.busy ∪ s.driver.taken) s.driver.ahead s.beyond s.driver.refused
  taken : ∀ r, Queued s.store r → r.jobId ∉ s.driver.taken

namespace Caught

variable {sv : Service}

theorem of_outside (hw : sv.driver ≠ .waiting) (hp : sv.driver.inPage = false) (ht : sv.driver.taken = ∅) :
    Caught maxRunning sv := by
  constructor
  · intro h; exact absurd h hw
  · intro h; rw [hp] at h; cases h
  · intro r _; rw [ht]; exact Finset.notMem_empty _

theorem of_inPage (hw : sv.driver.inPage = true)
    (hc : Covered maxRunning sv.store (sv.busy ∪ sv.driver.taken) sv.driver.ahead sv.beyond sv.driver.refused)
    (ht : ∀ r, Queued sv.store r → r.jobId ∉ sv.driver.taken) : Caught maxRunning sv := by
  refine ⟨?_, fun _ => hc, ht⟩
  intro h
  rw [h] at hw
  cases hw

theorem of_served (hw : sv.driver = .waiting) (h : sv.Served maxRunning) : Caught maxRunning sv := by
  refine ⟨fun _ => h, ?_, ?_⟩
  · intro hp
    rw [hw] at hp
    cases hp
  intro r _
  rw [hw]
  exact Finset.notMem_empty _

theorem served_of_covered {refused : Bool} (h : Covered maxRunning sv.store (sv.busy ∪ ∅) [] sv.beyond refused) :
    sv.Served maxRunning := by
  cases hb : sv.beyond with
  | true =>
    obtain ⟨-, -, hcard⟩ := h.full hb
    apply Or.inl
    simpa [ids] using hcard
  | false =>
    apply Or.inr
    intro r hr hq
    simpa using h.whole hb r ⟨hr, hq⟩

theorem stopped (sv : Service) : Caught maxRunning { sv with driver := .stopped } :=
  of_outside (by simp) rfl rfl

variable {rest : List DurableJob}

theorem afterTransaction {α : Type} {result : Except JobFailure α × JobStore}
    (h : ∀ x s', result = (.ok x, s') → Covered maxRunning s' (sv.busy ∪ ∅) rest sv.beyond false) :
    Caught maxRunning (sv.afterTransaction result (.examining rest)) := by
  unfold Service.afterTransaction
  split
  · rename_i x s'
    exact of_inPage rfl (h x s' rfl) fun _ _ => Finset.notMem_empty _
  · exact of_outside (by simp) rfl rfl

theorem examine {registry : Registry} (hd : sv.driver = .examining rest)
    (hf : Fair maxRunning sv (.drive (.examine registry))) (h : Caught maxRunning sv) :
    Caught maxRunning (sv.drive maxRunning (.examining rest) (.examine registry)) := by
  have hcov := h.covered (by rw [hd]; rfl)
  rw [hd] at hcov
  cases rest with
  | nil => exact of_served rfl (served_of_covered hcov)
  | cons c rest =>
    rw [Service.drive_examine]
    split
    · rename_i hfull
      exact of_served rfl (.inl hfull)
    rename_i hfree
    split
    · rename_i hbusy
      exact of_inPage rfl (hcov.skip (Finset.mem_union_left _ hbusy)) fun _ _ => Finset.notMem_empty _
    rename_i hidle
    split
    · rename_i code hcode
      have hwhole : sv.beyond = false := by
        by_contra hb
        rw [hf (by simpa using hb) c rest hd (by omega) hidle] at hcode
        cases hcode
      refine of_inPage rfl ?_ fun _ _ => Finset.notMem_empty _
      dsimp only
      rw [hwhole] at hcov ⊢
      exact hcov.refuse
    · exact of_inPage rfl hcov fun _ _ => Finset.notMem_empty _

theorem claim {c : DurableJob} {token now : String} {check : Check}
    (hd : sv.driver = .claiming c rest) (hs : sv.store.Constrained)
    (hf : Fair maxRunning sv (.drive (.claim token now check))) (h : Caught maxRunning sv) :
    Caught maxRunning (sv.drive maxRunning (.claiming c rest) (.claim token now check)) := by
  have hcov := h.covered (by rw [hd]; rfl)
  rw [hd] at hcov
  obtain ⟨hnow, hcheck⟩ := hf c rest hd
  have hreturns : sv.beyond = true →
      ∃ row s', transaction (Jobs.claim c.jobId c.revision token now check) sv.store = (.ok (some row), s') := by
    intro hb
    obtain ⟨hcall, hfence⟩ := hcheck hb
    exact claim_returns hs ((hcov.full hb).2.1 c List.mem_cons_self) hnow hcall hfence
  simp only [Service.drive]
  split
  · rename_i row s' ho
    have hqueue := claim_dequeues ho
    cases row with
    | some row =>
      obtain ⟨hid, hgone⟩ := claim_row ho
      refine of_inPage rfl ?_ ?_
      · have htake := hcov.take (fun r hr => ((hqueue r).mp hr).1) fun r hr hne => (hqueue r).mpr ⟨hr, by
          by_contra hc
          exact hne (jobId_of_claimable (by simpa using hc))⟩
        apply htake.mono
        intro id hmem
        simpa [Driver.taken, hid, Service.busy] using hmem
      · intro r hr
        simp only [Driver.taken, Finset.mem_singleton, hid]
        exact hgone r hr
    | none =>
      have hwhole : sv.beyond = false := by
        by_contra hb
        obtain ⟨row, s'', hclaim⟩ := hreturns (by simpa using hb)
        rw [ho] at hclaim
        cases hclaim
      refine of_inPage rfl ?_ fun _ _ => Finset.notMem_empty _
      dsimp only
      rw [hwhole] at hcov ⊢
      apply hcov.drop
      intro r hr
      obtain ⟨hold, hnot⟩ := (hqueue r).mp hr
      refine ⟨hold, ?_⟩
      rintro rfl
      simp [claimable, hold.2, hnow] at hnot
  · rename_i e s' ho
    have hsame := transaction_error ho
    subst hsame
    have hwhole : sv.beyond = false := by
      by_contra hb
      obtain ⟨row, s'', hclaim⟩ := hreturns (by simpa using hb)
      rw [ho] at hclaim
      cases hclaim
    refine of_inPage rfl ?_ fun _ _ => Finset.notMem_empty _
    dsimp only
    rw [hwhole] at hcov ⊢
    exact hcov.refuse

theorem createTask {row : Option DurableJob} {refusal : Option String}
    (hd : sv.driver = .claimed row rest) (hf : Fair maxRunning sv (.drive (.createTask refusal)))
    (h : Caught maxRunning sv) :
    Caught maxRunning (sv.drive maxRunning (.claimed row rest) (.createTask refusal)) := by
  have hcov := h.covered (by rw [hd]; rfl)
  have htaken := h.taken
  rw [hd] at hcov htaken
  cases row with
  | none => exact of_inPage rfl hcov fun _ _ => Finset.notMem_empty _
  | some row =>
    cases refusal with
    | none =>
      refine of_inPage rfl ?_ fun _ _ => Finset.notMem_empty _
      apply hcov.mono
      intro id hid
      simp only [Service.busy, Driver.taken, Service.drive, Finset.mem_union, Finset.mem_singleton, List.map_cons,
        List.toFinset_cons, Finset.mem_insert] at hid ⊢
      tauto
    | some code =>
      have hwhole : sv.beyond = false := by
        by_contra hb
        cases hf (by simpa using hb)
      refine of_inPage rfl ?_ fun _ _ => Finset.notMem_empty _
      dsimp only [Service.drive]
      rw [hwhole] at hcov ⊢
      refine ⟨hcov.distinct, ?_, fun hb => by cases hb⟩
      intro hb r hr
      refine (hcov.whole hb r hr).imp_left ?_
      intro hid
      rcases Finset.mem_union.mp hid with hid | hid
      · exact Finset.mem_union_left _ hid
      · exact absurd hid (htaken r hr)

theorem drive {a : DriverAction} (hs : sv.store.Constrained) (hf : Fair maxRunning sv (.drive a))
    (hw : sv.wake = false) (h : Caught maxRunning sv) : Caught maxRunning (sv.drive maxRunning sv.driver a) := by
  cases hd : sv.driver with
  | waiting =>
    cases a with
    | resume =>
      rw [Service.drive_resume hw]
      exact h
    | _ => exact h
  | expiring =>
    cases a with
    | expire now =>
      simp only [Service.drive, Service.afterTransaction]
      split
      · exact of_outside (by simp) rfl rfl
      · exact of_outside (by simp) rfl rfl
    | raise => exact stopped sv
    | _ => exact h
  | reading =>
    cases a with
    | read => exact of_inPage rfl (covered_page sv.store _) fun _ _ => Finset.notMem_empty _
    | raise => exact stopped sv
    | _ => exact h
  | examining rest =>
    cases a with
    | examine registry => exact h.examine hd hf
    | raise => cases rest <;> exact stopped sv
    | _ => cases rest <;> exact h
  | claiming c rest =>
    cases a with
    | claim token now check => exact h.claim hd hs hf
    | raise => exact stopped sv
    | _ => exact h
  | claimed row rest =>
    cases a with
    | createTask refusal => exact h.createTask hd hf
    | raise => cases row <;> exact stopped sv
    | _ => cases row <;> exact h
  | rejecting c code rest =>
    cases a with
    | reject now =>
      have hcov := h.covered (by rw [hd]; rfl)
      rw [hd] at hcov
      apply afterTransaction
      intro x s' ho
      have hwhole : sv.beyond = false := by
        by_contra hb
        cases (hcov.full (by simpa using hb)).1
      rw [hwhole] at hcov ⊢
      apply hcov.drop
      intro r hr
      obtain ⟨hold, hne⟩ := (reject_dequeues ho r).mp hr
      exact ⟨hold, fun he => hne (congrArg DurableJob.jobId he)⟩
    | raise => exact stopped sv
    | _ => exact h
  | failing row code rest =>
    cases a with
    | fail now =>
      have hcov := h.covered (by rw [hd]; rfl)
      rw [hd] at hcov
      apply afterTransaction
      intro x s' ho
      have hwhole : sv.beyond = false := by
        by_contra hb
        cases (hcov.full (by simpa using hb)).1
      rw [hwhole] at hcov ⊢
      have hqueue := finishFailed_queue ho
      exact (hcov.queue (fun r hr => (hqueue r).mp hr) fun hb => by cases hb).refuse
    | raise => exact stopped sv
    | _ => exact h
  | stopped =>
    cases a with
    | raise => exact stopped sv
    | _ => exact h

end Caught

namespace Service

variable {sv : Service} {sha256 : String → String}

theorem afterTransaction_frame {α : Type} (result : Except JobFailure α × JobStore) (d : Driver) :
    (sv.afterTransaction result d).unnotified = sv.unnotified ∧ (sv.afterTransaction result d).wake = sv.wake := by
  unfold afterTransaction
  split <;> exact ⟨rfl, rfl⟩

theorem drive_frame (d : Driver) (a : DriverAction) :
    (sv.drive maxRunning d a).unnotified = sv.unnotified ∧
      ((sv.drive maxRunning d a).wake = sv.wake ∨ (sv.drive maxRunning d a).driver = .expiring) := by
  unfold drive
  split
  case h_1 => split <;> simp
  case h_2 => exact ⟨(afterTransaction_frame _ _).1, .inl (afterTransaction_frame _ _).2⟩
  case h_5 =>
    split
    · exact ⟨rfl, .inl rfl⟩
    split
    · exact ⟨rfl, .inl rfl⟩
    · split <;> exact ⟨rfl, .inl rfl⟩
  case h_6 => split <;> exact ⟨rfl, .inl rfl⟩
  case h_10 => exact ⟨(afterTransaction_frame _ _).1, .inl (afterTransaction_frame _ _).2⟩
  case h_11 => exact ⟨(afterTransaction_frame _ _).1, .inl (afterTransaction_frame _ _).2⟩
  all_goals exact ⟨rfl, .inl rfl⟩

theorem afterTransaction_constrained {α : Type} {w : JobWork α} (hw : Keeps JobStore.Constrained w) (d : Driver)
    (hs : sv.store.Constrained) : (sv.afterTransaction (transaction w sv.store) d).store.Constrained := by
  have hkept := constrained_transaction hw hs
  unfold afterTransaction
  split
  · rename_i ho
    rw [ho] at hkept
    exact hkept
  rename_i ho
  rw [ho] at hkept
  exact hkept

theorem finishFailed_keeps {row : DurableJob} {code now : String} :
    Keeps JobStore.Constrained (finishFailed row code now) := by
  unfold finishFailed
  split
  · exact .pure
  · exact finish_keeps

theorem drive_constrained (hs : sv.store.Constrained) (d : Driver) (a : DriverAction) :
    (sv.drive maxRunning d a).store.Constrained := by
  unfold drive
  split
  case h_1 => split <;> exact hs
  case h_2 => exact afterTransaction_constrained deleteJobs_keeps _ hs
  case h_5 =>
    split
    · exact hs
    split
    · exact hs
    · split <;> exact hs
  case h_6 c rest token now check =>
    have hclaim : Keeps JobStore.Constrained (claim c.jobId c.revision token now check) := claim_keeps
    have hkept := constrained_transaction hclaim hs
    split
    · rename_i ho
      rw [ho] at hkept
      exact hkept
    rename_i ho
    rw [ho] at hkept
    exact hkept
  case h_10 => exact afterTransaction_constrained (.bind updateJobs_keeps fun _ => .pure) _ hs
  case h_11 => exact afterTransaction_constrained finishFailed_keeps _ hs
  all_goals exact hs

def Awake (maxRunning : ℕ) (sv : Service) : Prop :=
  0 < sv.unnotified ∨ sv.wake = true ∨ Caught maxRunning sv

theorem awake_drive {a : DriverAction} (hs : sv.store.Constrained) (hf : Fair maxRunning sv (.drive a))
    (h : sv.Awake maxRunning) : (sv.drive maxRunning sv.driver a).Awake maxRunning := by
  obtain ⟨hcount, hwake⟩ : (sv.drive maxRunning sv.driver a).unnotified = sv.unnotified ∧ _ := drive_frame sv.driver a
  by_cases hw : sv.wake = true
  · rcases hwake with hkept | hexpiring
    · exact .inr (.inl (hkept.trans hw))
    apply Or.inr
    apply Or.inr
    apply Caught.of_outside
    · rw [hexpiring]
      simp
    · rw [hexpiring]
      rfl
    · rw [hexpiring]
      rfl
  · rcases h with hpos | hset | hcaught
    · exact .inl (by omega)
    · exact absurd hset hw
    · exact .inr (.inr (hcaught.drive hs hf (by simpa using hw)))

theorem busy_enter {jobId : String} (h : (jobId, false) ∈ sv.tasks) :
    (sv.next sha256 maxRunning (.enter jobId)).busy = sv.busy := by
  have hkeys : (sv.tasks.map fun t => if t.1 = jobId then (jobId, true) else t).map Prod.fst =
      sv.tasks.map Prod.fst := by
    rw [List.map_map]
    apply List.map_congr_left
    intro t _
    dsimp only [Function.comp]
    split
    · rename_i ht
      exact ht.symm
    · rfl
  have hmem : jobId ∈ (sv.tasks.map Prod.fst).toFinset :=
    List.mem_toFinset.mpr (List.mem_map.mpr ⟨(jobId, false), h, rfl⟩)
  simp only [busy, next, hkeys, Finset.union_insert, Finset.insert_union]
  exact Finset.insert_eq_of_mem (Finset.mem_union_left _ (Finset.mem_union_left _ hmem))

theorem caught_enter {jobId : String} (ha : (jobId, false) ∈ sv.tasks) (h : Caught maxRunning sv) :
    Caught maxRunning (sv.next sha256 maxRunning (.enter jobId)) := by
  have hbusy : (sv.next sha256 maxRunning (.enter jobId)).busy = sv.busy := busy_enter ha
  constructor
  · intro hd
    unfold Served
    rw [hbusy]
    exact h.served hd
  · intro hp
    rw [hbusy]
    exact h.covered hp
  · exact h.taken

theorem caught_call {a : JobAction} (ha : ServiceAction.calls a) (hf : Fair maxRunning sv (.call a))
    (h : Caught maxRunning sv) : Caught maxRunning (sv.next sha256 maxRunning (.call a)) := by
  rcases transaction_cases (a.body sha256) sv.store with ⟨x, s', ho⟩ | ⟨e, he⟩
  · have hqueue := calls_queue ha ho
    have hnext : sv.next sha256 maxRunning (.call a) = { sv with store := s' } := by
      simp only [next]
      rw [show a.run sha256 sv.store = (.ok x, s') from ho]
    rw [hnext]
    constructor
    · intro hd
      refine (h.served hd).imp_right ?_
      intro hbusy r hr hq
      obtain ⟨hr, hq⟩ := ((hqueue r).mp ⟨hr, hq⟩).1
      exact hbusy r hr hq
    · intro hp
      apply (h.covered hp).queue fun r hr => ((hqueue r).mp hr).1
      intro hb c hc hr
      refine (hqueue c).mpr ⟨hr, ?_⟩
      rintro now rfl
      exact hf hb c hc
    · intro r hr
      exact h.taken r ((hqueue r).mp hr).1
  · have hnext : sv.next sha256 maxRunning (.call a) = sv := by
      simp only [next]
      rw [show a.run sha256 sv.store = (.error e, sv.store) from he]
    rw [hnext]
    exact h

variable {a : ServiceAction}

theorem awake_next (hs : sv.store.Constrained) (ha : a.allowed sv) (hf : Fair maxRunning sv a)
    (h : sv.Awake maxRunning) : (sv.next sha256 maxRunning a).Awake maxRunning := by
  cases a with
  | drive a => exact awake_drive hs hf h
  | enter jobId => exact h.imp id (Or.imp id (caught_enter ha))
  | leave jobId => exact .inr (.inl rfl)
  | done jobId entered => exact .inr (.inl rfl)
  | settled jobId => exact .inr (.inl rfl)
  | call a => exact h.imp id (Or.imp id (caught_call ha hf))
  | commit a =>
    simp only [next]
    split
    · exact .inl (Nat.succ_pos _)
    rename_i e s' ho
    have hsame := transaction_error ho
    subst hsame
    exact h
  | notify => exact .inr (.inl rfl)
  | abandon => exact absurd hf id
  | notifyChanged => exact .inr (.inl rfl)

theorem constrained_next (hs : sv.store.Constrained) :
    (sv.next sha256 maxRunning a).store.Constrained := by
  cases a with
  | drive a => exact drive_constrained hs _ _
  | call a => exact constrained_transaction (body_keeps a) hs
  | commit a =>
    have hbody : Keeps JobStore.Constrained (a.body sha256) := body_keeps a
    have hkept := constrained_transaction hbody hs
    simp only [next, JobAction.run]
    split
    · rename_i ho
      rw [ho] at hkept
      exact hkept
    rename_i ho
    rw [ho] at hkept
    exact hkept
  | _ => exact hs

end Service

def fairSystem (sha256 : String → String) (maxRunning : ℕ) : System Service ServiceAction where
  start := (serviceSystem sha256 maxRunning).start
  allowed s a := (serviceSystem sha256 maxRunning).allowed s a ∧ Fair maxRunning s a
  next := (serviceSystem sha256 maxRunning).next

/-- In a run of fair steps the driver sleeps on no runnable job, wherever no caller stands between its
commit and the event. -/
theorem driver_sleeps_served {sha256 : String → String} {sv : Service} (hr : (fairSystem sha256 maxRunning).Reachable sv)
    (hasleep : sv.Asleep) (hcallers : sv.unnotified = 0) : sv.Served maxRunning := by
  have hinv : sv.store.Constrained ∧ sv.Awake maxRunning := by
    apply hr.invariant (P := fun sv => sv.store.Constrained ∧ sv.Awake maxRunning)
    · rintro sv ⟨hs, -, -, -, -, hwake, -⟩
      exact ⟨hs, .inr (.inl hwake)⟩
    · rintro sv a ⟨hs, hawake⟩ ⟨ha, hf⟩
      exact ⟨Service.constrained_next hs, Service.awake_next hs ha hf hawake⟩
  obtain ⟨hwaiting, hcleared⟩ := hasleep
  rcases hinv.2 with hpos | hset | hcaught
  · omega
  · rw [hcleared] at hset
    cases hset
  · exact hcaught.served hwaiting

namespace Sample

def job (jobId module digest input : String) : DurableJob where
  jobId := jobId
  moduleId := module
  ownerId := "p"
  handlerId := "h"
  declarationDigest := digest
  parameters := .obj []
  inputDigest := input
  status := .queued
  revision := 1
  progress := .obj []
  checkpoint := .obj []
  summary := .obj []
  errorCode := none
  runToken := none
  createdAt := "2024-01-01T00:00:00+00:00"
  updatedAt := "2024-01-01T00:00:00+00:00"
  expiresAt := "2024-01-08T00:00:00+00:00"
  resultBytes := 0
  attempt := 1

def restarted : Service where
  store := ⟨["p"], ⟨[job "a" "m" "d" "x", job "b" "m" "d" "y", job "c" "n" "d" "z"], by decide +kernel⟩, .empty, .empty⟩
  tasks := []
  runs := ∅
  settling := ∅
  wake := true
  driver := .waiting
  unnotified := 0
  beyond := false

theorem restarted_start : (serviceSystem oneDigest 2).start restarted :=
  ⟨⟨by decide, by decide⟩, by decide, rfl, rfl, rfl, rfl, rfl, rfl⟩

def changed : Registry := fun module _ => if module = "m" then .ok "e" else .ok "d"

def refusedPage : List ServiceAction :=
  [.drive .resume, .drive (.expire "2024-01-02T00:00:00+00:00"), .drive .read,
    .drive (.examine changed), .drive (.reject "2024-01-02T00:00:01+00:00"),
    .drive (.examine changed), .drive (.reject "2024-01-02T00:00:02+00:00"), .drive (.examine changed)]

def started (registry : Registry) : List ServiceAction :=
  [.drive .resume, .drive (.expire "2024-01-02T00:00:00+00:00"), .drive .read,
    .drive (.examine registry), .drive (.claim "t" "2024-01-02T00:00:01+00:00" openCheck), .drive (.createTask none),
    .drive (.examine registry), .drive (.claim "u" "2024-01-02T00:00:02+00:00" openCheck), .drive (.createTask none),
    .drive (.examine registry)]

def current : Registry := fun _ _ => .ok "d"

end Sample

theorem driver_sleeps_on_runnable_job :
    ¬ ∀ sha256 maxRunning sv, (serviceSystem sha256 maxRunning).Reachable sv → sv.Asleep → sv.Served maxRunning := by
  intro h
  have htrace : (serviceSystem oneDigest 2).Trace Sample.restarted Sample.refusedPage
      (Sample.refusedPage.foldl (Service.next oneDigest 2) Sample.restarted) := by
    unfold Sample.refusedPage
    exact .cons trivial (.cons trivial (.cons trivial (.cons trivial (.cons trivial (.cons trivial (.cons trivial
      (.cons trivial (.nil _))))))))
  have hserved := h oneDigest 2 _ ⟨_, _, Sample.restarted_start, htrace⟩ ⟨rfl, rfl⟩
  revert hserved
  unfold Service.Served
  decide +kernel

theorem driver_sleeps_served_two_started :
    let sv := (Sample.started Sample.current).foldl (Service.next oneDigest 2) Sample.restarted
    sv.Asleep ∧ sv.busy = {"a", "b"} ∧ sv.Served 2 := by
  intro sv
  have hasleep : sv.Asleep := ⟨rfl, rfl⟩
  have htrace : (fairSystem oneDigest 2).Trace Sample.restarted (Sample.started Sample.current) sv := by
    unfold Sample.started
    refine .cons ⟨trivial, trivial⟩ (.cons ⟨trivial, trivial⟩ (.cons ⟨trivial, trivial⟩ ?_))
    refine .cons ⟨trivial, ?_⟩ (.cons ⟨trivial, ?_⟩ (.cons ⟨trivial, fun _ => rfl⟩ ?_))
    · intro _ c rest hd _ _
      cases hd
      rfl
    · intro c rest hd
      cases hd
      exact ⟨by decide, fun _ => ⟨rfl, rfl⟩⟩
    refine .cons ⟨trivial, ?_⟩ (.cons ⟨trivial, ?_⟩ (.cons ⟨trivial, fun _ => rfl⟩ ?_))
    · intro _ c rest hd _ _
      cases hd
      rfl
    · intro c rest hd
      cases hd
      exact ⟨by decide, fun _ => ⟨rfl, rfl⟩⟩
    refine .cons ⟨trivial, ?_⟩ (.nil _)
    intro _ c rest hd _ _
    cases hd
  refine ⟨hasleep, by decide +kernel, ?_⟩
  exact driver_sleeps_served ⟨_, _, Sample.restarted_start, htrace⟩ hasleep rfl

end GameLink.Jobs

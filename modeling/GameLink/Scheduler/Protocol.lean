import GameLink.Scheduler.Effects
import GameLink.Foundation.Runs

namespace GameLink.Scheduler

open Foundation Work Contracts Store

section

variable [Hashing]

/-- One call on the scheduler's store, or whatever else happens beside its jobs. A subscription's lifecycle
reaches the jobs through `putJob` and `unscheduleJob` only. -/
inductive LeaseAction where
  | claimDue (request : CollectionRunRequest) (now : Instant) (token : String)
  | commit (lease : ExecutionLease) (content : ObservationEvaluationCommit) (nextDueAt : Option Instant)
      (guard : CommitGuard) (committedAt authorizedAt : Instant)
  | defer (lease : ExecutionLease) (nextDueAt now : Instant)
  | release (lease : ExecutionLease)
  | reconcileBackgroundJobs (jobs : List BackgroundJob) (now : Instant)
  | putJob (key : CollectionKey) (initialRun : Option CollectionRunRequest)
  | unscheduleJob (job principalId : String) (grant : GrantReference)
  | elsewhere (s : Database)

namespace LeaseAction

def run (bindings : GateBindings) (s : Database) : LeaseAction → Database
  | claimDue request now token => (transaction (Scheduler.claimDue bindings request now token) s).2
  | commit lease content nextDueAt guard committedAt authorizedAt =>
    (commitObservationWithEvaluations bindings lease content nextDueAt guard committedAt authorizedAt s).2
  | defer lease nextDueAt now => (transaction (Scheduler.defer bindings lease nextDueAt now) s).2
  | release lease => (transaction (Scheduler.release lease) s).2
  | reconcileBackgroundJobs jobs now => (transaction (Scheduler.reconcileBackgroundJobs jobs now) s).2
  | putJob key initialRun => (transaction (Scheduler.putJob key initialRun) s).2
  | unscheduleJob job principalId grant => (transaction (Scheduler.unscheduleJob job principalId grant) s).2
  | elsewhere s' => { s' with collectionJobs := s.collectionJobs }

def issues (bindings : GateBindings) (s : Database) : LeaseAction → Option ExecutionLease
  | claimDue request now token =>
    match (transaction (Scheduler.claimDue bindings request now token) s).1 with
    | .ok lease => lease
    | .error _ => none
  | _ => none

def draws : LeaseAction → Option String
  | claimDue _ _ token => some token
  | _ => none

end LeaseAction

structure LeaseHistory where
  store : Database
  issued : List ExecutionLease

def scheduler (bindings : GateBindings) : System LeaseHistory LeaseAction where
  start h := h.issued = [] ∧ ∀ row ∈ h.store.collectionJobs.rows, row.leaseToken = none
  allowed h a := ∀ t ∈ a.draws, ∀ l ∈ h.issued, l.token ≠ t
  next h a := ⟨a.run bindings h.store, (a.issues bindings h.store).toList ++ h.issued⟩

structure Holds (row : CollectionJobRow) (l : ExecutionLease) : Prop where
  token : row.leaseToken = some l.token
  key : keyJson row.key = keyJson l.key
  configRevision : row.configRevision = some l.configRevision
  moduleEpoch : row.moduleEpoch = some l.moduleEpoch
  registryRevision : row.registryRevision = some l.registryRevision
  expiresAt : row.leaseExpiresAt = some l.expiresAt

inductive RowMove (issued : Option ExecutionLease) (old : Option CollectionJobRow) (row : CollectionJobRow) : Prop
  | free (h : row.leaseToken = none)
  | kept (h : old = some row)
  | claimed (l : ExecutionLease) (hl : issued = some l) (hh : Holds row l)

def Moves (issued : Option ExecutionLease) (s s' : Database) : Prop :=
  ∀ key row, s'.collectionJobs.get key = some row → RowMove issued (s.collectionJobs.get key) row

variable {bindings : GateBindings} {issued : Option ExecutionLease} {s s' s'' : Database}
  {u u' : UnitOfWork Database Failure}

theorem Moves.same (h : s'.collectionJobs = s.collectionJobs) : Moves issued s s' := by
  intro key row hrow
  rw [h] at hrow
  exact .kept hrow

theorem Moves.trans (h : Moves none s s') (h' : Moves issued s' s'') : Moves issued s s'' := by
  intro key row hrow
  cases h' key row hrow with
  | free hf => exact .free hf
  | kept hk =>
    cases h key row hk with
    | free hf => exact .free hf
    | kept hk => exact .kept hk
    | claimed l hl => cases hl
  | claimed l hl hh => exact .claimed l hl hh

theorem updateCollectionJobs_moves {p : CollectionJobRow → Bool} {f : CollectionJobRow → CollectionJobRow}
    {hf : ∀ r, (f r).jobKey = r.jobKey} {n : ℕ} (h : (updateCollectionJobs p f hf).Gives u n u')
    (hmove : ∀ r, u.store.collectionJobs.get r.jobKey = some r → p r = true → RowMove issued (some r) (f r)) :
    Moves issued u.store u'.store := by
  rw [updateCollectionJobs_gives h]
  intro key row hrow
  dsimp only at hrow
  rw [Table.get_update] at hrow
  obtain ⟨r, hr, rfl⟩ := Option.map_eq_some_iff.mp hrow
  rw [hr]
  split
  · rename_i hp
    exact hmove r (by rw [Table.key_of_get hr]; exact hr) hp
  · exact .kept rfl

variable {x : Unit} {lease : ExecutionLease}

theorem endLease_moves {dueAt : Option Instant → Option Instant}
    (h : (endLease lease dueAt).Gives u x u') : Moves none u.store u'.store := by
  simp only [endLease, gives_bind, gives_pure] at h
  obtain ⟨_, _, h, -, rfl⟩ := h
  exact updateCollectionJobs_moves h fun r _ _ => .free rfl

variable {run : Option CollectionRunRequest} {key : CollectionKey}

theorem insertJob_moves (h : (insertJob (newJob key run)).Gives u x u') : Moves none u.store u'.store := by
  rw [gives_write.mp h]
  intro k row hrow
  dsimp only at hrow
  cases hi : u.store.collectionJobs.insert (newJob key run) with
  | none =>
    rw [hi] at hrow
    exact .kept hrow
  | some t =>
    rw [hi, Option.getD_some, Table.get_insert hi] at hrow
    split at hrow
    · rw [← Option.some.inj hrow]
      exact .free rfl
    · exact .kept hrow

theorem armInitial_moves {row : CollectionJobRow}
    (h : (armInitial row run).Gives u x u') : Moves none u.store u'.store := by
  cases run with
  | none =>
    rw [← (gives_pure.mp h).2]
    exact .same rfl
  | some run =>
    unfold armInitial armJob at h
    rw [gives_ite] at h
    rcases h with ⟨-, h⟩ | ⟨-, h⟩
    · simp only [gives_bind, gives_raiseIf] at h
      obtain ⟨_, _, ⟨-, rfl⟩, _, v, h, -, rfl⟩ := h
      refine updateCollectionJobs_moves h fun r _ hp => .free ?_
      simp only [leased, Bool.and_eq_true, Bool.not_eq_true', Bool.or_eq_false_iff, Option.isSome_eq_false_iff,
        Option.isNone_iff_eq_none] at hp
      exact hp.2.2.1
    · rw [← (gives_raiseIf.mp h).2]
      exact .same rfl

variable {job : String}

theorem putJob_moves (h : (putJob key run).Gives u job u') : Moves none u.store u'.store := by
  simp only [putJob, gives_bind, gives_raiseIf, gives_read, gives_orRaise, gives_pure] at h
  obtain ⟨_, _, ⟨-, rfl⟩, _, v, hi, _, _, ⟨rfl, rfl⟩, row, _, ⟨hrow, rfl⟩, _, _, ⟨hkey, rfl⟩, _, w, ha, rfl, rfl⟩ := h
  exact (insertJob_moves hi).trans (armInitial_moves ha)

theorem putJob_row (h : (putJob key none).Gives u job u') :
    job = jobKey key ∧ ∃ row, u'.store.collectionJobs.get job = some row ∧ keyJson row.key = keyJson key := by
  simp only [putJob, armInitial, gives_bind, gives_raiseIf, gives_read, gives_orRaise, gives_pure] at h
  obtain ⟨_, _, ⟨-, rfl⟩, _, v, -, _, _, ⟨rfl, rfl⟩, row, _, ⟨hrow, rfl⟩, _, _, ⟨hkey, rfl⟩, _, w, ⟨-, rfl⟩, rfl, rfl⟩ := h
  exact ⟨rfl, row, hrow, Decidable.not_not.mp hkey⟩

variable {now : Instant}

theorem claimDue_moves {request : CollectionRunRequest} {token : String}
    {lease : Option ExecutionLease} (h : (claimDue bindings request now token).Gives u lease u') :
    Moves lease u.store u'.store ∧ ∀ l ∈ lease, l.token = token := by
  simp only [claimDue, gives_bind, gives_read] at h
  obtain ⟨_, _, ⟨rfl, rfl⟩, h⟩ := h
  split at h
  · obtain ⟨rfl, rfl⟩ := gives_pure.mp h
    exact ⟨.same rfl, fun l hl => by cases hl⟩
  rename_i fence background hfences
  simp only [gives_bind, gives_read, gives_orRaise] at h
  obtain ⟨job, v, hp, _, _, ⟨rfl, rfl⟩, row, _, ⟨hrow, rfl⟩, h⟩ := h
  have hput := putJob_moves hp
  rw [gives_ite] at h
  rcases h with ⟨-, h⟩ | ⟨-, h⟩
  · obtain ⟨rfl, rfl⟩ := gives_pure.mp h
    exact ⟨hput, fun l hl => by cases hl⟩
  simp only [gives_bind, gives_ofExcept] at h
  obtain ⟨taken, _, ⟨-, rfl⟩, h⟩ := h
  rw [gives_ite] at h
  rcases h with ⟨-, h⟩ | ⟨-, h⟩
  · obtain ⟨rfl, rfl⟩ := gives_pure.mp h
    exact ⟨hput, fun l hl => by cases hl⟩
  simp only [gives_bind, gives_pure] at h
  obtain ⟨_, w, hu, rfl, rfl⟩ := h
  refine ⟨hput.trans ?_, fun l hl => by rw [← Option.some.inj hl]⟩
  obtain ⟨-, row', hrow', hkey⟩ := putJob_row hp
  refine updateCollectionJobs_moves hu fun r hr hpr => .claimed _ rfl ⟨rfl, ?_, rfl, rfl, rfl, rfl⟩
  obtain rfl : r.jobKey = job := of_decide_eq_true hpr
  obtain rfl := Option.some.inj (hr.symm.trans hrow')
  exact hkey

theorem defer_moves {nextDueAt now : Instant} {answer : Bool}
    (h : (defer bindings lease nextDueAt now).Gives u answer u') : Moves none u.store u'.store := by
  unfold defer at h
  rw [gives_ite] at h
  rcases h with ⟨-, h⟩ | ⟨-, h⟩
  · rw [← (gives_pure.mp h).2]
    exact .same rfl
  simp only [gives_bind, gives_read] at h
  obtain ⟨_, _, ⟨rfl, rfl⟩, h⟩ := h
  split at h
  · rw [← (gives_pure.mp h).2]
    exact .same rfl
  rw [gives_ite] at h
  rcases h with ⟨-, h⟩ | ⟨-, h⟩
  · rw [← (gives_pure.mp h).2]
    exact .same rfl
  simp only [gives_bind, gives_orRaise] at h
  obtain ⟨expires, _, ⟨-, rfl⟩, h⟩ := h
  rw [gives_ite] at h
  rcases h with ⟨-, h⟩ | ⟨-, h⟩
  · rw [← (gives_pure.mp h).2]
    exact .same rfl
  simp only [gives_bind, gives_pure] at h
  obtain ⟨_, _, h, -, rfl⟩ := h
  exact endLease_moves h

theorem unscheduleJob_moves {job principalId : String} {grant : GrantReference}
    (h : (unscheduleJob job principalId grant).Gives u x u') : Moves none u.store u'.store := by
  simp only [unscheduleJob, gives_bind, gives_pure] at h
  obtain ⟨_, _, h, -, rfl⟩ := h
  exact updateCollectionJobs_moves h fun r _ _ => .free rfl

theorem updateBackgroundJobs_moves {f : BackgroundJobRow → BackgroundJobRow}
    {hf : ∀ r, (f r).jobKey = r.jobKey} (h : (updateBackgroundJobs job f hf).Gives u x u') :
    Moves none u.store u'.store := by
  rw [gives_write.mp h]
  exact .same rfl

variable {item : BackgroundJob}

theorem registerBackgroundJob_moves {intentRevision : ℕ}
    {old : Option BackgroundJobRow} {work : CollectionJobRow}
    (h : (registerBackgroundJob item intentRevision now old work).Gives u x u') : Moves none u.store u'.store := by
  simp only [registerBackgroundJob, gives_bind, gives_read] at h
  obtain ⟨_, _, ⟨rfl, rfl⟩, _, v, hr, _, w, hu, h⟩ := h
  have hregister : Moves none u.store v.store := by
    unfold writeRegistration at hr
    split at hr
    · simp only [insertBackgroundJob, gives_bind, gives_read, gives_raiseIf, gives_orRaise, gives_write] at hr
      obtain ⟨_, _, ⟨rfl, rfl⟩, _, _, ⟨-, rfl⟩, jobs, _, ⟨-, rfl⟩, rfl⟩ := hr
      exact .same rfl
    · exact updateBackgroundJobs_moves hr
  rw [← (gives_pure.mp h).2]
  exact hregister.trans (updateCollectionJobs_moves hu fun r _ _ => .free rfl)

theorem reconcileJob_moves {retained : Option String}
    (h : (reconcileJob item now).Gives u retained u') : Moves none u.store u'.store := by
  simp only [reconcileJob, gives_bind, gives_read] at h
  obtain ⟨_, _, ⟨rfl, rfl⟩, h⟩ := h
  split at h
  · rw [← (gives_pure.mp h).2]
    exact .same rfl
  simp only [gives_bind, gives_raiseIf, gives_read, gives_orRaise] at h
  obtain ⟨_, _, ⟨-, rfl⟩, job, v, hp, _, _, ⟨rfl, rfl⟩, work, _, ⟨-, rfl⟩, h⟩ := h
  refine (putJob_moves hp).trans ?_
  rw [gives_ite] at h
  rcases h with ⟨-, h⟩ | ⟨-, h⟩
  · rw [← (gives_pure.mp h).2]
    exact .same rfl
  simp only [gives_bind, gives_pure] at h
  obtain ⟨_, w, hr, -, rfl⟩ := h
  exact registerBackgroundJob_moves hr

variable {jobs : List BackgroundJob}

theorem reconcileJobs_moves {retained : List String}
    (h : (reconcileJobs now jobs).Gives u retained u') : Moves none u.store u'.store := by
  induction jobs generalizing u retained with
  | nil =>
    rw [← (gives_pure.mp h).2]
    exact .same rfl
  | cons item rest ih =>
    simp only [reconcileJobs, gives_bind, gives_pure] at h
    obtain ⟨_, v, hitem, _, w, hrest, -, rfl⟩ := h
    exact (reconcileJob_moves hitem).trans (ih hrest)

theorem withdraw_moves {jobs : List String} (h : (withdraw jobs).Gives u x u') : Moves none u.store u'.store := by
  induction jobs generalizing u with
  | nil =>
    rw [← (gives_pure.mp h).2]
    exact .same rfl
  | cons job rest ih =>
    simp only [withdraw, gives_bind] at h
    obtain ⟨_, v, hb, _, w, hu, hrest⟩ := h
    exact (updateBackgroundJobs_moves hb).trans
      ((updateCollectionJobs_moves hu fun r _ _ => .free rfl).trans (ih hrest))

theorem reconcileBackgroundJobs_moves
    (h : (reconcileBackgroundJobs jobs now).Gives u x u') : Moves none u.store u'.store := by
  simp only [reconcileBackgroundJobs, gives_bind, gives_raiseIf, gives_read] at h
  obtain ⟨_, _, ⟨-, rfl⟩, _, _, ⟨-, rfl⟩, retained, v, hj, _, _, ⟨rfl, rfl⟩, hw⟩ := h
  exact (reconcileJobs_moves hj).trans (withdraw_moves hw)

theorem commit_moves (lease : ExecutionLease) (content : ObservationEvaluationCommit) (nextDueAt : Option Instant)
    (guard : CommitGuard) (committedAt authorizedAt : Instant) (s : Database) :
    Moves none s (commitObservationWithEvaluations bindings lease content nextDueAt guard committedAt authorizedAt s).2 := by
  by_cases h : (commitObservationWithEvaluations bindings lease content nextDueAt guard committedAt authorizedAt s).1 =
      .ok true
  · obtain ⟨row, -, hcommitted⟩ := commit_true (Prod.ext h rfl)
    intro key row' hrow'
    by_cases hkey : key = jobKey lease.key
    · subst hkey
      rw [hcommitted.job] at hrow'
      rw [← Option.some.inj hrow']
      exact .free rfl
    · rw [hcommitted.others key hkey] at hrow'
      exact .kept hrow'
  · rw [commit_unchanged h]
    exact .same rfl

theorem run_moves (s : Database) (a : LeaseAction) : Moves (a.issues bindings s) s (a.run bindings s) := by
  cases a with
  | claimDue request now token =>
    simp only [LeaseAction.issues, LeaseAction.run]
    rcases transaction_cases (claimDue bindings request now token) s with ⟨lease, s', ht⟩ | ⟨e, ht⟩
    · rw [ht]
      obtain ⟨gs, hg, -⟩ := transaction_ok.mp ht
      exact (claimDue_moves hg).1
    · rw [ht]
      exact .same rfl
  | commit lease content nextDueAt guard committedAt authorizedAt =>
    exact commit_moves lease content nextDueAt guard committedAt authorizedAt s
  | defer lease nextDueAt now => exact transaction_store (.same rfl) fun _ _ h => defer_moves h
  | release lease => exact transaction_store (.same rfl) fun _ _ h => endLease_moves h
  | reconcileBackgroundJobs jobs now =>
    exact transaction_store (.same rfl) fun _ _ h => reconcileBackgroundJobs_moves h
  | putJob key run => exact transaction_store (.same rfl) fun _ _ h => putJob_moves h
  | unscheduleJob job principalId grant => exact transaction_store (.same rfl) fun _ _ h => unscheduleJob_moves h
  | elsewhere s' => exact .same rfl

variable {l : ExecutionLease}

theorem issues_token {s : Database} {a : LeaseAction} (h : a.issues bindings s = some l) :
    a.draws = some l.token := by
  cases a with
  | claimDue request now token =>
    simp only [LeaseAction.issues] at h
    rcases transaction_cases (claimDue bindings request now token) s with ⟨lease, s', ht⟩ | ⟨e, ht⟩
    · rw [ht] at h
      obtain ⟨gs, hg, -⟩ := transaction_ok.mp ht
      rw [(claimDue_moves hg).2 l h]
      rfl
    · rw [ht] at h
      cases h
  | _ => cases h

structure LeaseInvariant (h : LeaseHistory) : Prop where
  distinct : ∀ l ∈ h.issued, ∀ l' ∈ h.issued, l.token = l'.token → l = l'
  held : ∀ key row, h.store.collectionJobs.get key = some row → ∀ token, row.leaseToken = some token →
    ∃ l ∈ h.issued, Holds row l

variable {h : LeaseHistory}

theorem LeaseInvariant.next {a : LeaseAction} (hi : LeaseInvariant h)
    (ha : (scheduler bindings).allowed h a) : LeaseInvariant ((scheduler bindings).next h a) where
  distinct := by
    intro l hl l' hl' ht
    rcases List.mem_append.mp hl with hl | hl <;> rcases List.mem_append.mp hl' with hl' | hl'
    · exact Option.some.inj ((Option.mem_toList.mp hl).symm.trans (Option.mem_toList.mp hl'))
    · exact absurd ht.symm (ha _ (issues_token (Option.mem_toList.mp hl)) l' hl')
    · exact absurd ht (ha _ (issues_token (Option.mem_toList.mp hl')) l hl)
    · exact hi.distinct l hl l' hl' ht
  held := by
    intro key row hrow token ht
    cases run_moves h.store a key row hrow with
    | free hf =>
      rw [hf] at ht
      cases ht
    | kept hk =>
      obtain ⟨l, hl, hh⟩ := hi.held key row hk token ht
      exact ⟨l, List.mem_append_right _ hl, hh⟩
    | claimed l hl hh => exact ⟨l, List.mem_append_left _ (Option.mem_toList.mpr hl), hh⟩

theorem leaseInvariant (hr : (scheduler bindings).Reachable h) : LeaseInvariant h := by
  refine hr.invariant (fun h hs => ?_) fun h a hi ha => hi.next ha
  obtain ⟨hissued, hfree⟩ := hs
  refine ⟨fun l hl => ?_, fun key row hrow token ht => ?_⟩
  · rw [hissued] at hl
    cases hl
  · rw [hfree row (Table.mem_of_get hrow)] at ht
    cases ht

theorem isCurrent_stored {s : Database} (h : isCurrent bindings s l now = true) :
    ∃ row, s.collectionJobs.get (jobKey l.key) = some row ∧ row.leaseToken = some l.token ∧ now < l.expiresAt := by
  unfold isCurrent at h
  split at h
  · cases h
  rename_i row hrow
  simp only [Bool.and_eq_true, decide_eq_true_eq] at h
  exact ⟨row, hrow, h.1.1.1.1.1.2, h.2⟩

/-- At most one lease of a collection is current, and a commit writes everything under it or nothing. -/
theorem collection_lease_exclusion {h : LeaseHistory} (hr : (scheduler bindings).Reachable h) :
    (∀ l ∈ h.issued, ∀ l' ∈ h.issued, ∀ now now', l.key = l'.key → isCurrent bindings h.store l now = true →
      isCurrent bindings h.store l' now' = true → l = l') ∧ ∀ lease content nextDueAt guard committedAt authorizedAt,
      let answer := commitObservationWithEvaluations bindings lease content nextDueAt guard committedAt authorizedAt
        h.store
      (answer.1 = .ok true → ∃ row,
        Authorized bindings lease content.observation.collectedAt committedAt authorizedAt row h.store ∧
        Committed lease content nextDueAt row h.store answer.2 ∧
        (lease ∈ h.issued → Holds row lease ∧ authorizedAt < lease.expiresAt)) ∧
      (answer.1 ≠ .ok true → answer.2 = h.store) := by
  have hi := leaseInvariant hr
  refine ⟨fun l hl l' hl' now now' hkey hc hc' => ?_, fun lease content nextDueAt guard committedAt authorizedAt => ?_⟩
  · obtain ⟨row, hrow, ht, -⟩ := isCurrent_stored hc
    obtain ⟨row', hrow', ht', -⟩ := isCurrent_stored hc'
    rw [← hkey, hrow] at hrow'
    obtain rfl := Option.some.inj hrow'
    exact hi.distinct l hl l' hl' (Option.some.inj (ht.symm.trans ht'))
  refine ⟨fun htrue => ?_, commit_unchanged⟩
  obtain ⟨row, hauthorized, hcommitted⟩ := commit_true (Prod.ext htrue rfl)
  refine ⟨row, hauthorized, hcommitted, fun hlease => ?_⟩
  have htoken : row.leaseToken = some lease.token := underLease_token hauthorized.lease
  obtain ⟨l, hl, hholds⟩ := hi.held _ _ hauthorized.stored _ htoken
  obtain rfl := hi.distinct l hl lease hlease (Option.some.inj (hholds.token.symm.trans htoken))
  refine ⟨hholds, ?_⟩
  obtain ⟨expires, hexpires, -, -, hlive⟩ := hauthorized.expiry
  obtain rfl := Option.some.inj (hholds.expiresAt.symm.trans hexpires)
  exact hlive

structure Harmless (bindings : GateBindings) (lease : ExecutionLease) (content : ObservationEvaluationCommit)
    (nextDueAt : Option Instant) (guard : CommitGuard) (committedAt authorizedAt : Instant) (event : DeliveryEvent)
    (s s' : Database) : Prop where
  succeeds : commitObservationWithEvaluations bindings lease content nextDueAt guard committedAt authorizedAt s =
    (.ok true, s')
  observed : (s'.observations.get content.observation.observationId).isSome
  advanced : ∀ item ∈ content.subscriptions, ∃ row, s'.evaluationStates.get item.subscriptionId = some row ∧
    row.revision = item.state.revision
  event : s'.events.get event.id = s.events.get event.id

/-- A commit that repeats a stored event leaves the store as it was. -/
theorem repeated_event_refused {lease : ExecutionLease} {content : ObservationEvaluationCommit}
    {nextDueAt : Option Instant} {guard : CommitGuard} {committedAt authorizedAt : Instant} {s : Database}
    {item : SubscriptionEvaluationCommit} {event : DeliveryEvent} (hitem : item ∈ content.subscriptions)
    (hevent : event ∈ item.deliveryEvents) (hstored : (s.events.get event.id).isSome) :
    (∀ s', ¬ Harmless bindings lease content nextDueAt guard committedAt authorizedAt event s s') ∧
      (commitObservationWithEvaluations bindings lease content nextDueAt guard committedAt authorizedAt s).2 = s := by
  have hrefused : ∀ s', commitObservationWithEvaluations bindings lease content nextDueAt guard committedAt authorizedAt
      s ≠ (.ok true, s') := by
    intro s' h
    obtain ⟨row, -, hcommitted⟩ := commit_true h
    have hnone := ((hcommitted.items item hitem).events event hevent).1
    rw [hnone] at hstored
    cases hstored
  exact ⟨fun s' hh => hrefused s' hh.succeeds, commit_unchanged fun h => hrefused _ (Prod.ext h rfl)⟩

end

/-! One collection with one digest subscriber. -/

namespace Sample

attribute [local instance] Store.Sample.hashing

def key : CollectionKey := Store.Sample.record.collectionKey

def database : Database :=
  { Store.Sample.database with
    collectionJobs := ⟨[newJob key none], by decide +kernel⟩
    subscriptionJobs := ⟨[⟨"s", jobKey key, 1, 1, 60 * second, 1⟩], by decide +kernel⟩
    events := .empty
    members := .empty }

def request : CollectionRunRequest where
  key := key
  dueAt := 0
  cadence := 60 * second
  configRevision := 1
  moduleEpoch := 1
  registryRevision := 1
  background := false
  lease := none

def lease (token : String) (claimedAt : Instant) : ExecutionLease where
  key := key
  token := token
  configRevision := 1
  moduleEpoch := 1
  registryRevision := 1
  expiresAt := claimedAt + 60 * second
  subscriptionFence := some ⟨1, 1⟩
  backgroundFence := none

def observation (id : String) (collectedAt : Instant) : Observation where
  observationId := id
  key := key
  dataVersion := 1
  sourceObservedAt := none
  collectedAt := collectedAt
  completeness := .complete
  coveredIds := []
  payload := .obj []

def firstItem : SubscriptionEvaluationCommit where
  subscriptionId := "s"
  subscriptionRevision := 1
  expectedStateRevision := none
  state := ⟨1, .obj []⟩
  cursor := (observation "o1" 1).cursor
  deliveryEvents := [Store.Sample.event]
  digestMembers := [Store.Sample.association]
  projectedObservation := none
  valid := by decide +kernel

def firstCommit : ObservationEvaluationCommit := ⟨⟨observation "o1" 1, [firstItem]⟩, by decide +kernel⟩

def unguarded : CommitGuard := ⟨none, none⟩

def start : LeaseHistory := ⟨database, []⟩

def claimed : LeaseHistory := (scheduler Store.Sample.bindings).next start (.claimDue request 0 "t1")

def committed : LeaseHistory :=
  (scheduler Store.Sample.bindings).next claimed (.commit (lease "t1" 0) firstCommit none unguarded 2 3)

def nextRequest : CollectionRunRequest := { request with dueAt := 1 + 60 * second }

def reclaimed : LeaseHistory :=
  (scheduler Store.Sample.bindings).next committed (.claimDue nextRequest (1 + 60 * second) "t2")

def secondItem : SubscriptionEvaluationCommit where
  subscriptionId := "s"
  subscriptionRevision := 1
  expectedStateRevision := some 1
  state := ⟨2, .obj []⟩
  cursor := (observation "o2" (2 + 60 * second)).cursor
  deliveryEvents := [Store.Sample.event]
  digestMembers := []
  projectedObservation := none
  valid := by decide +kernel

def secondCommit : ObservationEvaluationCommit := ⟨⟨observation "o2" (2 + 60 * second), [secondItem]⟩, by decide +kernel⟩

theorem start_reachable : (scheduler Store.Sample.bindings).Reachable start := by
  refine .of_start ⟨rfl, ?_⟩
  decide +kernel

-- The job key and the stored text of a key are long texts, which the kernel compares at a price: they are
-- rewritten to comparisons of keys before the run is evaluated.

set_option maxRecDepth 10000 in
theorem jobKey_eq (k : CollectionKey) : jobKey k =
    if k = key then "e7e1f8d8f9782bf8ef191b994a6420e37665eca273183e09ae97dc4415cbe588"
    else Hashing.sha256 k.encode.dumps := by
  split
  · next h => simp [h, jobKey, Hashing.sha256, key, Store.Sample.dumps_key, Store.Sample.digests, lookup_cons_eq]
  · rfl

theorem store_mk (s : Database) (l : List ExecutionLease) : (LeaseHistory.mk s l).store = s := rfl

theorem issued_mk (s : Database) (l : List ExecutionLease) : (LeaseHistory.mk s l).issued = l := rfl

variable (b : GateBindings)

theorem next_claimDue (h : LeaseHistory) (r : CollectionRunRequest) (now : Instant) (token : String) :
    (scheduler b).next h (.claimDue r now token) = ⟨(transaction (claimDue b r now token) h.store).2,
      (match (transaction (claimDue b r now token) h.store).1 with
        | .ok lease => lease
        | .error _ => none).toList ++ h.issued⟩ := rfl

theorem next_commit (h : LeaseHistory) (l : ExecutionLease) (c : ObservationEvaluationCommit)
    (due : Option Instant) (g : CommitGuard) (t u : Instant) : (scheduler b).next h (.commit l c due g t u) =
      ⟨(commitObservationWithEvaluations b l c due g t u h.store).2, h.issued⟩ := rfl

theorem claimed_eq : claimed = ⟨(transaction (claimDue Store.Sample.bindings request 0 "t1") database).2,
    (match (transaction (claimDue Store.Sample.bindings request 0 "t1") database).1 with
      | .ok lease => lease
      | .error _ => none).toList ++ []⟩ := by
  rw [claimed, next_claimDue, start]

theorem committed_store : committed.store = (commitObservationWithEvaluations Store.Sample.bindings (lease "t1" 0)
    firstCommit none unguarded 2 3 claimed.store).2 := by
  rw [committed, next_commit, store_mk]

theorem committed_issued : committed.issued = claimed.issued := by
  rw [committed, next_commit, issued_mk]

theorem reclaimed_store : reclaimed.store =
    (transaction (claimDue Store.Sample.bindings nextRequest (1 + 60 * second) "t2") committed.store).2 := by
  rw [reclaimed, next_claimDue, store_mk]

theorem reclaimed_issued : reclaimed.issued =
    (match (transaction (claimDue Store.Sample.bindings nextRequest (1 + 60 * second) "t2") committed.store).1 with
      | .ok lease => lease
      | .error _ => none).toList ++ committed.issued := by
  rw [reclaimed, next_claimDue, issued_mk]

theorem first_commit : claimed.issued = [lease "t1" 0] ∧
    (commitObservationWithEvaluations Store.Sample.bindings (lease "t1" 0) firstCommit none unguarded 2 3
      claimed.store).1 = .ok true := by
  rw [claimed_eq, store_mk, issued_mk]
  simp only [database, newJob, claimDue, claimFences, putJob, Database.readBackgroundFence,
    commitObservationWithEvaluations, commitBody, underLease, firstCommit, List.all_cons, List.all_nil, itemCurrent,
    projectedAllowed, writeCommit, applyObservation, endLease, insertObservation, raiseIf, ne_eq, keyJson_eq_iff,
    jobKey_eq]
  decide +kernel

theorem claimed_reachable : (scheduler Store.Sample.bindings).Reachable claimed := by
  refine start_reachable.next _ ?_
  rintro _ ⟨⟩ l hl
  cases hl

theorem reclaimed_reachable : (scheduler Store.Sample.bindings).Reachable reclaimed := by
  have hcommitted : (scheduler Store.Sample.bindings).Reachable committed := by
    refine claimed_reachable.next _ ?_
    rintro _ ⟨⟩
  refine hcommitted.next _ ?_
  rintro _ ⟨⟩ l hl
  simp only [committed, scheduler, LeaseAction.issues, Option.toList_none, List.nil_append, first_commit.1] at hl
  obtain rfl := List.mem_singleton.mp hl
  decide

theorem second_commit : reclaimed.issued = [lease "t2" (1 + 60 * second), lease "t1" 0] ∧
    isCurrent Store.Sample.bindings reclaimed.store (lease "t2" (1 + 60 * second)) (3 + 60 * second) = true ∧
    (reclaimed.store.events.get Store.Sample.event.id).map EventRow.event = some Store.Sample.event ∧
    (reclaimed.store.events.get Store.Sample.event.id).map EventRow.fence = some (some ⟨1, 1⟩) ∧
    (commitObservationWithEvaluations Store.Sample.bindings (lease "t2" (1 + 60 * second)) secondCommit none unguarded
      (3 + 60 * second) (3 + 60 * second) reclaimed.store).1 = .error .uniqueConstraintViolation := by
  rw [isCurrent, reclaimed_issued, reclaimed_store, committed_issued, committed_store, claimed_eq, store_mk, issued_mk]
  simp only [database, newJob, claimDue, claimFences, putJob, Database.readBackgroundFence,
    commitObservationWithEvaluations, commitBody, underLease, firstCommit, secondCommit, List.all_cons, List.all_nil,
    itemCurrent, projectedAllowed, writeCommit, applyObservation, endLease, insertObservation, raiseIf, ne_eq,
    keyJson_eq_iff, jobKey_eq]
  decide +kernel

end Sample

attribute [local instance] Store.Sample.hashing

/-- After the only claim its lease is current, and the commit under it makes everything it holds visible. -/
theorem collection_lease_exclusion_one_run : ∃ row,
    Authorized Store.Sample.bindings (Sample.lease "t1" 0) 1 2 3 row Sample.claimed.store ∧
    Committed (Sample.lease "t1" 0) Sample.firstCommit none row Sample.claimed.store
      (commitObservationWithEvaluations Store.Sample.bindings (Sample.lease "t1" 0) Sample.firstCommit none
        Sample.unguarded 2 3 Sample.claimed.store).2 ∧ Holds row (Sample.lease "t1" 0) := by
  obtain ⟨row, ha, hc, hh⟩ := ((collection_lease_exclusion Sample.claimed_reachable).2 (Sample.lease "t1" 0)
    Sample.firstCommit none Sample.unguarded 2 3).1 Sample.first_commit.2
  exact ⟨row, ha, hc, (hh (by rw [Sample.first_commit.1]; exact List.mem_singleton.mpr rfl)).1⟩

/-- A reachable store, a live lease on it and a commit that repeats a stored event under its own fence: the
commit raises, and nothing of it is stored. -/
theorem repeated_event_raises : ∃ (h : LeaseHistory) (lease : ExecutionLease) (row : EventRow),
    (scheduler Store.Sample.bindings).Reachable h ∧ lease ∈ h.issued ∧
    isCurrent Store.Sample.bindings h.store lease (3 + 60 * second) = true ∧
    h.store.events.get Store.Sample.event.id = some row ∧ row.event = Store.Sample.event ∧
    row.fence = lease.subscriptionFence ∧
    (∃ item ∈ Sample.secondCommit.subscriptions, Store.Sample.event ∈ item.deliveryEvents) ∧
    let answer := commitObservationWithEvaluations Store.Sample.bindings lease Sample.secondCommit none Sample.unguarded
      (3 + 60 * second) (3 + 60 * second) h.store
    answer.1 = .error .uniqueConstraintViolation ∧ answer.2 = h.store := by
  obtain ⟨hissued, hcurrent, hevent, hfence, hanswer⟩ := Sample.second_commit
  obtain ⟨row, hrow, hrowevent⟩ := Option.map_eq_some_iff.mp hevent
  rw [hrow] at hfence
  have hsame : (commitObservationWithEvaluations Store.Sample.bindings (Sample.lease "t2" (1 + 60 * second))
      Sample.secondCommit none Sample.unguarded (3 + 60 * second) (3 + 60 * second) Sample.reclaimed.store).2 =
      Sample.reclaimed.store := by
    refine commit_unchanged ?_
    rw [hanswer]
    exact nofun
  refine ⟨Sample.reclaimed, Sample.lease "t2" (1 + 60 * second), row, Sample.reclaimed_reachable, ?_, hcurrent, hrow,
    hrowevent, Option.some.inj hfence, ?_, hanswer, hsame⟩
  · rw [hissued]
    exact List.mem_cons_self
  · exact ⟨Sample.secondItem, List.mem_singleton.mpr rfl, List.mem_singleton.mpr rfl⟩

/-- The stored event is repeated by the second commit of the run, which is refused. -/
theorem repeated_event_refused_one_run :
    (commitObservationWithEvaluations Store.Sample.bindings (Sample.lease "t2" (1 + 60 * second)) Sample.secondCommit none
      Sample.unguarded (3 + 60 * second) (3 + 60 * second) Sample.reclaimed.store).2 = Sample.reclaimed.store := by
  have hstored : (Sample.reclaimed.store.events.get Store.Sample.event.id).isSome := by
    obtain ⟨row, hrow, -⟩ := Option.map_eq_some_iff.mp Sample.second_commit.2.2.1
    rw [hrow]
    rfl
  have hitem : Sample.secondItem ∈ Sample.secondCommit.subscriptions := List.mem_singleton.mpr rfl
  have hevent : Store.Sample.event ∈ Sample.secondItem.deliveryEvents := List.mem_singleton.mpr rfl
  exact (repeated_event_refused hitem hevent hstored).2

end GameLink.Scheduler

import GameLink.Ff14.Snapshots

namespace GameLink.Ff14

open Foundation Contracts Digest

/-! A complete calendar is never lost. -/

theorem spec_of_key {sync sync' : SourceSync} (h : sync.valid = true) (h' : sync'.valid = true)
    (hkey : sync.key = sync'.key) : sync.spec = sync'.spec := by
  simp only [SourceSync.valid, Bool.and_eq_true, Bool.or_eq_true, decide_eq_true_eq] at h h'
  obtain ⟨⟨⟨hregion, -⟩, hspec⟩, hsource⟩ := h
  obtain ⟨⟨⟨hregion', -⟩, hspec'⟩, hsource'⟩ := h'
  unfold SourceSync.key sourceKey at hkey
  have heq : sync.region = sync'.region ∧ sync.spec.sourceId = sync'.spec.sourceId := by
    cases hregion with
    | inl hr | inr hr =>
      cases hregion' with
      | inl hr' | inr hr' =>
        cases hsource with
        | inl hs | inr hs =>
          cases hsource' with
          | inl hs' | inr hs' =>
            rw [hr, hr', hs, hs'] at hkey ⊢
            revert hkey
            decide
  rw [← heq.1, ← heq.2, hspec] at hspec'
  exact Option.some.inj hspec'

variable {spec : CalendarSourceSpec}

theorem calendarSourceSpec_cases {region sourceId : String}
    (h : calendarSourceSpec region sourceId = some spec) : (region = "cn" ∨ region = "global") ∧
      (sourceId = "ff14_calendar_primary" ∨ sourceId = "ff14_calendar_fallback") := by
  unfold calendarSourceSpec at h
  split at h
  · rename_i hc
    exact ⟨.inl hc.1, .inl hc.2⟩
  split at h
  · rename_i hc
    exact ⟨.inl hc.1, .inr hc.2⟩
  split at h
  · rename_i hc
    exact ⟨.inr hc.1, .inl hc.2⟩
  split at h
  · rename_i hc
    exact ⟨.inr hc.1, .inr hc.2⟩
  · cases h

theorem spec_of_source {region : String} {sync : SourceSync}
    (h : calendarSourceSpec region spec.sourceId = some spec) (hvalid : sync.valid = true)
    (hkey : sourceKey region spec = sync.key) : sync.spec = spec := by
  obtain ⟨hregion, hsource⟩ := calendarSourceSpec_cases h
  have hown : SourceSync.valid ⟨0, region, spec, 21600, .due⟩ = true := by
    simp only [SourceSync.valid, Bool.and_eq_true, Bool.or_eq_true, decide_eq_true_eq, true_or, h, and_true]
    exact ⟨hregion, hsource⟩
  exact (spec_of_key hown hvalid hkey).symm

structure Timed (sync : SourceSync) (value : SnapshotValue) : Prop where
  due : ∃ anchor, value.scheduleAnchorAt = some anchor ∧ value.nextDueAt = some (anchor + sync.interval * second)
  retry : ∃ now, value.lastAttemptAt = some now ∧ value.retryAfter = some (now + manualCooldownSeconds * second)

theorem addSeconds_eq_ok {t t' : Instant} {n : ℤ} (h : addSeconds t n = .ok t') : t' = t + n * second :=
  (inYears_eq_ok.mp h).1.symm

def SnapshotState.latestClaim (s : SnapshotState) (key : String) : Option SyncClaim :=
  s.claims.find? fun c => c.sync.key = key

variable {s : SnapshotState}

theorem latestClaim_mem {key : String} {c : SyncClaim} (h : s.latestClaim key = some c) :
    c ∈ s.claims ∧ c.sync.key = key := by
  unfold SnapshotState.latestClaim at h
  have hkey := List.find?_some h
  exact ⟨List.mem_of_find?_eq_some h, of_decide_eq_true hkey⟩

structure Reflects (r : Versioned SnapshotValue) (c : SyncClaim) : Prop where
  nextDueAt : r.value.nextDueAt = c.record.value.nextDueAt
  retryAfter : r.value.retryAfter = c.record.value.retryAfter
  fingerprint : r.value.urlFingerprint = c.record.value.urlFingerprint

theorem claimWrite_eq_some {key : String} {current : Option (Versioned SnapshotValue)}
    {value : SnapshotValue} {records : Records String SnapshotValue} {record : Versioned SnapshotValue}
    (hheld : ∀ r, current = some r → s.records.Held key r)
    (h : s.claimWrite key current value = some (records, record)) :
    s.records key = current ∧ records = Function.update s.records key (some record) ∧ record.value = value ∧
      (∀ r, current = some r → r.revision < record.revision) ∧ s.records.Advances records := by
  unfold SnapshotState.claimWrite at h
  cases current with
  | none =>
    obtain ⟨written, hwritten, heq⟩ := Option.map_eq_some_iff.mp h
    cases heq
    obtain ⟨hnone, hrecords⟩ := Records.create_eq_some hwritten
    refine ⟨hnone, hrecords, rfl, ?_, Records.create_advances hwritten⟩
    intro r hr
    cases hr
  | some r =>
    obtain ⟨written, hwritten, heq⟩ := Option.map_eq_some_iff.mp h
    cases heq
    obtain ⟨⟨r', hr', hrevision⟩, hrecords⟩ := Records.replace_eq_some hwritten
    have hsame := (hheld r rfl).current hr' (by omega)
    subst hsame
    refine ⟨hr', hrecords, rfl, ?_, Records.replace_advances hwritten⟩
    intro r hr
    cases hr
    exact Nat.lt_succ_self _

section

variable [Hashing]

structure Prepared (s : SnapshotState) (sync : SourceSync) (current : Option (Versioned SnapshotValue))
    (value : SnapshotValue) : Prop where
  held : ∀ r, current = some r → s.records.Held sync.key r
  timed : Timed sync value
  fingerprint : value.urlFingerprint = some (urlFingerprint sync.spec)
  kept : ∀ r, current = some r → r.value.urlFingerprint = some (urlFingerprint sync.spec) →
    value.complete = r.value.complete

structure Carried (s : SnapshotState) (id : ℕ) (claim : Versioned SnapshotValue) (settled : Settled) : Prop where
  nextDueAt : settled.value.nextDueAt = claim.value.nextDueAt
  retryAfter : settled.value.retryAfter = claim.value.retryAfter
  fingerprint : settled.value.urlFingerprint = claim.value.urlFingerprint
  complete : settled.value.complete = claim.value.complete ∨
    ∃ feed, settled.value.complete = some feed ∧ ⟨id, feed⟩ ∈ s.fetches

def PhaseSound (s : SnapshotState) (id : ℕ) (sync : SourceSync) : SyncPhase → Prop
  | .reading _ => True
  | .claiming current value => Prepared s sync current value
  | .fetching claim => ⟨id, sync, claim⟩ ∈ s.claims
  | .committing claim settled => ⟨id, sync, claim⟩ ∈ s.claims ∧ Carried s id claim settled
  | .ended _ => True

structure ClaimSound (s : SnapshotState) (c : SyncClaim) : Prop where
  valid : c.sync.valid = true
  held : s.records.Held c.sync.key c.record
  timed : Timed c.sync c.record.value
  fingerprint : c.record.value.urlFingerprint = some (urlFingerprint c.sync.spec)

structure Sound (s : SnapshotState) : Prop where
  tasks : ∀ id t, s.tasks id = some t → t.sync.valid = true ∧ PhaseSound s id t.sync t.phase
  claims : ∀ c ∈ s.claims, ClaimSound s c
  ordered : s.claims.Pairwise fun later earlier => later.sync.key = earlier.sync.key →
    earlier.record.revision < later.record.revision
  reflected : ∀ key c, s.latestClaim key = some c → ∃ r, s.records key = some r ∧ Reflects r c

variable {s : SnapshotState} {r : Versioned SnapshotValue}

theorem Sound.latest_of_current {c : SyncClaim} (hs : Sound s) (hc : c ∈ s.claims) (hr : s.records c.sync.key = some r) (hrevision : r.revision = c.record.revision) :
    s.latestClaim c.sync.key = some c ∧ r = c.record := by
  refine ⟨?_, (hs.claims c hc).held.current hr (by omega)⟩
  cases hlatest : s.latestClaim c.sync.key with
  | none =>
    have hnot := List.find?_eq_none.mp hlatest c hc
    simp at hnot
  | some l =>
    obtain ⟨hl, hkey⟩ := latestClaim_mem hlatest
    obtain ⟨r', hr', hle⟩ := (hs.claims l hl).held.exists
    rw [hkey, hr] at hr'
    cases hr'
    obtain ⟨earlier, later, hsplit, hnone⟩ := List.find?_eq_some_iff_append.mp hlatest |>.2
    rw [hsplit] at hc
    rw [List.mem_append, List.mem_cons] at hc
    have hordered := hs.ordered
    rw [hsplit] at hordered
    cases hc with
    | inl hbefore =>
      have hnot := hnone c hbefore
      simp at hnot
    | inr hc =>
      cases hc with
      | inl heq => rw [heq]
      | inr hafter =>
        have hlt := List.rel_of_pairwise_cons (List.pairwise_append.mp hordered).2.1 hafter hkey
        omega

variable {sync : SourceSync} {s s' : SnapshotState}

theorem PhaseSound.mono {id : ℕ} {phase : SyncPhase}
    (h : PhaseSound s id sync phase) (hrecords : s.records.Advances s'.records) (hclaims : s.claims ⊆ s'.claims)
    (hfetches : s.fetches ⊆ s'.fetches) : PhaseSound s' id sync phase := by
  cases phase with
  | reading now => trivial
  | ended result => trivial
  | claiming current value =>
    exact ⟨fun r hr => (h.held r hr).advances hrecords, h.timed, h.fingerprint, h.kept⟩
  | fetching claim => exact hclaims h
  | committing claim settled =>
    obtain ⟨hclaim, hcarried⟩ := h
    refine ⟨hclaims hclaim, hcarried.nextDueAt, hcarried.retryAfter, hcarried.fingerprint, ?_⟩
    cases hcarried.complete with
    | inl hsame => exact .inl hsame
    | inr hfetched =>
      obtain ⟨feed, hfeed, hmem⟩ := hfetched
      exact .inr ⟨feed, hfeed, hfetches hmem⟩

theorem ClaimSound.mono {c : SyncClaim} (h : ClaimSound s c)
    (hrecords : s.records.Advances s'.records) : ClaimSound s' c :=
  ⟨h.valid, h.held.advances hrecords, h.timed, h.fingerprint⟩

section

variable (hs : Sound s)
include hs

theorem Sound.move {id : ℕ} {phase : SyncPhase}
    (hvalid : sync.valid = true) (hphase : PhaseSound s id sync phase) : Sound (s.move id sync phase) := by
  have hkeep {id sync phase} (h : PhaseSound s id sync phase) (s' : SnapshotState)
      (hs' : s' = { s with tasks := s'.tasks }) : PhaseSound s' id sync phase := by
    rw [hs']
    exact h.mono (.refl _) (List.Subset.refl _) (List.Subset.refl _)
  refine ⟨?_, fun c hc => (hs.claims c hc).mono (.refl _), hs.ordered, hs.reflected⟩
  intro id' t ht
  by_cases hid : id' = id
  · subst hid
    rw [show (s.move id' sync phase).tasks id' = some ⟨sync, phase⟩ from Function.update_self ..] at ht
    cases ht
    exact ⟨hvalid, hkeep hphase _ rfl⟩
  rw [show (s.move id sync phase).tasks id' = s.tasks id' from Function.update_of_ne hid ..] at ht
  obtain ⟨hvalid', hphase'⟩ := hs.tasks id' t ht
  exact ⟨hvalid', hkeep hphase' _ rfl⟩

theorem Sound.write {records : Records String SnapshotValue} (hadvances : s.records.Advances records)
    (hreflected : ∀ key c, s.latestClaim key = some c → ∃ r, records key = some r ∧ Reflects r c) :
    Sound { s with records := records } := by
  refine ⟨?_, fun c hc => (hs.claims c hc).mono hadvances, hs.ordered, hreflected⟩
  intro id t ht
  obtain ⟨hvalid, hphase⟩ := hs.tasks id t ht
  exact ⟨hvalid, hphase.mono hadvances (List.Subset.refl _) (List.Subset.refl _)⟩

theorem Sound.note (id : ℕ) (fetched : Option StoredFeed) : Sound (s.note id fetched) := by
  refine ⟨?_, fun c hc => (hs.claims c hc).mono (.refl _), hs.ordered, hs.reflected⟩
  intro id' t ht
  obtain ⟨hvalid, hphase⟩ := hs.tasks id' t ht
  exact ⟨hvalid, hphase.mono (.refl _) (List.Subset.refl _) (List.subset_append_right _ _)⟩

theorem Sound.claim {id : ℕ} {current : Option (Versioned SnapshotValue)} {value : SnapshotValue}
    (ht : s.tasks id = some ⟨sync, .claiming current value⟩) (fate : WriteFate) :
    Sound (s.claim id sync current value fate) := by
  obtain ⟨hvalid, hprepared⟩ := hs.tasks id _ ht
  unfold SnapshotState.claim
  split
  · exact hs.move hvalid trivial
  split
  · exact hs.move hvalid trivial
  rename_i records record hwrite
  obtain ⟨hcurrent, hrecords, hvalue, hlater, hadvances⟩ := claimWrite_eq_some hprepared.held hwrite
  have hat : records sync.key = some record := by rw [hrecords]; exact Function.update_self ..
  have hother {key : String} (hkey : key ≠ sync.key) : records key = s.records key := by
    rw [hrecords]; exact Function.update_of_ne hkey ..
  have hclaimed : Sound { s with records := records, claims := ⟨id, sync, record⟩ :: s.claims } := by
    constructor
    case tasks =>
      intro id' t ht'
      obtain ⟨hvalid', hphase'⟩ := hs.tasks id' t ht'
      exact ⟨hvalid', hphase'.mono hadvances (List.subset_cons_self _ _) (List.Subset.refl _)⟩
    case claims =>
      intro c hc
      cases List.mem_cons.mp hc with
      | inl heq =>
        rw [heq]
        refine ⟨hvalid, Records.held_of_eq hat, ?_, ?_⟩
        · rw [hvalue]; exact hprepared.timed
        · rw [hvalue]; exact hprepared.fingerprint
      | inr hmem => exact (hs.claims c hmem).mono hadvances
    case ordered =>
      apply List.pairwise_cons.mpr
      refine ⟨?_, hs.ordered⟩
      intro c hc hkey
      obtain ⟨r, hr, hle⟩ := (hs.claims c hc).held.exists
      rw [← hkey] at hr
      dsimp only at hr
      rw [hcurrent] at hr
      have hlt := hlater r hr
      change c.record.revision < record.revision
      omega
    case reflected =>
      intro key c hc
      unfold SnapshotState.latestClaim at hc
      by_cases hkey : sync.key = key
      · rw [List.find?_cons_of_pos (by simpa using hkey)] at hc
        cases hc
        subst hkey
        exact ⟨record, hat, rfl, rfl, rfl⟩
      rw [List.find?_cons_of_neg (by simpa using hkey)] at hc
      obtain ⟨r, hr, hreflects⟩ := hs.reflected key c hc
      exact ⟨r, by rw [← hr]; exact hother fun heq => hkey heq.symm, hreflects⟩
  refine hclaimed.move hvalid ?_
  split
  · exact List.mem_cons_self
  · trivial

theorem Sound.commit {id : ℕ} {claim : Versioned SnapshotValue} {settled : Settled}
    (ht : s.tasks id = some ⟨sync, .committing claim settled⟩) (fate : WriteFate) :
    Sound (s.commit id sync claim settled fate) := by
  obtain ⟨hvalid, hclaim, hcarried⟩ := hs.tasks id _ ht
  unfold SnapshotState.commit
  split
  · exact hs.move hvalid trivial
  split
  · exact hs.move hvalid trivial
  rename_i records hreplace
  obtain ⟨⟨r, hr, hrevision⟩, hrecords⟩ := Records.replace_eq_some hreplace
  obtain ⟨hlatest, -⟩ := hs.latest_of_current hclaim hr hrevision
  refine Sound.move (hs.write (Records.replace_advances hreplace) ?_) hvalid trivial
  intro key c hc
  by_cases hkey : key = sync.key
  · subst hkey
    rw [hlatest] at hc
    cases hc
    refine ⟨⟨claim.revision + 1, settled.value⟩, by rw [hrecords]; exact Function.update_self .., ?_⟩
    exact ⟨hcarried.nextDueAt, hcarried.retryAfter, hcarried.fingerprint⟩
  obtain ⟨r', hr', hreflects⟩ := hs.reflected key c hc
  refine ⟨r', ?_, hreflects⟩
  rw [hrecords, ← hr']
  exact Function.update_of_ne hkey ..

end

theorem beforeClaim_claim {now : Instant}
    {value : SnapshotValue} (h : beforeClaim sync now (s.records sync.key) = .ok (.claim value)) :
    Prepared s sync (s.records sync.key) value := by
  unfold beforeClaim at h
  dsimp only at h
  split at h
  · cases h
  split at h
  · cases h
  split at h
  · cases h
  split at h
  · cases h
  unfold startClaim at h
  split at h
  · cases h
  rename_i anchor hanchor
  split at h
  · rename_i due retryAfter hdue hretry
    cases h
    have hdue := addSeconds_eq_ok hdue
    have hretry := addSeconds_eq_ok hretry
    refine ⟨fun r hr => Records.held_of_eq hr, ⟨⟨anchor, rfl, by rw [← hdue]; rfl⟩,
      ⟨now, rfl, by rw [← hretry]; rfl⟩⟩, rfl, ?_⟩
    intro r hr hfingerprint
    change (currentValue sync (s.records sync.key)).complete = r.value.complete
    unfold currentValue
    rw [hr]
    dsimp only
    rw [if_pos hfingerprint]
  · cases h
  · cases h

theorem Sound.afterRead (hs : Sound s) {id : ℕ} (hvalid : sync.valid = true)
    (now : Instant) : Sound (s.afterRead id sync now) := by
  unfold SnapshotState.afterRead
  split
  · exact hs.move hvalid trivial
  · exact hs.move hvalid trivial
  · rename_i value hvalue
    exact hs.move hvalid (beforeClaim_claim hvalue)

theorem settle_carried {id : ℕ} {claim : Versioned SnapshotValue} {fetchedAt : Instant}
    {outcome : FetchOutcome} {settled : Settled} (h : settle claim.value fetchedAt outcome = some settled) :
    Carried (s.note id settled.fetched) id claim settled := by
  have hfailed : Carried (s.note id none) id claim (failedFetch claim.value) := ⟨rfl, rfl, rfl, .inl rfl⟩
  cases outcome with
  | raises => cases h
  | timeout => cases h; exact hfailed
  | sourceError code =>
    simp only [settle] at h
    split at h
    · cases h
    · cases h; exact hfailed
  | response statusCode body parsed =>
    simp only [settle] at h
    split at h
    · cases h; exact hfailed
    split at h
    · cases h; exact hfailed
    split at h
    · cases h; exact hfailed
    split at h
    · cases h
    rename_i text _ completeness
    cases h
    cases completeness with
    | partialResult => exact ⟨rfl, rfl, rfl, .inl rfl⟩
    | complete => exact ⟨rfl, rfl, rfl, .inr ⟨_, rfl, List.mem_cons_self⟩⟩

theorem sound_step {a : SyncAction} (hs : Sound s) (ha : snapshotSystem.allowed s a) : Sound (s.next a) := by
  cases a with
  | enter id sync now =>
    unfold SnapshotState.next
    dsimp only
    split
    · exact hs.move ha.1 trivial
    · exact hs
  | read id raises =>
    unfold SnapshotState.next
    dsimp only
    split
    · rename_i sync now ht
      have hvalid := (hs.tasks id _ ht).1
      split
      · exact hs.move hvalid trivial
      · exact hs.afterRead hvalid now
    · exact hs
  | claim id fate =>
    unfold SnapshotState.next
    dsimp only
    split
    · rename_i sync current value ht
      exact hs.claim ht fate
    · exact hs
  | fetch id fetchedAt outcome =>
    unfold SnapshotState.next
    dsimp only
    split
    · rename_i sync claim ht
      obtain ⟨hvalid, hclaim⟩ := hs.tasks id _ ht
      split
      · exact hs.move hvalid trivial
      · rename_i settled hsettled
        exact (hs.note id settled.fetched).move hvalid ⟨hclaim, settle_carried hsettled⟩
    · exact hs
  | commit id fate =>
    unfold SnapshotState.next
    dsimp only
    split
    · rename_i sync claim settled ht
      exact hs.commit ht fate
    · exact hs
  | cancel id =>
    unfold SnapshotState.next
    dsimp only
    split
    · rename_i t ht
      split
      · exact hs.move (hs.tasks id t ht).1 trivial
      · exact hs
    · exact hs

theorem sound (h : snapshotSystem.Reachable s) : Sound s := by
  refine h.invariant ?_ fun s a hs ha => sound_step hs ha
  rintro s ⟨htasks, hclaims, -⟩
  constructor
  case tasks =>
    intro id t ht
    rw [htasks] at ht
    cases ht
  case claims => intro c hc; rw [hclaims] at hc; cases hc
  case ordered => rw [hclaims]; exact .nil
  case reflected =>
    intro key c hc
    unfold SnapshotState.latestClaim at hc
    rw [hclaims] at hc
    cases hc

def SyncAction.id : SyncAction → ℕ
  | .enter id _ _ => id
  | .read id _ => id
  | .claim id _ => id
  | .fetch id _ _ => id
  | .commit id _ => id
  | .cancel id => id

theorem tasks_next_other {a : SyncAction} {id : ℕ} (h : id ≠ a.id) : (s.next a).tasks id = s.tasks id := by
  have hmove (s : SnapshotState) (sync : SourceSync) (phase : SyncPhase) :
      (s.move a.id sync phase).tasks id = s.tasks id := Function.update_of_ne h ..
  cases a with
  | enter id' sync now =>
    unfold SnapshotState.next
    dsimp only
    split
    · exact hmove ..
    · rfl
  | read id' raises =>
    unfold SnapshotState.next
    dsimp only
    split
    · split
      · exact hmove ..
      unfold SnapshotState.afterRead
      split
      · exact hmove ..
      · exact hmove ..
      · exact hmove ..
    · rfl
  | claim id' fate =>
    unfold SnapshotState.next
    dsimp only
    split
    · unfold SnapshotState.claim
      split
      · exact hmove ..
      split
      · exact hmove ..
      · exact hmove ..
    · rfl
  | fetch id' fetchedAt outcome =>
    unfold SnapshotState.next
    dsimp only
    split
    · split
      · exact hmove ..
      · exact hmove ..
    · rfl
  | commit id' fate =>
    unfold SnapshotState.next
    dsimp only
    split
    · unfold SnapshotState.commit
      split
      · exact hmove ..
      split
      · exact hmove ..
      · exact hmove ..
    · rfl
  | cancel id' =>
    unfold SnapshotState.next
    dsimp only
    split
    · split
      · exact hmove ..
      · rfl
    · rfl

theorem tasks_run_other {as : List SyncAction} {id : ℕ} (h : ∀ a ∈ as, id ≠ a.id) :
    (as.foldl SnapshotState.next s).tasks id = s.tasks id := by
  induction as generalizing s with
  | nil => rfl
  | cons a as ih =>
    rw [List.foldl_cons, ih fun b hb => h b (List.mem_cons_of_mem _ hb)]
    exact tasks_next_other (h a List.mem_cons_self)

theorem records_next (s : SnapshotState) (a : SyncAction) : (s.next a).records = s.records ∨
    (∃ id sync current value records record, s.tasks id = some ⟨sync, .claiming current value⟩ ∧
      s.claimWrite sync.key current value = some (records, record) ∧ (s.next a).records = records) ∨
    (∃ id fate sync claim settled records, a = .commit id fate ∧ s.tasks id = some ⟨sync, .committing claim settled⟩ ∧
      s.records.replace sync.key settled.value claim.revision = some records ∧ (s.next a).records = records) := by
  cases a with
  | enter id sync now =>
    left
    unfold SnapshotState.next
    dsimp only
    split
    · rfl
    · rfl
  | read id raises =>
    left
    unfold SnapshotState.next
    dsimp only
    split
    · split
      · rfl
      unfold SnapshotState.afterRead
      split
      · rfl
      · rfl
      · rfl
    · rfl
  | claim id fate =>
    cases ht : s.tasks id with
    | none => left; unfold SnapshotState.next; dsimp only; rw [ht]
    | some t =>
      obtain ⟨sync, phase⟩ := t
      cases phase with
      | claiming current value =>
        have hnext : s.next (.claim id fate) = s.claim id sync current value fate := by
          unfold SnapshotState.next
          dsimp only
          rw [ht]
        rw [hnext]
        unfold SnapshotState.claim
        split
        · exact .inl rfl
        split
        · exact .inl rfl
        · rename_i records record hwrite
          exact .inr (.inl ⟨id, sync, current, value, records, record, ht, hwrite, rfl⟩)
      | reading now => left; unfold SnapshotState.next; dsimp only; rw [ht]
      | fetching claim => left; unfold SnapshotState.next; dsimp only; rw [ht]
      | committing claim settled => left; unfold SnapshotState.next; dsimp only; rw [ht]
      | ended result => left; unfold SnapshotState.next; dsimp only; rw [ht]
  | fetch id fetchedAt outcome =>
    left
    unfold SnapshotState.next
    dsimp only
    split
    · split
      · rfl
      · rfl
    · rfl
  | commit id fate =>
    cases ht : s.tasks id with
    | none => left; unfold SnapshotState.next; dsimp only; rw [ht]
    | some t =>
      obtain ⟨sync, phase⟩ := t
      cases phase with
      | committing claim settled =>
        have hnext : s.next (.commit id fate) = s.commit id sync claim settled fate := by
          unfold SnapshotState.next
          dsimp only
          rw [ht]
        rw [hnext]
        unfold SnapshotState.commit
        split
        · exact .inl rfl
        split
        · exact .inl rfl
        · rename_i records hreplace
          exact .inr (.inr ⟨id, fate, sync, claim, settled, records, rfl, ht, hreplace, rfl⟩)
      | reading now => left; unfold SnapshotState.next; dsimp only; rw [ht]
      | claiming current value => left; unfold SnapshotState.next; dsimp only; rw [ht]
      | fetching claim => left; unfold SnapshotState.next; dsimp only; rw [ht]
      | ended result => left; unfold SnapshotState.next; dsimp only; rw [ht]
  | cancel id =>
    left
    unfold SnapshotState.next
    dsimp only
    split
    · split
      · rfl
      · rfl
    · rfl

def HoldsComplete (s : SnapshotState) (region : String) (spec : CalendarSourceSpec) : Prop :=
  ∃ r, s.records (sourceKey region spec) = some r ∧ r.value.urlFingerprint = some (urlFingerprint spec) ∧
    r.value.complete ≠ none

structure Refreshed (s : SnapshotState) (a : SyncAction) (key : String) (r' : Versioned SnapshotValue) : Prop where
  byCommit : ∃ id fate claim feed, a = .commit id fate ∧ s.latestClaim key = some claim ∧ claim.task = id ∧
    r'.value.complete = some feed ∧ ⟨id, feed⟩ ∈ s.fetches

theorem record_step (hs : Sound s) {region : String} {spec : CalendarSourceSpec}
    (hsource : calendarSourceSpec region spec.sourceId = some spec) (a : SyncAction)
    (hr : s.records (sourceKey region spec) = some r)
    (hfingerprint : r.value.urlFingerprint = some (urlFingerprint spec)) :
    ∃ r', (s.next a).records (sourceKey region spec) = some r' ∧
      r'.value.urlFingerprint = some (urlFingerprint spec) ∧
      (r'.value.complete = r.value.complete ∨ Refreshed s a (sourceKey region spec) r') := by
  cases records_next s a with
  | inl hsame => exact ⟨r, by rw [hsame]; exact hr, hfingerprint, .inl rfl⟩
  | inr hwrites =>
    cases hwrites with
    | inl hclaim =>
      obtain ⟨id, sync, current, value, records, record, ht, hwrite, hnext⟩ := hclaim
      obtain ⟨hvalid, hprepared⟩ := hs.tasks id _ ht
      obtain ⟨hcurrent, hrecords, hvalue, -⟩ := claimWrite_eq_some hprepared.held hwrite
      by_cases hkey : sourceKey region spec = sync.key
      · have hspec := spec_of_source hsource hvalid hkey
        rw [hkey] at hr
        rw [hr] at hcurrent
        refine ⟨record, ?_, ?_, .inl ?_⟩
        · rw [hnext, hrecords, hkey]
          exact Function.update_self ..
        · rw [hvalue, hprepared.fingerprint, hspec]
        · rw [hvalue]
          exact hprepared.kept r hcurrent.symm (by rw [hfingerprint, hspec])
      · refine ⟨r, ?_, hfingerprint, .inl rfl⟩
        rw [hnext, hrecords, ← hr]
        exact Function.update_of_ne hkey ..
    | inr hcommit =>
      obtain ⟨id, fate, sync, claim, settled, records, ha, ht, hreplace, hnext⟩ := hcommit
      obtain ⟨hvalid, hmem, hcarried⟩ := hs.tasks id _ ht
      obtain ⟨⟨r', hr', hrevision⟩, hrecords⟩ := Records.replace_eq_some hreplace
      by_cases hkey : sourceKey region spec = sync.key
      · obtain ⟨hlatest, heq⟩ := hs.latest_of_current hmem hr' hrevision
        rw [hkey, hr'] at hr
        cases hr
        refine ⟨⟨claim.revision + 1, settled.value⟩, ?_, ?_, ?_⟩
        · rw [hnext, hrecords, hkey]
          exact Function.update_self ..
        · dsimp only at heq
          change settled.value.urlFingerprint = _
          rw [hcarried.fingerprint, ← heq, hfingerprint]
        cases hcarried.complete with
        | inl hsame =>
          left
          dsimp only at heq
          change settled.value.complete = _
          rw [hsame, heq]
        | inr hfetched =>
          obtain ⟨feed, hfeed, hfetch⟩ := hfetched
          rw [hkey]
          exact .inr ⟨id, fate, _, feed, ha, hlatest, rfl, hfeed, hfetch⟩
      · refine ⟨r, ?_, hfingerprint, .inl rfl⟩
        rw [hnext, hrecords, ← hr]
        exact Function.update_of_ne hkey ..

theorem holdsComplete_step (hs : Sound s) {region : String} {spec : CalendarSourceSpec}
    (hsource : calendarSourceSpec region spec.sourceId = some spec) (a : SyncAction)
    (h : HoldsComplete s region spec) : HoldsComplete (s.next a) region spec := by
  obtain ⟨r, hr, hfingerprint, hcomplete⟩ := h
  obtain ⟨r', hr', hfingerprint', hchange⟩ := record_step hs hsource a hr hfingerprint
  refine ⟨r', hr', hfingerprint', ?_⟩
  cases hchange with
  | inl hsame => rwa [hsame]
  | inr hrefreshed =>
    obtain ⟨_, _, _, feed, -, -, -, hfeed, -⟩ := hrefreshed.byCommit
    rw [hfeed]
    exact Option.some_ne_none feed

/-- A record that holds a complete feed of its present URL holds one ever after, and the latest claim alone changes
it. -/
theorem complete_calendar_never_lost {s : SnapshotState} (h : snapshotSystem.Reachable s) {region : String}
    {spec : CalendarSourceSpec} (hsource : calendarSourceSpec region spec.sourceId = some spec) :
    (∀ as t, snapshotSystem.Trace s as t → HoldsComplete s region spec → HoldsComplete t region spec) ∧
    (∀ a r r', snapshotSystem.allowed s a → s.records (sourceKey region spec) = some r →
      r.value.urlFingerprint = some (urlFingerprint spec) →
      (s.next a).records (sourceKey region spec) = some r' → r'.value.complete ≠ r.value.complete →
      Refreshed s a (sourceKey region spec) r') ∧
    (∀ claim, s.latestClaim (sourceKey region spec) = some claim → ∃ r anchor now,
      s.records (sourceKey region spec) = some r ∧
      claim.record.value.scheduleAnchorAt = some anchor ∧ claim.record.value.lastAttemptAt = some now ∧
      r.value.nextDueAt = some (anchor + claim.sync.interval * second) ∧
      r.value.retryAfter = some (now + manualCooldownSeconds * second)) := by
  have hsound := sound h
  refine ⟨?_, ?_, ?_⟩
  · intro as t htrace hholds
    have hkept := htrace.invariant (P := fun s => Sound s ∧ HoldsComplete s region spec)
      (fun s a hs ha => ⟨sound_step hs.1 ha, holdsComplete_step hs.1 hsource a hs.2⟩) ⟨hsound, hholds⟩
    exact hkept.2
  · intro a r r' _ hr hfingerprint hr' hchanged
    obtain ⟨r'', hr'', -, hchange⟩ := record_step hsound hsource a hr hfingerprint
    rw [hr'] at hr''
    cases hr''
    cases hchange with
    | inl hsame => exact absurd hsame hchanged
    | inr hrefreshed => exact hrefreshed
  · intro claim hclaim
    obtain ⟨r, hr, hreflects⟩ := hsound.reflected _ claim hclaim
    obtain ⟨⟨anchor, hanchor, hdue⟩, now, hnow, hretry⟩ := (hsound.claims claim (latestClaim_mem hclaim).1).timed
    exact ⟨r, anchor, now, hr, hanchor, hnow, hreflects.nextDueAt.trans hdue, hreflects.retryAfter.trans hretry⟩

end

/-! The Chinese primary calendar, fetched once and then claimed again. -/

namespace SnapshotSample

def primary : CalendarSourceSpec :=
  ⟨"ff14_calendar_primary", "cn_google", "https://calendar.google.com/calendar/ical/up88drvlnnh2t77hbpqq8v33i2cngfh7%40import.calendar.google.com/public/basic.ics"⟩

def feedText : String := "BEGIN:VCALENDAR\r\nEND:VCALENDAR\r\n"

@[reducible]
def hashing : Hashing :=
  ⟨fun text =>
    if text = primary.url then "66c3f3cb4166afea14accc20b0e2ee2d7fcf86ab6d6ecaa0e9212271d0848943"
    else if text = feedText then "215efae54e34ac5657da47b49c8d1bd8ea12649ee1efa838c9a47d7233f18afb" else ""⟩

attribute [local instance] hashing

def sync (service : ℕ) (mode : SyncMode) : SourceSync := ⟨service, "cn", primary, 21600, mode⟩

def start : SnapshotState := ⟨fun _ => none, fun _ => none, [], []⟩

def first : List SyncAction :=
  [.enter 0 (sync 0 .due) 0, .read 0 false, .claim 0 .answered, .fetch 0 second (.response 200 ⟨32, some feedText⟩ (some .complete)),
    .commit 0 .answered]

def fetched : SnapshotState := first.foldl SnapshotState.next start

def answered : {s : SnapshotState // (s.tasks 0).map (fun t => t.sync.service) = some 0} := ⟨fetched, by decide +kernel⟩

def entry : SyncAction := .enter 1 (sync 1 .manual) (300 * second)

def again : List SyncAction := [.read 1 false, .claim 1 .answered, .cancel 1]

def claimed : SnapshotState := again.foldl snapshotSystem.next (snapshotSystem.next fetched entry)

theorem unlocked_of_first {s : SnapshotState} {t : SyncTask} (ht : s.tasks 0 = some t) (hservice : t.sync.service = 0)
    (hothers : ∀ id, id ≠ 0 → s.tasks id = none) : s.unlocked (sync 1 .manual) := by
  intro id t' ht' _ hsame
  by_cases hid : id = 0
  · subst hid
    rw [ht] at ht'
    cases ht'
    rw [hservice] at hsame
    cases hsame
  · rw [hothers id hid] at ht'
    cases ht'

theorem reachable_fetched : snapshotSystem.Reachable fetched := by
  have hempty : start.unlocked (sync 0 .due) := by
    intro id t ht
    cases ht
  refine ⟨start, first, ⟨rfl, rfl, rfl⟩, ?_⟩
  exact .cons ⟨by decide +kernel, hempty⟩ (.cons trivial (.cons trivial (.cons trivial (.cons trivial (.nil _)))))

theorem trace_again : snapshotSystem.Trace fetched (entry :: again) claimed := by
  have hothers : ∀ id, id ≠ 0 → fetched.tasks id = none := by
    intro id hid
    apply tasks_run_other (s := start)
    intro a ha
    have hzero : a.id = 0 := by revert a; decide
    rw [hzero]
    exact hid
  have hfirst : (fetched.tasks 0).map (fun t => t.sync.service) = some 0 := answered.property
  obtain ⟨t, ht, hservice⟩ := Option.map_eq_some_iff.mp hfirst
  have henter : snapshotSystem.allowed fetched entry :=
    ⟨by decide +kernel, unlocked_of_first ht hservice hothers⟩
  have halways : ∀ a ∈ again, ∀ s, snapshotSystem.allowed s a := by
    intro a ha s
    cases a with
    | enter id sync now => simp [again] at ha
    | _ => trivial
  exact .cons henter (.of_always halways _)

end SnapshotSample

attribute [local instance] SnapshotSample.hashing

open SnapshotSample in
theorem complete_calendar_never_lost_claimed_again :
    HoldsComplete fetched "cn" primary ∧ HoldsComplete claimed "cn" primary := by
  have hfetched : HoldsComplete fetched "cn" primary := ⟨_, rfl, rfl, by decide +kernel⟩
  exact ⟨hfetched, (complete_calendar_never_lost reachable_fetched (by decide +kernel)).1 _ claimed trace_again hfetched⟩

end GameLink.Ff14

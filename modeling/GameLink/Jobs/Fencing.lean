import GameLink.Jobs.Safety

namespace GameLink.Jobs

open Foundation Work

structure Run where
  token : String
  jobId : String
  attempt : ℕ

structure RunHistory where
  jobs : JobHistory
  drawn : List String
  runs : List Run
  published : List (String × JobResultRow)

namespace JobAction

def carries (t : String) : JobAction → Prop
  | update _ token _ _ _ _ => token = t
  | publish _ token _ _ _ _ => token = t
  | finish _ token _ _ _ _ _ => token = t
  | _ => False

def draws : JobAction → Option String
  | claim _ _ token _ _ => some token
  | _ => none

def begins (a : JobAction) (s : JobStore) : Option Run :=
  match a with
  | claim jobId revision token now check =>
    match (transaction (Jobs.claim jobId revision token now check) s).1 with
    | .ok (some row) => some ⟨token, jobId, row.attempt⟩
    | _ => none
  | _ => none

def publishes (a : JobAction) (s s' : JobStore) : List (String × JobResultRow) :=
  match a with
  | publish _ token _ _ _ _ => (s'.results.rows.drop s.results.rows.length).map fun e => (token, e)
  | _ => []

end JobAction

def RunHistory.next (sha256 : String → String) (h : RunHistory) (a : JobAction) : RunHistory where
  jobs := h.jobs.next sha256 a
  drawn := a.draws.toList ++ h.drawn
  runs := (a.begins h.jobs.store).toList ++ h.runs
  published := a.publishes h.jobs.store (h.jobs.next sha256 a).store ++ h.published

/-- The calls of `jobSystem`; a claim draws a token that no claim drew before. -/
def runSystem (sha256 : String → String) (limits : Limits) : System RunHistory JobAction where
  start h := (jobSystem sha256 limits).start h.jobs ∧ h.drawn = [] ∧ h.runs = [] ∧ h.published = []
  allowed h a := a.promised limits h.jobs ∧ ∀ t, a.draws = some t → t ∉ h.drawn
  next h a := h.next sha256 a

structure Fenced (s : JobStore) (runs : List Run) (published : List (String × JobResultRow)) : Prop where
  tokens : ∀ r ∈ s.jobs.rows, ∀ t, r.runToken = some t → ⟨t, r.jobId, r.attempt⟩ ∈ runs
  results : ∀ e ∈ s.results.rows, ∃ row, s.jobs.get e.jobId = some row ∧
    ∃ run ∈ runs, run.jobId = e.jobId ∧ run.attempt = row.attempt ∧ (run.token, e) ∈ published

def Retired (t : String) (s : JobStore) : Prop := ∀ r ∈ s.jobs.rows, r.runToken ≠ some t

variable {sha256 : String → String} {limits : Limits} {s s' : JobStore} {t : String}

def Continues (s : JobStore) (t : String) (r' : DurableJob) : Prop :=
  ∃ r ∈ s.jobs.rows, r.jobId = r'.jobId ∧ r.attempt = r'.attempt ∧ r.runToken = some t

theorem continues_self {r : DurableJob} (hr : r ∈ s.jobs.rows) (ht : r.runToken = some t) : Continues s t r :=
  ⟨r, hr, rfl, rfl, ht⟩

variable {f : DurableJob → DurableJob} {p : DurableJob → Bool}

theorem Edited.continues (h : Edited p f s s') {r' : DurableJob}
    (hr' : r' ∈ s'.jobs.rows) (ht : r'.runToken = some t)
    (hf : ∀ r, (f r).runToken = some t → r.runToken = some t ∧ r.attempt = (f r).attempt) : Continues s t r' := by
  obtain ⟨r, hr, rfl⟩ := edited_rows h hr'
  by_cases hp : p r
  · rw [if_pos hp] at ht ⊢
    obtain ⟨hid, -, -⟩ := h
    obtain ⟨hold, ha⟩ := hf r ht
    exact ⟨r, hr, (hid r).symm, ha, hold⟩
  · rw [if_neg hp] at ht ⊢
    exact continues_self hr ht

variable {jobId token now : String}

theorem begins_claim {revision : ℕ} {check : Check}
    (h : (JobAction.claim jobId revision token now check).run sha256 s = (.ok (), s')) :
    Edited (claimable jobId revision now)
        (fun r => { r with
          status := .running, revision := r.revision + 1, runToken := some token, updatedAt := now }) s s' ∧
      ∀ r ∈ s.jobs.rows, claimable jobId revision now r = true →
        (JobAction.claim jobId revision token now check).begins s = some ⟨token, r.jobId, r.attempt⟩ := by
  obtain ⟨gs, hg, hguards⟩ := transaction_ok.mp h
  simp only [JobAction.body, gives_bind, gives_pure] at hg
  obtain ⟨row, v, hg, -, hv⟩ := hg
  subst hv
  obtain ⟨he, hcount⟩ := claim_gives hg
  refine ⟨he, ?_⟩
  intro r hr hc
  have hkey : r.jobId = jobId := jobId_of_claimable hc
  have hget : s.jobs.get jobId = some r := Table.get_eq_some.mpr ⟨hr, hkey⟩
  rcases hcount with ⟨-, hne⟩ | ⟨hrow, -⟩
  · exact absurd (matching_claimable hr hc) hne
  dsimp only at hrow
  rw [he.get, hget, Option.map_some, if_pos hc] at hrow
  have hrun : transaction (claim jobId revision token now check) s = (.ok row, s') :=
    transaction_ok.mpr ⟨gs, hg, hguards⟩
  simp only [JobAction.begins, hrun, hrow, hkey]

variable {a : JobAction}

theorem token_origin {r' : DurableJob} (ho : a.run sha256 s = (.ok (), s')) (hr' : r' ∈ s'.jobs.rows)
    (ht : r'.runToken = some t) : Continues s t r' ∨ a.begins s = some ⟨t, r'.jobId, r'.attempt⟩ := by
  obtain ⟨gs, hg, -⟩ := transaction_ok.mp ho
  cases a with
  | recover now =>
    apply Or.inl
    apply (recover_gives hg).continues hr' ht
    intro r hr
    cases hr
  | submit q freshId check =>
    apply Or.inl
    simp only [JobAction.body, gives_bind, gives_pure] at hg
    obtain ⟨row, _, hg, -, rfl⟩ := hg
    obtain ⟨s₁, hs₁, requests, hs⟩ := submit_gives hg
    dsimp only at hs₁ hs
    subst hs
    rcases hs₁ with rfl | ⟨raw, digest, jobs, -, -, hi, -, rfl⟩
    · exact continues_self hr' ht
    dsimp only at hr'
    rw [Table.rows_of_insert hi, List.mem_append, List.mem_singleton] at hr'
    rcases hr' with hold | rfl
    · exact continues_self hold ht
    · cases ht
  | rejectQueued jobId code now =>
    apply Or.inl
    exact (rejectQueued_gives hg).continues hr' ht fun r hr => ⟨hr, rfl⟩
  | claim jobId revision token now check =>
    obtain ⟨he, hbegins⟩ := begins_claim ho
    obtain ⟨r, hr, rfl⟩ := edited_rows he hr'
    by_cases hp : claimable jobId revision now r
    · rw [if_pos hp] at ht ⊢
      obtain rfl : token = t := Option.some.inj ht
      exact .inr (hbegins r hr hp)
    · rw [if_neg hp] at ht ⊢
      exact .inl (continues_self hr ht)
  | update jobId token progress checkpoint now check =>
    apply Or.inl
    obtain ⟨-, newProgress, newCheckpoint, he⟩ := update_gives hg
    exact he.continues hr' ht fun r hr => ⟨hr, rfl⟩
  | publish jobId token entries now check maxResultBytes =>
    apply Or.inl
    obtain ⟨-, encoded, size, progress, results, -, -, he⟩ := publish_gives hg
    exact he.continues hr' ht fun r hr => ⟨hr, rfl⟩
  | finish jobId token status summary error now check =>
    apply Or.inl
    obtain ⟨newSummary, he⟩ := finish_gives hg
    apply he.continues hr' ht
    intro r hr
    cases hr
  | change c check =>
    apply Or.inl
    simp only [JobAction.body, gives_bind, gives_pure] at hg
    obtain ⟨row, _, hg, -, rfl⟩ := hg
    rcases change_gives hg with ⟨-, -, -, -, -, -, -, he⟩ | ⟨-, -, -, -, he⟩ | ⟨-, rfl⟩
    · apply he.continues hr' ht
      intro r hr
      cases hr
    · apply he.continues hr' ht
      intro r hr
      cases hr
    · exact continues_self hr' ht
  | expire now =>
    apply Or.inl
    simp only [JobAction.body, gives_bind, gives_pure] at hg
    obtain ⟨n, _, hg, -, rfl⟩ := hg
    obtain ⟨p, requests, hs⟩ := expire_gives hg
    dsimp only at hs
    subst hs
    exact continues_self (List.mem_of_mem_filter hr') ht
  | provision principal =>
    apply Or.inl
    simp only [JobAction.body, gives_write, UnitOfWork.mk.injEq] at hg
    obtain ⟨rfl, -⟩ := hg
    exact continues_self hr' ht

def Owned (s : JobStore) : Prop := ∀ e ∈ s.results.rows, ∃ row, s.jobs.get e.jobId = some row

def Backed (a : JobAction) (s s' : JobStore) (e : JobResultRow) : Prop :=
  ∃ row row', s.jobs.get e.jobId = some row ∧ s'.jobs.get e.jobId = some row' ∧ row'.attempt = row.attempt ∧
    (e ∈ s.results.rows ∨ ∃ token, row.runToken = some token ∧ (token, e) ∈ a.publishes s s')

variable {e : JobResultRow}

theorem Edited.backed (h : Edited p f s s') (hs : Owned s)
    (hf : ∀ r, (f r).attempt = r.attempt) (a : JobAction) (he : e ∈ s'.results.rows) :
    Backed a s s' e := by
  have hresults : s'.results = s.results := by
    obtain ⟨hid, -, rfl⟩ := h
    rfl
  rw [hresults] at he
  obtain ⟨row, hrow⟩ := hs e he
  refine ⟨row, if p row then f row else row, hrow, ?_, ?_, .inl he⟩
  · rw [h.get, hrow, Option.map_some]
  split
  · exact hf row
  · rfl

variable {entries : List Json}

theorem backed_publish {check : Check} {limit : ℤ} {gs}
    (h : (publish jobId token entries now check limit).Gives ⟨s, []⟩ () ⟨s', gs⟩) (hs : Owned s)
    (he : e ∈ s'.results.rows) : Backed (.publish jobId token entries now check limit) s s' e := by
  obtain ⟨⟨row, hrow, -, htoken⟩, encoded, size, progress, results, -, hrows, hedit⟩ := publish_gives h
  have hresults : s'.results = results := by
    obtain ⟨hid, -, hs⟩ := hedit
    exact congrArg JobStore.results hs
  have hget : ∀ r, s.jobs.get e.jobId = some r → ∃ r', s'.jobs.get e.jobId = some r' ∧ r'.attempt = r.attempt := by
    intro r hr
    have hedited := hedit.get e.jobId
    dsimp only at hedited
    rw [hr, Option.map_some] at hedited
    refine ⟨_, hedited, ?_⟩
    split
    · rfl
    · rfl
  rw [hresults, hrows, List.mem_append] at he
  rcases he with hold | hnew
  · obtain ⟨r, hr⟩ := hs e hold
    obtain ⟨r', hr', hattempt⟩ := hget r hr
    exact ⟨r, r', hr, hr', hattempt, .inl hold⟩
  have hjob : e.jobId = jobId := by
    obtain ⟨x, -, rfl⟩ := List.mem_map.mp hnew
    rfl
  have hr : s.jobs.get e.jobId = some row := by
    rw [hjob]
    exact hrow
  obtain ⟨r', hr', hattempt⟩ := hget row hr
  refine ⟨row, r', hr, hr', hattempt, .inr ⟨token, htoken, ?_⟩⟩
  rw [JobAction.publishes, hresults, hrows, List.drop_left]
  exact List.mem_map_of_mem hnew

theorem Retried.backed {c : Change} (h : Retried c s s') (hs : Owned s) (a : JobAction)
    (he : e ∈ s'.results.rows) : Backed a s s' e := by
  obtain ⟨-, -, -, -, -, -, hedit⟩ := h
  have hget := hedit.get e.jobId
  have hresults : s'.results = s.results.delete fun r => r.jobId = c.jobId := by
    obtain ⟨hid, -, rfl⟩ := hedit
    rfl
  rw [hresults] at he
  obtain ⟨he, hne⟩ := List.mem_filter.mp he
  obtain ⟨row, hrow⟩ := hs e he
  have hkey : row.jobId ≠ c.jobId := by
    rw [show row.jobId = e.jobId from Table.key_of_get hrow]
    simpa using hne
  refine ⟨row, row, hrow, ?_, rfl, .inl he⟩
  dsimp only at hget
  rw [hget, hrow, Option.map_some, if_neg (by simpa using hkey)]

theorem backed_expire {now : String} {n : ℕ} {gs} (h : (expire now).Gives ⟨s, []⟩ n ⟨s', gs⟩) (hs : Owned s)
    (a : JobAction) (he : e ∈ s'.results.rows) : Backed a s s' e := by
  obtain ⟨p, requests, hs'⟩ := expire_gives h
  dsimp only at hs'
  subst hs'
  obtain ⟨he, hgone⟩ := List.mem_filter.mp he
  obtain ⟨row, hrow⟩ := hs e he
  refine ⟨row, row, hrow, ?_, rfl, .inl he⟩
  dsimp only
  rw [Table.get_delete, hrow, Option.filter_eq_some_iff]
  refine ⟨rfl, ?_⟩
  by_contra hp
  have hmem : e.jobId ∈ (s.jobs.rows.filter p).map DurableJob.jobId := by
    apply List.mem_map.mpr
    exact ⟨row, List.mem_filter.mpr ⟨Table.mem_of_get hrow, by simpa using hp⟩, Table.key_of_get hrow⟩
  simp [hmem] at hgone

theorem backed_same (hs : Owned s) (a : JobAction) (he : e ∈ s.results.rows)
    (hjobs : s'.jobs = s.jobs) : Backed a s s' e := by
  obtain ⟨row, hrow⟩ := hs e he
  exact ⟨row, row, hrow, hjobs ▸ hrow, rfl, .inl he⟩

theorem result_origin (hs : Owned s) (ho : a.run sha256 s = (.ok (), s'))
    (he : e ∈ s'.results.rows) : Backed a s s' e := by
  obtain ⟨gs, hg, -⟩ := transaction_ok.mp ho
  cases a with
  | recover now => exact (recover_gives hg).backed hs (fun _ => rfl) _ he
  | submit q freshId check =>
    simp only [JobAction.body, gives_bind, gives_pure] at hg
    obtain ⟨row, _, hg, -, rfl⟩ := hg
    obtain ⟨s₁, hs₁, requests, hs'⟩ := submit_gives hg
    dsimp only at hs₁ hs'
    subst hs'
    rcases hs₁ with rfl | ⟨raw, digest, jobs, -, -, hi, -, rfl⟩
    · exact backed_same hs _ he rfl
    · obtain ⟨row, hrow⟩ := hs e he
      exact ⟨row, row, hrow, Table.kept_of_insert hi hrow, rfl, .inl he⟩
  | rejectQueued jobId code now => exact (rejectQueued_gives hg).backed hs (fun _ => rfl) _ he
  | claim jobId revision token now check => exact (begins_claim ho).1.backed hs (fun _ => rfl) _ he
  | update jobId token progress checkpoint now check =>
    obtain ⟨-, newProgress, newCheckpoint, hedit⟩ := update_gives hg
    exact hedit.backed hs (fun _ => rfl) _ he
  | publish jobId token entries now check maxResultBytes => exact backed_publish hg hs he
  | finish jobId token status summary error now check =>
    obtain ⟨newSummary, hedit⟩ := finish_gives hg
    exact hedit.backed hs (fun _ => rfl) _ he
  | change c check =>
    simp only [JobAction.body, gives_bind, gives_pure] at hg
    obtain ⟨row, _, hg, -, rfl⟩ := hg
    rcases change_gives hg with ⟨-, hr⟩ | ⟨-, -, -, -, hedit⟩ | ⟨-, rfl⟩
    · exact hr.backed hs _ he
    · exact hedit.backed hs (fun _ => rfl) _ he
    · exact backed_same hs _ he rfl
  | expire now =>
    simp only [JobAction.body, gives_bind, gives_pure] at hg
    obtain ⟨n, _, hg, -, rfl⟩ := hg
    exact backed_expire hg hs _ he
  | provision principal =>
    simp only [JobAction.body, gives_write, UnitOfWork.mk.injEq] at hg
    obtain ⟨rfl, -⟩ := hg
    exact backed_same hs _ he rfl

variable {h : RunHistory}

theorem Fenced.next (hf : Fenced h.jobs.store h.runs h.published) :
    Fenced (h.next sha256 a).jobs.store (h.next sha256 a).runs (h.next sha256 a).published := by
  change Fenced (h.jobs.next sha256 a).store ((a.begins h.jobs.store).toList ++ h.runs)
    (a.publishes h.jobs.store (h.jobs.next sha256 a).store ++ h.published)
  rcases transaction_cases (a.body sha256) h.jobs.store with ⟨x, s, ho⟩ | ⟨e, he⟩
  · rw [next_of_ok ho]
    constructor
    · intro r' hr' t ht
      rcases token_origin ho hr' ht with ⟨r, hr, hjob, hattempt, htoken⟩ | hbegins
      · rw [← hjob, ← hattempt]
        exact List.mem_append_right _ (hf.tokens r hr t htoken)
      · rw [hbegins]
        exact List.mem_append_left _ List.mem_cons_self
    · intro e he
      have howned : Owned h.jobs.store := by
        intro e he
        obtain ⟨row, hrow, -⟩ := hf.results e he
        exact ⟨row, hrow⟩
      obtain ⟨row, row', hrow, hrow', hattempt, hback⟩ := result_origin howned ho he
      refine ⟨row', hrow', ?_⟩
      rw [hattempt]
      rcases hback with hold | ⟨token, htoken, hpub⟩
      · obtain ⟨r, hr, run, hrun, hjob, hat, hpub⟩ := hf.results e hold
        obtain rfl : row = r := Option.some.inj (hrow.symm.trans hr)
        exact ⟨run, List.mem_append_right _ hrun, hjob, hat, List.mem_append_right _ hpub⟩
      have hrun := hf.tokens row (Table.mem_of_get hrow) token htoken
      have hjob : row.jobId = e.jobId := Table.key_of_get hrow
      exact ⟨_, List.mem_append_right _ hrun, hjob, rfl, List.mem_append_left _ hpub⟩
  · rw [next_of_error he]
    constructor
    · intro r hr t ht
      exact List.mem_append_right _ (hf.tokens r hr t ht)
    intro e he
    obtain ⟨row, hrow, run, hrun, hjob, hat, hpub⟩ := hf.results e he
    exact ⟨row, hrow, run, List.mem_append_right _ hrun, hjob, hat, List.mem_append_right _ hpub⟩

structure Numbered (h : RunHistory) : Prop where
  drawn : ∀ run ∈ h.runs, run.token ∈ h.drawn
  unique : ∀ run ∈ h.runs, ∀ run' ∈ h.runs, run.token = run'.token → run = run'

theorem begins_token {run : Run} (h : a.begins s = some run) : a.draws = some run.token := by
  unfold JobAction.begins at h
  split at h
  · split at h
    · cases h
      rfl
    · cases h
  · cases h

theorem Numbered.next (hn : Numbered h) (hfresh : ∀ t, a.draws = some t → t ∉ h.drawn) :
    Numbered (h.next sha256 a) := by
  have hcases : ∀ run ∈ (h.next sha256 a).runs, a.draws = some run.token ∧ a.begins h.jobs.store = some run ∨ run ∈ h.runs := by
    intro run hrun
    rcases List.mem_append.mp hrun with hnew | hold
    · rw [Option.mem_toList] at hnew
      exact .inl ⟨begins_token hnew, hnew⟩
    · exact .inr hold
  constructor
  · intro run hrun
    apply List.mem_append.mpr
    rcases hcases run hrun with ⟨hdraws, -⟩ | hold
    · rw [hdraws]
      exact .inl List.mem_cons_self
    · exact .inr (hn.drawn run hold)
  · intro run hrun run' hrun' htoken
    rcases hcases run hrun with ⟨hdraws, hbegins⟩ | hold <;> rcases hcases run' hrun' with ⟨hdraws', hbegins'⟩ | hold'
    · exact Option.some.inj (hbegins.symm.trans hbegins')
    · exact absurd (htoken ▸ hn.drawn run' hold') (hfresh run.token hdraws)
    · exact absurd (htoken ▸ hn.drawn run hold) (hfresh run'.token hdraws')
    · exact hn.unique run hold run' hold' htoken

theorem reachable_fenced (hr : (runSystem sha256 limits).Reachable h) :
    Fenced h.jobs.store h.runs h.published ∧ Numbered h := by
  apply hr.invariant (P := fun h => Fenced h.jobs.store h.runs h.published ∧ Numbered h)
  · rintro h ⟨⟨hjobs, -, hresults⟩, -, hruns, -⟩
    refine ⟨⟨?_, ?_⟩, ⟨?_, ?_⟩⟩
    · simp [hjobs, Table.empty]
    · simp [hresults, Table.empty]
    · simp [hruns]
    · simp [hruns]
  · rintro h a ⟨hf, hn⟩ ⟨-, hfresh⟩
    exact ⟨hf.next, hn.next hfresh⟩

theorem begins_draws (hdraw : a.draws ≠ some t) {jobId : String} {attempt : ℕ} :
    a.begins s ≠ some ⟨t, jobId, attempt⟩ := fun h => hdraw (begins_token h)

theorem Retired.next (ht : Retired t h.jobs.store) (hdrawn : t ∈ h.drawn)
    (hfresh : ∀ t, a.draws = some t → t ∉ h.drawn) : Retired t (h.next sha256 a).jobs.store := by
  change Retired t (h.jobs.next sha256 a).store
  rcases transaction_cases (a.body sha256) h.jobs.store with ⟨x, s, ho⟩ | ⟨e, he⟩
  · rw [next_of_ok ho]
    intro r' hr' hrt
    rcases token_origin ho hr' hrt with ⟨r, hr, -, -, htoken⟩ | hbegins
    · exact ht r hr htoken
    · exact begins_draws (fun hdraw => hfresh t hdraw hdrawn) hbegins
  · rw [next_of_error he]
    exact ht

theorem Retired.trace {h h' : RunHistory} {as : List JobAction} (htrace : (runSystem sha256 limits).Trace h as h')
    (ht : Retired t h.jobs.store) (hdrawn : t ∈ h.drawn) : Retired t h'.jobs.store := by
  have hkept := htrace.invariant (P := fun h => Retired t h.jobs.store ∧ t ∈ h.drawn) ?_ ⟨ht, hdrawn⟩
  · exact hkept.1
  · rintro h a ⟨ht, hdrawn⟩ ⟨-, hfresh⟩
    exact ⟨ht.next hdrawn hfresh, List.mem_append_right _ hdrawn⟩

theorem Retired.not_held (ht : Retired t s) (jobId : String) : ¬ Held jobId t s := by
  rintro ⟨row, hrow, -, htoken⟩
  exact ht row (Table.mem_of_get hrow) htoken

theorem Retired.unchanged (ht : Retired t s) (ha : a.carries t) : (a.run sha256 s).2 = s := by
  rcases transaction_cases (a.body sha256) s with ⟨x, s', ho⟩ | ⟨e, he⟩
  · obtain ⟨gs, hg, -⟩ := transaction_ok.mp ho
    have hsame : s' = s := by
      cases a with
      | update jobId token progress checkpoint now check =>
        obtain rfl : token = t := ha
        exact absurd (update_gives hg).1 (ht.not_held jobId)
      | publish jobId token entries now check maxResultBytes =>
        obtain rfl : token = t := ha
        exact absurd (publish_gives hg).1 (ht.not_held jobId)
      | finish jobId token status summary error now check =>
        obtain rfl : token = t := ha
        obtain ⟨newSummary, hid, -, hs⟩ := finish_gives hg
        have hnone : ∀ r ∈ s.jobs.rows, (r.jobId = jobId && r.status = .running && r.runToken = some token) = false := by
          intro r hr
          simp [ht r hr]
        dsimp only at hs
        rw [hs, Table.update_of_none hnone]
      | _ => exact absurd ha id
    unfold JobAction.run
    rw [ho, hsame]
  · unfold JobAction.run
    rw [he]

variable {offset limit : ℕ}

theorem results_rows {owner module jobId : String} {row : DurableJob}
    (h : transaction (results owner module jobId offset limit) s = (.ok (row, entries), s')) :
    s.jobs.get jobId = some row ∧ entries = (resultRows jobId offset limit s).map JobResultRow.entry := by
  obtain ⟨gs, hg, -⟩ := transaction_ok.mp h
  simp only [results, gives_bind, owned_gives, gives_read, gives_pure, Prod.mk.injEq] at hg
  obtain ⟨_, _, ⟨⟨hrow, -, -⟩, rfl⟩, _, _, ⟨rfl, rfl⟩, ⟨rfl, rfl⟩, -⟩ := hg
  exact ⟨hrow, rfl⟩

theorem mem_resultRows {jobId : String}
    (he : e ∈ resultRows jobId offset limit s) : e ∈ s.results.rows ∧ e.jobId = jobId := by
  have hmem := (List.mem_insertionSort _).mp (List.mem_of_mem_take he)
  obtain ⟨hrows, hp⟩ := List.mem_filter.mp hmem
  exact ⟨hrows, of_decide_eq_true (Bool.and_eq_true_iff.mp hp).1⟩

/-- Two runs never share a token, a superseded one writes nothing, and a read shows entries of its own attempt. -/
theorem superseded_run_writes_nothing {h : RunHistory} (hr : (runSystem sha256 limits).Reachable h) :
    (∀ run ∈ h.runs, ∀ run' ∈ h.runs, run.token = run'.token → run = run') ∧
      (∀ run ∈ h.runs, (∀ row, h.jobs.store.jobs.get run.jobId = some row → row.runToken ≠ some run.token) →
        ∀ as h', (runSystem sha256 limits).Trace h as h' → ∀ a : JobAction, a.carries run.token →
          (a.run sha256 h'.jobs.store).2 = h'.jobs.store) ∧ ∀ owner module jobId offset limit row entries s,
        transaction (results owner module jobId offset limit) h.jobs.store = (.ok (row, entries), s) →
          ∀ entry ∈ entries, ∃ run ∈ h.runs, run.jobId = jobId ∧ run.attempt = row.attempt ∧
            ∃ e : JobResultRow, e.jobId = jobId ∧ e.entry = entry ∧ (run.token, e) ∈ h.published := by
  obtain ⟨hf, hn⟩ := reachable_fenced hr
  refine ⟨hn.unique, ?_, ?_⟩
  · intro run hrun hcleared as h' htrace a ha
    have hretired : Retired run.token h.jobs.store := by
      intro r hmem ht
      have hsame : ⟨run.token, r.jobId, r.attempt⟩ = run := hn.unique _ (hf.tokens r hmem _ ht) run hrun rfl
      have hjob : r.jobId = run.jobId := congrArg Run.jobId hsame
      exact hcleared r (Table.get_eq_some.mpr ⟨hmem, hjob⟩) ht
    exact (hretired.trace htrace (hn.drawn run hrun)).unchanged ha
  · intro owner module jobId offset limit row entries s hread entry hentry
    obtain ⟨hrow, rfl⟩ := results_rows hread
    obtain ⟨e, he, rfl⟩ := List.mem_map.mp hentry
    obtain ⟨hmem, rfl⟩ := mem_resultRows he
    obtain ⟨row', hrow', run, hrun, hjob, hattempt, hpub⟩ := hf.results e hmem
    obtain rfl : row = row' := Option.some.inj (hrow.symm.trans hrow')
    exact ⟨run, hrun, hjob, hattempt, e, rfl, rfl, hpub⟩

def retriedRun : List JobAction :=
  [.submit oneSubmission "j" openCheck, .claim "j" 1 "t" "2024-01-02T00:00:00+00:00" openCheck,
    .publish "j" "t" [.obj [("x", .int 5)]] "2024-01-02T00:00:01+00:00" openCheck 1000,
    .change ⟨"p", "m", "j", 3, false, "2024-01-02T00:00:02+00:00", 1, 2⟩ openCheck,
    .change ⟨"p", "m", "j", 4, true, "2024-01-02T00:00:03+00:00", 1, 2⟩ openCheck,
    .claim "j" 5 "u" "2024-01-02T00:00:04+00:00" openCheck,
    .publish "j" "u" [.obj [("x", .int 6)]] "2024-01-02T00:00:05+00:00" openCheck 1000]

def emptyRuns : RunHistory := ⟨⟨⟨["p"], .empty, .empty, .empty⟩, fun _ => []⟩, [], [], []⟩

theorem superseded_run_writes_nothing_one_retry : let h := retriedRun.foldl (RunHistory.next oneDigest) emptyRuns
    h.runs = [⟨"u", "j", 2⟩, ⟨"t", "j", 1⟩] ∧
      (∀ a : JobAction, a.carries "t" → (a.run oneDigest h.jobs.store).2 = h.jobs.store) ∧
      ∃ row, transaction (results "p" "m" "j" 0 10) h.jobs.store = (.ok (row, [.obj [("x", .int 6)]]), h.jobs.store) ∧
        ∃ run ∈ h.runs, run.attempt = row.attempt := by
  intro h
  have hplain : ∀ n : ℕ, ∀ entry ∈ [Json.obj [("x", .int n)]], ∀ resource text,
      entry.field "resource" = some resource → resource.field "size_bytes" ≠ some (.float text) := by
    intro n entry hentry resource text hfield
    rw [List.mem_singleton] at hentry
    subst hentry
    cases hfield
  have hr : (runSystem oneDigest ⟨2, fun _ _ => 1⟩).Reachable h := by
    have hstart : (runSystem oneDigest ⟨2, fun _ _ => 1⟩).Reachable emptyRuns :=
      .of_start ⟨⟨rfl, rfl, rfl⟩, rfl, rfl, rfl⟩
    have htrace : (runSystem oneDigest ⟨2, fun _ _ => 1⟩).Trace emptyRuns retriedRun h := by
      unfold retriedRun
      refine .cons ⟨⟨le_rfl, le_rfl⟩, by simp [JobAction.draws]⟩ ?_
      refine .cons ⟨trivial, by decide⟩ ?_
      refine .cons ⟨hplain 5, by simp [JobAction.draws]⟩ ?_
      refine .cons ⟨⟨le_rfl, fun _ _ => le_rfl⟩, by simp [JobAction.draws]⟩ ?_
      refine .cons ⟨⟨le_rfl, fun _ _ => le_rfl⟩, by simp [JobAction.draws]⟩ ?_
      refine .cons ⟨trivial, by decide⟩ ?_
      exact .cons ⟨hplain 6, by simp [JobAction.draws]⟩ (.nil _)
    exact hstart.trace htrace
  have hruns : h.runs = [⟨"u", "j", 2⟩, ⟨"t", "j", 1⟩] := by rfl
  have htoken : (h.jobs.store.jobs.get "j").map DurableJob.runToken = some (some "u") := by rfl
  obtain ⟨row, hrow, hu⟩ := Option.map_eq_some_iff.mp htoken
  obtain ⟨-, hstale, hread⟩ := superseded_run_writes_nothing hr
  refine ⟨hruns, ?_, ?_⟩
  · apply hstale ⟨"t", "j", 1⟩ _ _ [] h (.nil _)
    · rw [hruns]
      exact List.mem_cons_of_mem _ List.mem_cons_self
    intro row' hrow'
    obtain rfl : row = row' := Option.some.inj (hrow.symm.trans hrow')
    rw [hu]
    decide
  · have hpage : (h.jobs.store.jobs.get "j").map (fun _ => transaction (results "p" "m" "j" 0 10) h.jobs.store) =
        (h.jobs.store.jobs.get "j").map fun row => (.ok (row, [.obj [("x", .int 6)]]), h.jobs.store) := by rfl
    rw [hrow, Option.map_some, Option.map_some] at hpage
    have hpage := Option.some.inj hpage
    obtain ⟨run, hrun, -, hattempt, -⟩ := hread _ _ _ _ _ _ _ _ hpage _ List.mem_cons_self
    exact ⟨row, hpage, run, hrun, hattempt⟩

end GameLink.Jobs

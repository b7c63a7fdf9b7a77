import GameLink.Resources.Opens

namespace GameLink.Resources

open Foundation Contracts

def Stage.operation : Stage → Option String
  | mark operation => some operation
  | replace operation => some operation
  | discard operation => some operation
  | _ => none

def Stage.remaining : Stage → ℕ
  | check => 20
  | registration => 19
  | entry => 18
  | pins _ => 17
  | usage _ => 16
  | own _ _ _ => 15
  | loop _ => 14
  | candidates _ _ => 13
  | evict _ _ _ => 12
  | unlink _ _ _ => 11
  | unlinkMarker _ _ _ => 10
  | finish _ _ _ => 9
  | evicted _ _ => 8
  | inspect => 7
  | stage => 6
  | mark _ => 5
  | replace _ => 4
  | settle => 3
  | confirm _ => 2
  | final _ => 1
  | _ => 0

def Stage.fails : Stage → Bool
  | discard _ => true
  | failed => true
  | _ => false

section

variable {w : World} {ref : Ref}

/-- Every entry has its row of `assets`, and every file has one too, or the marker that `recover_orphans` finds. -/
structure World.Recorded (w : World) : Prop where
  rows : ∀ ref, w.inventory.sizeAt ref ≠ none → w.inventory.assets.get ref ≠ none
  files : ∀ ref, w.files.final ref ≠ none → w.inventory.assets.get ref ≠ none ∨ w.files.pending ref = true

namespace World

variable {s : Inventory}

theorem Recorded.mark {now : Instant} (h : w.Recorded) (hs : Inventory.Marked w.inventory ref now s) :
    Recorded { w with inventory := s } where
  rows k hk := by
    change s.sizeAt k ≠ none at hk
    change s.assets.get k ≠ none
    rw [hs.sizeAt] at hk
    rw [hs.assets]
    exact h.rows k hk
  files k hk := by
    change s.assets.get k ≠ none ∨ _
    rw [hs.assets]
    exact h.files k hk

theorem Recorded.finish {n : ℕ} (h : w.Recorded) (hs : Inventory.Finished w.inventory ref n s)
    (hnone : w.files.final ref = none) : Recorded { w with inventory := s } where
  rows k hk := by
    change s.sizeAt k ≠ none at hk
    change s.assets.get k ≠ none
    rw [hs.sizeAt] at hk
    rw [hs.assets]
    by_cases href : k = ref
    · rw [if_pos href] at hk
      exact absurd rfl hk
    · rw [if_neg href] at hk ⊢
      exact h.rows k hk
  files k hk := by
    change s.assets.get k ≠ none ∨ _
    rw [hs.assets]
    by_cases href : k = ref
    · rw [href] at hk
      exact absurd hnone hk
    · rw [if_neg href]
      exact h.files k hk

theorem Recorded.register {m : Inventory.Registration} {adopted : Bool} (h : w.Recorded)
    (hs : Inventory.Registered w.inventory m adopted s) : Recorded { w with inventory := s } where
  rows k hk := by
    change s.sizeAt k ≠ none at hk
    change s.assets.get k ≠ none
    rw [hs.assets]
    by_cases href : k = m.ref
    · rw [if_pos href]
      exact Option.some_ne_none _
    rw [hs.sizeAt, if_neg fun hboth => href hboth.1] at hk
    rw [if_neg href]
    exact h.rows k hk
  files k hk := by
    change s.assets.get k ≠ none ∨ _
    rw [hs.assets]
    by_cases href : k = m.ref
    · rw [if_pos href]
      exact .inl (Option.some_ne_none _)
    · rw [if_neg href]
      exact h.files k hk

theorem Recorded.unlinkFinal (h : w.Recorded) : (w.unlinkFinal ref).Recorded where
  rows := h.rows
  files k hk := by
    change Function.update w.files.final ref none k ≠ none at hk
    by_cases href : k = ref
    · rw [href, Function.update_self] at hk
      exact absurd rfl hk
    · rw [Function.update_of_ne href] at hk
      exact h.files k hk

theorem Recorded.unlinkPending (h : w.Recorded) (href : w.files.final ref = none ∨ w.inventory.assets.get ref ≠ none) :
    (w.unlinkPending ref).Recorded where
  rows := h.rows
  files k hk := by
    change _ ∨ Function.update w.files.pending ref false k = true
    by_cases hk' : k = ref
    · rw [hk'] at hk ⊢
      exact .inl (href.resolve_left hk)
    · rw [Function.update_of_ne hk']
      exact h.files k hk

theorem Recorded.writePending (h : w.Recorded) : (w.writePending ref).Recorded where
  rows := h.rows
  files k hk := by
    change _ ∨ Function.update w.files.pending ref true k = true
    by_cases hk' : k = ref
    · rw [hk', Function.update_self]
      exact .inr rfl
    · rw [Function.update_of_ne hk']
      exact h.files k hk

theorem Recorded.replaceFinal {operation : String} {content : Content} (h : w.Recorded)
    (hpending : w.files.pending ref = true) : (w.replaceFinal operation ref content).Recorded where
  rows := h.rows
  files k hk := by
    change Function.update w.files.final ref (some content) k ≠ none at hk
    by_cases hk' : k = ref
    · rw [hk']
      exact .inr hpending
    · rw [Function.update_of_ne hk'] at hk
      exact h.files k hk

end World

end

section

variable [ContentHashing] {c : CachePolicies} {w w' : World} {job : Job} {ref : Ref} {st : Stage} {a : Action}
  {answer : Answer}

def Stage.Covered (w : World) (job : Job) : Stage → Prop
  | replace _ => w.files.pending job.ref = true
  | confirm _ => w.inventory.assets.get job.ref ≠ none
  | _ => True

structure Job.Accounted (w : World) (job : Job) : Prop where
  current : job.current ≠ none → w.inventory.assets.get job.ref ≠ none
  covered : job.stage.Covered w job
  held : ∀ operation, w.files.staged operation ≠ none → job.stage.operation = some operation

structure World.Accounted (w : World) : Prop extends World.Recorded w where
  job : ∀ job, w.active = some job → job.Accounted w
  staged : w.active = none → ∀ operation, w.files.staged operation = none

namespace World

theorem Accounted.of_goto {g : Stage} (h : w.Recorded)
    (hcurrent : job.current ≠ none → w.inventory.assets.get job.ref ≠ none) (hcovered : g.Covered w job)
    (hheld : ∀ operation, w.files.staged operation ≠ none → g.operation = some operation) : (w.goto job g).Accounted where
  rows := h.rows
  files := h.files
  job := by
    rintro _ ⟨⟩
    refine ⟨hcurrent, ?_, hheld⟩
    cases g with
    | _ => exact hcovered
  staged := by rintro ⟨⟩

theorem Accounted.checked (h : w.Recorded) (hjob : job.Accounted w) (hnone : job.stage.operation = none)
    (hnext : w'.Accounted) : (w.checked job answer w').Accounted := by
  unfold World.checked
  split
  · exact hnext
  apply Accounted.of_goto (g := .failed) h hjob.current trivial
  intro operation hheld
  exact hnone.symm.trans (hjob.held operation hheld)

theorem Accounted.advance (hw : Sound c w) (h : w.Accounted) (hactive : w.active = some job) :
    (w.advance c job answer).Accounted := by
  have hjob := h.job job hactive
  have hst := hw.stage job hactive
  have hrecorded := h.toRecorded
  -- without an operation nothing is staged
  have hfree : ∀ {st : Stage}, job.stage.operation = none →
      ∀ operation, w.files.staged operation ≠ none → st.operation = some operation := by
    intro st hnone operation hheld
    have hsome := hjob.held operation hheld
    rw [hnone] at hsome
    cases hsome
  have hcleared : ∀ {st : Stage} {operation : String}, job.stage.operation = some operation →
      ∀ operation', Function.update w.files.staged operation none operation' ≠ none → st.operation = some operation' := by
    intro st operation hsome operation' hheld
    by_cases hsame : operation' = operation
    · rw [hsame, Function.update_self] at hheld
      exact absurd rfl hheld
    · rw [Function.update_of_ne hsame] at hheld
      exact absurd (Option.some.inj (hsome.symm.trans (hjob.held operation' hheld))).symm hsame
  have hgoto : ∀ {st : Stage}, job.stage.operation = none → st.Covered w job → (w.goto job st).Accounted :=
    fun hnone hcovered => Accounted.of_goto hrecorded hjob.current hcovered (hfree hnone)
  have hproceed : ∀ {r : Room} {p : ResourceCachePolicy} {rest : List Victim}, job.stage.operation = none →
      (w.goto job (r.proceed p job.size rest)).Accounted := by
    intro r p rest hnone
    apply hgoto hnone
    unfold Room.proceed
    split
    · trivial
    cases rest with
    | nil => trivial
    | cons v rest => trivial
  have hleave : ∀ {r : Room} {p : ResourceCachePolicy}, job.stage.operation = none →
      (w.goto job (r.leave p job.size)).Accounted := by
    intro r p hnone
    apply hgoto hnone
    unfold Room.leave
    split
    · trivial
    split
    · trivial
    · trivial
  have hcovered := hjob.covered
  unfold World.advance
  cases hstage : job.stage with
  | check =>
    rw [hstage] at hfree hgoto
    exact Accounted.checked hrecorded hjob (by rw [hstage]; rfl)
      (Accounted.of_goto hrecorded hjob.current trivial (hfree rfl))
  | registration =>
    rw [hstage] at hfree
    exact Accounted.of_goto hrecorded id trivial (hfree rfl)
  | entry =>
    rw [hstage] at hfree hgoto
    dsimp only
    split
    · split
      · exact hgoto rfl trivial
      · exact Accounted.of_goto hrecorded hjob.current trivial (hfree rfl)
    · exact Accounted.of_goto hrecorded hjob.current trivial (hfree rfl)
  | pins excluded =>
    rw [hstage] at hgoto
    exact hgoto rfl trivial
  | usage excluded =>
    rw [hstage] at hgoto
    exact hgoto rfl trivial
  | own excluded used count =>
    rw [hstage] at hgoto
    exact hgoto rfl trivial
  | loop r =>
    rw [hstage] at hgoto hleave
    dsimp only
    split
    · exact Accounted.checked hrecorded hjob (by rw [hstage]; rfl) (hgoto rfl trivial)
    · exact hleave rfl
  | candidates r protectRaw =>
    rw [hstage] at hgoto hleave
    dsimp only
    cases job.fresh r protectRaw (c.of job.request.scope) w.inventory with
    | nil => exact hleave rfl
    | cons v rest => exact hgoto rfl trivial
  | evict r v rest =>
    rw [hstage] at hfree hproceed
    dsimp only
    unfold World.tryEvict
    split
    · exact hproceed rfl
    apply Accounted.checked hrecorded hjob (by rw [hstage]; rfl)
    cases hmark : w.inventory.managedMarkEvicting (job.victim v) w.clock with
    | mk marked s =>
      cases marked with
      | false => exact hproceed rfl
      | true =>
        have hs := Inventory.marked_of_mark hmark
        refine Accounted.of_goto (hrecorded.mark hs) ?_ trivial (hfree rfl)
        change _ → s.assets.get _ ≠ none
        rw [hs.assets]
        exact hjob.current
  | unlink r v rest =>
    rw [hstage] at hfree
    exact Accounted.checked hrecorded hjob (by rw [hstage]; rfl)
      (Accounted.of_goto hrecorded.unlinkFinal hjob.current trivial (hfree rfl))
  | unlinkMarker r v rest =>
    rw [hstage] at hst hfree
    exact Accounted.of_goto (hrecorded.unlinkPending (.inl hst.2.2.2)) hjob.current trivial (hfree rfl)
  | finish r v rest =>
    rw [hstage] at hst hfree
    obtain ⟨-, -, hv, hnone⟩ := hst
    obtain ⟨e, he, -⟩ := Option.map_eq_some_iff.mp hv.size
    have hmarked := hv.marked
    rw [Inventory.evictingAt, he] at hmarked
    have hs := Inventory.finished_of_finish he (Option.some.inj hmarked)
    apply Accounted.checked hrecorded hjob (by rw [hstage]; rfl)
    refine Accounted.of_goto (hrecorded.finish hs hnone) ?_ trivial (hfree rfl)
    change _ → (w.inventory.managedFinishEviction (job.victim v)).assets.get job.ref ≠ none
    rw [hs.assets, if_neg (Job.victim_ne hv.other)]
    exact hjob.current
  | evicted r rest =>
    rw [hstage] at hproceed
    exact Accounted.checked hrecorded hjob (by rw [hstage]; rfl) (hproceed rfl)
  | inspect =>
    rw [hstage] at hgoto
    apply Accounted.checked hrecorded hjob (by rw [hstage]; rfl)
    apply hgoto rfl
    split
    · trivial
    · trivial
  | stage =>
    rw [hstage] at hfree
    apply Accounted.of_goto (w := w.writeStaged answer.operation job.ref job.request.content) (g := .mark answer.operation)
      ⟨hrecorded.rows, hrecorded.files⟩ hjob.current trivial
    intro operation hheld
    change Function.update w.files.staged answer.operation _ operation ≠ none at hheld
    by_cases hsame : operation = answer.operation
    · rw [hsame]
      rfl
    rw [Function.update_of_ne hsame] at hheld
    have hnot := @hfree .check rfl operation hheld
    cases hnot
  | mark operation =>
    have hheld := hjob.held
    rw [hstage] at hheld
    dsimp only
    split
    · exact Accounted.of_goto hrecorded.writePending hjob.current (Function.update_self ..) hheld
    · exact Accounted.of_goto hrecorded hjob.current trivial hheld
  | replace operation =>
    rw [hstage] at hst hcleared hcovered
    dsimp only
    rw [hst.2]
    exact Accounted.of_goto (g := .settle) (hrecorded.replaceFinal hcovered) hjob.current trivial (hcleared rfl)
  | discard operation =>
    rw [hstage] at hcleared
    exact Accounted.of_goto (w := w.unlinkStaged operation) (g := .failed) ⟨hrecorded.rows, hrecorded.files⟩ hjob.current
      trivial (hcleared rfl)
  | settle =>
    rw [hstage] at hst hfree hgoto
    apply Accounted.checked hrecorded hjob (by rw [hstage]; rfl)
    unfold World.settleStore
    split
    · cases hcurrent : job.current with
      | none => exact hgoto rfl trivial
      | some row =>
        apply hgoto rfl
        apply hjob.current
        rw [hcurrent]
        exact Option.some_ne_none row
    · have hs := Inventory.registered_of_register w.inventory (job.registration (c.of job.request.scope))
      have hrow : (w.inventory.registerManaged (job.registration (c.of job.request.scope))).assets.get job.ref ≠ none := by
        rw [hs.assets, show (job.registration (c.of job.request.scope)).ref = job.ref from rfl, if_pos rfl]
        exact Option.some_ne_none _
      exact Accounted.of_goto (hrecorded.register hs) (fun _ => hrow) hrow (hfree rfl)
  | confirm row =>
    rw [hstage] at hfree hcovered
    exact Accounted.of_goto (hrecorded.unlinkPending (.inr hcovered)) hjob.current trivial (hfree rfl)
  | final row =>
    rw [hstage] at hgoto
    exact Accounted.checked hrecorded hjob (by rw [hstage]; rfl) (hgoto rfl trivial)
  | returned row => exact h
  | failed => exact h

theorem Accounted.of_same (h : w.Accounted) (hactive : w'.active = w.active) (hfiles : w'.files = w.files)
    (hassets : w'.inventory.assets = w.inventory.assets) (hsizes : ∀ ref, w'.inventory.sizeAt ref = w.inventory.sizeAt ref) :
    w'.Accounted where
  rows ref := by
    rw [hsizes, hassets]
    exact h.rows ref
  files ref := by
    rw [hfiles, hassets]
    exact h.files ref
  job job hjob := by
    rw [hactive] at hjob
    have hold := h.job job hjob
    constructor
    · rw [hassets]
      exact hold.current
    · have hcovered := hold.covered
      cases hstage : job.stage with
      | replace operation =>
        rw [hstage] at hcovered
        change w'.files.pending job.ref = true
        rw [hfiles]
        exact hcovered
      | confirm row =>
        rw [hstage] at hcovered
        change w'.inventory.assets.get job.ref ≠ none
        rw [hassets]
        exact hcovered
      | _ => trivial
    · rw [hfiles]
      exact hold.held
  staged := by
    rw [hactive, hfiles]
    exact h.staged

theorem Accounted.of_readStep (h : w.Accounted) (hstep : ReadStep w w') : w'.Accounted :=
  h.of_same hstep.active hstep.files hstep.assets hstep.entries.sizeAt

end World

def careful (c : CachePolicies) : System World Action where
  start := (resources c).start
  allowed w a := (resources c).allowed w a ∧ match a with
    | .delete _ => False
    | .crash => ∀ operation, w.files.staged operation = none
    | _ => True
  next := World.next c

namespace World

end World

end

end GameLink.Resources

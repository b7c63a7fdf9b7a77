import GameLink.Resources.Cache
import GameLink.Resources.Effects

namespace GameLink.Resources

open Foundation Contracts

variable [ContentHashing]

def Measures (ref : Ref) (n : ℕ) : Prop := ∀ x, contentId x ref.scope = ref.assetId → x.length = n

def Hashes (ref : Ref) (d : String) : Prop := ∀ x, contentId x ref.scope = ref.assetId → ContentHashing.sha256 x = d

structure Inventory.Described (s : Inventory) : Prop where
  assets : ∀ ref r, s.assets.get ref = some r → Measures ref r.sizeBytes
  sizes : ∀ ref n, s.sizeAt ref = some n → Measures ref n
  digests : ∀ ref d, s.digestAt ref = some d → Hashes ref d

def Inventory.Readable (s : Inventory) (ref : Ref) : Prop :=
  s.evictingAt ref = some false ∨ (s.assets.get ref ≠ none ∧ s.evictingAt ref = none)

def Inventory.Within (s : Inventory) (p : ResourceCachePolicy) (scope : OwnerScope) : Prop :=
  (s.managedUsage scope).1 ≤ p.maxBytes ∧ (s.managedUsage scope).2 ≤ p.maxItems

def Job.Fits (job : Job) (s : Inventory) (p : ResourceCachePolicy) : Prop :=
  (s.others job.ref).1 + job.size ≤ p.maxBytes ∧ (s.others job.ref).2 + 1 ≤ p.maxItems

structure Room.Sound (r : Room) (s : Inventory) (p : ResourceCachePolicy) (job : Job) : Prop where
  managed : job.legacy = false
  own : r.own = s.sizeAt job.ref
  bytes : ((s.others job.ref).1 : ℤ) + (r.own.getD 0 : ℕ) ≤ r.used
  items : ((s.others job.ref).2 : ℤ) + (r.own.elim 0 fun _ => 1) ≤ r.count
  within : r.used ≤ p.maxBytes ∧ r.count ≤ p.maxItems
  excluded : job.ref.assetId ∈ r.excluded

def Job.Sized (job : Job) (s : Inventory) (v : Victim) : Prop :=
  v.1 ≠ job.ref.assetId ∧ ∀ n, s.sizeAt (job.victim v) = some n → n = v.2

structure Job.Doomed (job : Job) (w : World) (v : Victim) : Prop where
  other : v.1 ≠ job.ref.assetId
  unread : job.victim v ∉ w.readers
  marked : w.inventory.evictingAt (job.victim v) = some true
  size : w.inventory.sizeAt (job.victim v) = some v.2

def Job.Admitted (job : Job) (s : Inventory) (p : ResourceCachePolicy) : Prop :=
  (job.legacy = true ∧ s.evictingAt job.ref = none) ∨ (job.legacy = false ∧ job.Fits s p)

def Job.Stored (job : Job) (w : World) : Prop :=
  w.files.final job.ref = some job.request.content ∧ w.inventory.evictingAt job.ref ≠ some true

def Stage.Sound (p : ResourceCachePolicy) (w : World) (job : Job) : Stage → Prop
  | pins excluded => job.legacy = false ∧ job.ref.assetId ∈ excluded
  | usage excluded => job.legacy = false ∧ job.ref.assetId ∈ excluded
  | own excluded used count => job.legacy = false ∧ job.ref.assetId ∈ excluded ∧
      (used, count) = w.inventory.managedUsage job.request.scope
  | loop r => r.Sound w.inventory p job
  | candidates r _ => r.Sound w.inventory p job
  | evict r v rest => r.Sound w.inventory p job ∧ ∀ v' ∈ v :: rest, job.Sized w.inventory v'
  | unlink r v rest => r.Sound w.inventory p job ∧ (∀ v' ∈ rest, job.Sized w.inventory v') ∧ job.Doomed w v
  | unlinkMarker r v rest => r.Sound w.inventory p job ∧ (∀ v' ∈ rest, job.Sized w.inventory v') ∧ job.Doomed w v ∧
      w.files.final (job.victim v) = none
  | finish r v rest => r.Sound w.inventory p job ∧ (∀ v' ∈ rest, job.Sized w.inventory v') ∧ job.Doomed w v ∧
      w.files.final (job.victim v) = none
  | evicted r rest => r.Sound w.inventory p job ∧ ∀ v' ∈ rest, job.Sized w.inventory v'
  | inspect => job.Admitted w.inventory p
  | stage => job.Admitted w.inventory p
  | mark operation => job.Admitted w.inventory p ∧ w.files.staged operation = some (job.ref, job.request.content)
  | replace operation => job.Admitted w.inventory p ∧ w.files.staged operation = some (job.ref, job.request.content)
  | settle => job.Admitted w.inventory p ∧ w.files.final job.ref = some job.request.content
  | confirm _ => job.Stored w
  | final _ => job.Stored w
  | returned _ => job.Stored w
  | _ => True

namespace World

structure Base (c : CachePolicies) (w : World) : Prop where
  described : w.inventory.Described
  address : ∀ ref x, w.files.final ref = some x → contentId x ref.scope = ref.assetId
  readable : ∀ ref, w.inventory.Readable ref → w.files.final ref ≠ none
  pins : ∀ ref, w.inventory.evictingAt ref = some true → ∀ p ∈ w.inventory.pins.rows, p.ref = ref → p.expiresAt ≤ w.clock
  within : ∀ scope, w.inventory.Within (c.of scope) scope

structure Sound (c : CachePolicies) (w : World) : Prop extends Base c w where
  stage : ∀ job, w.active = some job → job.stage.Sound (c.of job.request.scope) w job

end World

section

variable {c : CachePolicies} {p : ResourceCachePolicy} {w w' : World} {job : Job} {r : Room} {v : Victim}
  {rest : List Victim} {s s' : Inventory} {ref : Ref} {st : Stage}

theorem Room.Sound.fits (hr : r.Sound s p job) (h : r.fits p job.size = true) : job.Fits s p := by
  rw [Room.fits, Bool.and_eq_true, decide_eq_true_eq, decide_eq_true_eq] at h
  have hbytes := hr.bytes
  have hitems := hr.items
  constructor
  · omega
  cases hown : r.own with
  | none =>
    rw [hown] at h hitems
    simp only [Option.isNone_none, ↓reduceIte, Option.elim_none] at h hitems
    omega
  | some n =>
    rw [hown] at h hitems
    simp only [Option.isNone_some, Bool.false_eq_true, ↓reduceIte, Option.elim_some] at h hitems
    omega

theorem Room.Sound.admitted (hr : r.Sound s p job) (h : r.fits p job.size = true) : job.Admitted s p :=
  .inr ⟨hr.managed, hr.fits h⟩

theorem Room.Sound.leave (hr : r.Sound w.inventory p job) : (r.leave p job.size).Sound p w job := by
  unfold Room.leave
  split
  · rename_i hfits
    exact hr.admitted hfits
  split
  · exact ⟨hr.managed, hr.own, hr.bytes, hr.items, hr.within, hr.excluded⟩
  · trivial

theorem Room.Sound.proceed (hr : r.Sound w.inventory p job) (hrest : ∀ v ∈ rest, job.Sized w.inventory v) :
    (r.proceed p job.size rest).Sound p w job := by
  unfold Room.proceed
  split
  · rename_i hfits
    exact hr.admitted hfits
  cases rest with
  | nil => exact hr
  | cons v rest => exact ⟨hr, hrest⟩

theorem Room.Sound.visit (hr : r.Sound s p job) : (r.visit v).Sound s p job :=
  ⟨hr.managed, hr.own, hr.bytes, hr.items, hr.within, hr.excluded⟩

section

variable (h : Inventory.SameEntries s s')
include h

theorem Room.Sound.of_same (hr : r.Sound s p job) : r.Sound s' p job where
  managed := hr.managed
  own := hr.own.trans (h.sizeAt _).symm
  bytes := by
    rw [h.others]
    exact hr.bytes
  items := by
    rw [h.others]
    exact hr.items
  within := hr.within
  excluded := hr.excluded

theorem Job.Sized.of_same (hv : job.Sized s v) : job.Sized s' v := by
  refine ⟨hv.1, ?_⟩
  rw [h.sizeAt]
  exact hv.2

theorem Job.Admitted.of_same (hj : job.Admitted s p) : job.Admitted s' p := by
  unfold Job.Admitted Job.Fits at hj ⊢
  rw [h.evictingAt, h.others]
  exact hj

end

structure Beside (w w' : World) : Prop where
  active : w'.active = w.active
  entries : Inventory.SameEntries w.inventory w'.inventory
  final : w'.files.final = w.files.final
  staged : w'.files.staged = w.files.staged
  readers : w.lockFree = true ∨ ∀ ref ∈ w'.readers, ref ∈ w.readers

theorem Job.Doomed.of_beside (h : Beside w w') (hbusy : w.lockFree = false) (hv : job.Doomed w v) :
    job.Doomed w' v where
  other := hv.other
  unread hin := by
    cases h.readers with
    | inl hfree =>
      rw [hbusy] at hfree
      cases hfree
    | inr hsub => exact hv.unread (hsub _ hin)
  marked := (h.entries.evictingAt _).trans hv.marked
  size := (h.entries.sizeAt _).trans hv.size

theorem Stage.Sound.of_beside (h : Beside w w') (hactive : w.active = some job) (hst : job.stage.Sound p w job) :
    job.stage.Sound p w' job := by
  have hbusy : job.stage.over = false → w.lockFree = false := by
    intro hover
    rw [World.lockFree, hactive, Option.all_some]
    exact hover
  have hsized : ∀ v, job.Sized w.inventory v → job.Sized w'.inventory v := fun _ => Job.Sized.of_same h.entries
  cases hstage : job.stage with
  | check => trivial
  | registration => trivial
  | entry => trivial
  | discard operation => trivial
  | failed => trivial
  | pins excluded =>
    rw [hstage] at hst
    exact hst
  | usage excluded =>
    rw [hstage] at hst
    exact hst
  | own excluded used count =>
    rw [hstage] at hst
    exact ⟨hst.1, hst.2.1, hst.2.2.trans (h.entries.usage _).symm⟩
  | loop r =>
    rw [hstage] at hst
    exact Room.Sound.of_same h.entries hst
  | candidates r protectRaw =>
    rw [hstage] at hst
    exact Room.Sound.of_same h.entries hst
  | evict r v rest =>
    rw [hstage] at hst
    exact ⟨hst.1.of_same h.entries, fun v' hv' => hsized v' (hst.2 v' hv')⟩
  | unlink r v rest =>
    rw [hstage] at hst hbusy
    exact ⟨hst.1.of_same h.entries, fun v' hv' => hsized v' (hst.2.1 v' hv'), hst.2.2.of_beside h (hbusy rfl)⟩
  | unlinkMarker r v rest =>
    rw [hstage] at hst hbusy
    refine ⟨hst.1.of_same h.entries, fun v' hv' => hsized v' (hst.2.1 v' hv'), hst.2.2.1.of_beside h (hbusy rfl), ?_⟩
    rw [h.final]
    exact hst.2.2.2
  | finish r v rest =>
    rw [hstage] at hst hbusy
    refine ⟨hst.1.of_same h.entries, fun v' hv' => hsized v' (hst.2.1 v' hv'), hst.2.2.1.of_beside h (hbusy rfl), ?_⟩
    rw [h.final]
    exact hst.2.2.2
  | evicted r rest =>
    rw [hstage] at hst
    exact ⟨hst.1.of_same h.entries, fun v' hv' => hsized v' (hst.2 v' hv')⟩
  | inspect =>
    rw [hstage] at hst
    exact Job.Admitted.of_same h.entries hst
  | stage =>
    rw [hstage] at hst
    exact Job.Admitted.of_same h.entries hst
  | mark operation =>
    rw [hstage] at hst
    refine ⟨hst.1.of_same h.entries, ?_⟩
    rw [h.staged]
    exact hst.2
  | replace operation =>
    rw [hstage] at hst
    refine ⟨hst.1.of_same h.entries, ?_⟩
    rw [h.staged]
    exact hst.2
  | settle =>
    rw [hstage] at hst
    refine ⟨hst.1.of_same h.entries, ?_⟩
    rw [h.final]
    exact hst.2
  | confirm row =>
    rw [hstage] at hst
    change _ = _ ∧ _ ≠ _
    rw [h.final, h.entries.evictingAt]
    exact hst
  | final row =>
    rw [hstage] at hst
    change _ = _ ∧ _ ≠ _
    rw [h.final, h.entries.evictingAt]
    exact hst
  | returned row =>
    rw [hstage] at hst
    change _ = _ ∧ _ ≠ _
    rw [h.final, h.entries.evictingAt]
    exact hst

end

end GameLink.Resources

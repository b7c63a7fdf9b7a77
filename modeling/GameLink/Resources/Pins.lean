import GameLink.Resources.Steps

namespace GameLink.Resources

open Foundation Contracts

variable [ContentHashing] {c : CachePolicies} {w w' : World} {job : Job} {ref : Ref} {i : ℕ} {a : Action}

structure ReadStep (w w' : World) : Prop extends Beside w w' where
  clock : w'.clock = w.clock
  assets : w'.inventory.assets = w.inventory.assets
  pins : w'.inventory.pins = w.inventory.pins
  files : w'.files = w.files

namespace World

theorem readStep_of_readers {readers : List Ref} {x : Reading} (h : w.lockFree = true ∨ ∀ ref ∈ readers, ref ∈ w.readers) :
    ReadStep w ({ w with readers := readers }.setReading i x) where
  active := rfl
  entries := Inventory.sameEntries_of_eq rfl
  final := rfl
  staged := rfl
  readers := h
  clock := rfl
  assets := rfl
  pins := rfl
  files := rfl

theorem readStep_set {x : Reading} : ReadStep w (w.setReading i x) := readStep_of_readers (.inr fun _ h => h)

theorem readStep_end {content : Option Content} : ReadStep w (w.endReading i ref content) :=
  readStep_of_readers (.inr fun _ h => List.mem_of_mem_erase h)

theorem readStep_refl (w : World) : ReadStep w w where
  active := rfl
  entries := Inventory.sameEntries_of_eq rfl
  final := rfl
  staged := rfl
  readers := .inr fun _ h => h
  clock := rfl
  assets := rfl
  pins := rfl
  files := rfl

theorem readStep_read (w : World) (i : ℕ) : ReadStep w (w.read i) := by
  unfold World.read
  split
  · exact readStep_refl w
  · exact readStep_set
  · split
    · rename_i hfree
      exact readStep_of_readers (.inl hfree)
    · exact readStep_refl w
  · split
    · exact readStep_end
    · exact readStep_set
  · split
    · exact readStep_end
    · exact readStep_set
  · split
    · exact readStep_end
    · exact readStep_set
  · split
    · exact readStep_end
    split
    · split
      · exact readStep_set
      · exact readStep_end
    · exact readStep_end
  · rename_i ref content _
    exact {
      active := rfl
      entries := Inventory.sameEntries_touch
      final := rfl
      staged := rfl
      readers := .inr fun _ h => List.mem_of_mem_erase h
      clock := rfl
      assets := rfl
      pins := rfl
      files := rfl }
  · exact readStep_refl w

theorem readStep_abandon (w : World) (i : ℕ) : ReadStep w (w.abandon i) := by
  unfold World.abandon
  split
  · exact readStep_of_readers (.inr fun _ h => List.mem_of_mem_erase h)
  · exact readStep_set

theorem Sound.of_beside (hw : Sound c w) (h : Beside w w')
    (hassets : ∀ ref r, w'.inventory.assets.get ref = some r → w.inventory.assets.get ref = some r)
    (hpins : ∀ ref, w.inventory.evictingAt ref = some true → ∀ p ∈ w'.inventory.pins.rows, p.ref = ref →
      p.expiresAt ≤ w'.clock) : Sound c w' where
  toBase := hw.toBase.of_same h.entries hassets h.final hpins
  stage job hjob := by
    rw [h.active] at hjob
    exact (hw.stage job hjob).of_beside h hjob

theorem Sound.of_readStep (hw : Sound c w) (h : ReadStep w w') : Sound c w' := by
  apply hw.of_beside h.toBeside
  · rw [h.assets]
    exact fun _ _ hr => hr
  · rw [h.pins, h.clock]
    exact hw.pins

theorem sound_next (hinj : Function.Injective (ContentHashing.sha256)) (hw : Sound c w) (ha : (resources c).allowed w a) :
    Sound c (w.next c a) := by
  have hkept : ∀ ref r, w.inventory.assets.get ref = some r → w.inventory.assets.get ref = some r := fun _ _ hr => hr
  have hbeside : ∀ s : Inventory, s.entries = w.inventory.entries → Beside w { w with inventory := s } :=
    fun s hs => ⟨rfl, Inventory.sameEntries_of_eq hs, rfl, rfl, .inr fun _ h => h⟩
  cases a with
  | tick n =>
    refine hw.of_beside ⟨rfl, Inventory.sameEntries_of_eq rfl, rfl, rfl, .inr fun _ h => h⟩ hkept ?_
    intro ref hmarked p hp href
    have hpin := hw.pins ref hmarked p hp href
    change p.expiresAt ≤ w.clock + (n : ℤ)
    unfold Instant at *
    omega
  | store r =>
    refine ⟨⟨hw.described, hw.address, hw.readable, hw.pins, hw.within⟩, ?_⟩
    rintro job ⟨⟩
    trivial
  | advance answer =>
    change Sound c (w.active.elim w fun job => w.advance c job answer)
    cases hactive : w.active with
    | none => exact hw
    | some job => exact hw.advance hinj hactive
  | «open» i ref => exact hw.of_readStep readStep_set
  | read i => exact hw.of_readStep (readStep_read w i)
  | abandon i => exact hw.of_readStep (readStep_abandon w i)
  | pin r =>
    change Sound c ((w.inventory.pinResources r).elim w fun s => { w with inventory := s })
    cases hpin : w.inventory.pinResources r with
    | none => exact hw
    | some s =>
      have h := Inventory.pinnedBy_of_pin hpin
      refine hw.of_beside (hbeside s h.entries) ?_ ?_
      · change ∀ ref r, s.assets.get ref = some r → _
        rw [h.assets]
        exact hkept
      intro ref hmarked p hp href
      cases h.made p hp with
      | inl hold => exact hw.pins ref hmarked p (List.mem_of_mem_filter hold) href
      | inr hnew =>
        rw [href] at hnew
        exact absurd hmarked hnew.2
  | unpin pinId holder =>
    have hsub : ∀ p ∈ (w.inventory.unpinResources pinId holder).pins.rows, p ∈ w.inventory.pins.rows := by
      unfold Inventory.unpinResources
      split
      · exact fun _ hp => hp
      · exact fun _ hp => List.mem_of_mem_filter hp
    have hsame : (w.inventory.unpinResources pinId holder).entries = w.inventory.entries ∧
        (w.inventory.unpinResources pinId holder).assets = w.inventory.assets := by
      unfold Inventory.unpinResources
      split
      · exact ⟨rfl, rfl⟩
      · exact ⟨rfl, rfl⟩
    refine hw.of_beside (hbeside _ hsame.1) ?_ fun ref hmarked p hp => hw.pins ref hmarked p (hsub p hp)
    change ∀ ref r, (w.inventory.unpinResources pinId holder).assets.get ref = some r → _
    rw [hsame.2]
    exact hkept
  | releaseInvocation invocationId =>
    exact hw.of_beside (hbeside _ rfl) hkept fun ref hmarked p hp => hw.pins ref hmarked p (List.mem_of_mem_filter hp)
  | delete ref =>
    refine hw.of_beside (hbeside _ rfl) ?_ hw.pins
    intro k r hr
    change (w.inventory.assets.delete _).get k = some r at hr
    rw [Inventory.get_delete_ref] at hr
    split at hr
    · cases hr
    · exact hr
  | crash =>
    refine ⟨⟨hw.described, hw.address, hw.readable, hw.pins, hw.within⟩, ?_⟩
    rintro job ⟨⟩

theorem sound_of_initial (hinj : Function.Injective (ContentHashing.sha256)) (h : w.initial) : Sound c w := by
  have hget : ∀ ref, w.inventory.entries.get ref = none := by
    intro ref
    rw [h.entries]
    rfl
  have hmarked : ∀ ref, w.inventory.evictingAt ref = none := by
    intro ref
    rw [Inventory.evictingAt, hget]
    rfl
  refine ⟨⟨⟨?_, ?_, ?_⟩, ?_, ?_, ?_, ?_⟩, ?_⟩
  · intro ref r hr x hx
    obtain ⟨y, -, hy, hlength⟩ := (h.assets ref r hr).file
    rw [Table.key_of_get hr] at hy
    rw [contentId_injective hinj (hx.trans hy.symm)]
    exact hlength
  · intro ref n hn
    rw [Inventory.sizeAt, hget] at hn
    cases hn
  · intro ref d hd
    rw [Inventory.digestAt, hget] at hd
    cases hd
  · intro ref x hx
    have hasset := h.final ref (by rw [hx]; exact Option.some_ne_none x)
    obtain ⟨r, hr⟩ := Option.ne_none_iff_exists'.mp hasset
    obtain ⟨y, hfile, hy, -⟩ := (h.assets ref r hr).file
    rw [Table.key_of_get hr] at hfile hy
    rw [hx] at hfile
    rw [Option.some.inj hfile]
    exact hy
  · intro ref hreadable
    unfold Inventory.Readable at hreadable
    rw [hmarked] at hreadable
    cases hreadable with
    | inl hentry => cases hentry
    | inr hlegacy =>
      obtain ⟨r, hr⟩ := Option.ne_none_iff_exists'.mp hlegacy.1
      obtain ⟨y, hfile, -, -⟩ := (h.assets ref r hr).file
      rw [Table.key_of_get hr] at hfile
      rw [hfile]
      exact Option.some_ne_none y
  · intro ref href
    rw [hmarked] at href
    cases href
  · intro scope
    unfold Inventory.Within Inventory.managedUsage
    rw [h.entries]
    exact ⟨Nat.zero_le _, Nat.zero_le _⟩
  · intro job hjob
    rw [h.active] at hjob
    cases hjob

end World

def Spares (pin : PinRow) : Action → Prop
  | .unpin pinId _ => pinId ≠ pin.pinId
  | .releaseInvocation invocationId => invocationId ≠ pin.invocationId
  | .delete ref => ref ≠ pin.ref
  | _ => True

def World.Live (w : World) (pin : PinRow) : Prop :=
  w.clock < pin.expiresAt ∧ ∀ r, w.inventory.assets.get pin.ref = some r → Inventory.expired r.expiresAt w.clock = false

def pinnedRun (c : CachePolicies) (pin : PinRow) : System World Action where
  start := (resources c).start
  allowed w a := (resources c).allowed w a ∧ Spares pin a ∧ (w.next c a).Live pin
  next := World.next c

structure Pinned (c : CachePolicies) (pin : PinRow) (content : Content) (w : World) : Prop extends World.Sound c w where
  row : pin ∈ w.inventory.pins.rows
  asset : w.inventory.assets.get pin.ref ≠ none
  final : w.files.final pin.ref = some content
  live : w.Live pin

section

variable {pin : PinRow} {content : Content}

theorem Pinned.unmarked (h : Pinned c pin content w) : w.inventory.evictingAt pin.ref ≠ some true := by
  intro hmarked
  have hended := h.pins pin.ref hmarked pin h.row rfl
  have hlive := h.live.1
  unfold Instant at *
  omega

theorem kept_of_advance (hinj : Function.Injective (ContentHashing.sha256)) (hw : w.Sound c)
    (h : AdvanceStep w job w') (hunmarked : w.inventory.evictingAt ref ≠ some true) :
    w'.inventory.pins = w.inventory.pins ∧ (w.inventory.assets.get ref ≠ none → w'.inventory.assets.get ref ≠ none) ∧
      ∀ x, w.files.final ref = some x → w'.files.final ref = some x := by
  have hvictim : ∀ {v : Victim}, job.Doomed w v → ref ≠ job.victim v := by
    rintro v hv rfl
    exact hunmarked hv.marked
  have heffect := h.effect
  generalize w'.inventory = s at heffect ⊢
  generalize w'.files = f at heffect ⊢
  cases heffect with
  | same => exact ⟨rfl, fun hrow => hrow, fun _ hx => hx⟩
  | mark hmark hunread =>
    rw [hmark.pins, hmark.assets]
    exact ⟨rfl, fun hrow => hrow, fun _ hx => hx⟩
  | unlink hv =>
    refine ⟨rfl, fun hrow => hrow, ?_⟩
    intro x hx
    change Function.update w.files.final _ none ref = some x
    rw [Function.update_of_ne (hvictim hv)]
    exact hx
  | unlinkMarker hv hnone => exact ⟨rfl, fun hrow => hrow, fun _ hx => hx⟩
  | finish hv hnone hs =>
    refine ⟨hs.pins, ?_, fun _ hx => hx⟩
    rw [hs.assets, if_neg (hvictim hv)]
    exact fun hrow => hrow
  | writeStaged operation => exact ⟨rfl, fun hrow => hrow, fun _ hx => hx⟩
  | writePending => exact ⟨rfl, fun hrow => hrow, fun _ hx => hx⟩
  | replaceFinal operation =>
    refine ⟨rfl, fun hrow => hrow, ?_⟩
    intro x hx
    change Function.update w.files.final job.ref (some job.request.content) ref = some x
    by_cases href : ref = job.ref
    · -- the same address is the same content
      have haddress := hw.address ref x hx
      rw [href] at haddress
      rw [href, Function.update_self, contentId_injective hinj haddress]
    · rw [Function.update_of_ne href]
      exact hx
  | unlinkStaged operation => exact ⟨rfl, fun hrow => hrow, fun _ hx => hx⟩
  | register hm hs =>
    refine ⟨hs.pins, ?_, fun _ hx => hx⟩
    rw [hs.assets]
    intro hrow
    split
    · exact Option.some_ne_none _
    · exact hrow
  | confirm hstored => exact ⟨rfl, fun hrow => hrow, fun _ hx => hx⟩

theorem Pinned.next (hinj : Function.Injective (ContentHashing.sha256)) (h : Pinned c pin content w)
    (ha : (pinnedRun c pin).allowed w a) : Pinned c pin content (w.next c a) := by
  obtain ⟨hallowed, hspares, hlive⟩ := ha
  have hsound := World.sound_next hinj h.toSound hallowed
  have hread : ∀ {w' : World}, ReadStep w w' → w'.Sound c → w'.Live pin → Pinned c pin content w' := by
    intro w' hstep hsound' hlive'
    refine ⟨hsound', ?_, ?_, ?_, hlive'⟩
    · rw [hstep.pins]
      exact h.row
    · rw [hstep.assets]
      exact h.asset
    · rw [hstep.final]
      exact h.final
  cases a with
  | tick n => exact ⟨hsound, h.row, h.asset, h.final, hlive⟩
  | store r => exact ⟨hsound, h.row, h.asset, h.final, hlive⟩
  | advance answer =>
    change (w.active.elim w fun job => w.advance c job answer).Sound c at hsound
    change (w.active.elim w fun job => w.advance c job answer).Live pin at hlive
    change Pinned c pin content (w.active.elim w fun job => w.advance c job answer)
    cases hactive : w.active with
    | none => exact h
    | some job =>
      rw [hactive] at hsound hlive
      obtain ⟨hpins, hasset, hfinal⟩ :=
        kept_of_advance hinj h.toSound (World.advanceStep_advance (a := answer) h.toSound hactive) h.unmarked
      refine ⟨hsound, ?_, hasset h.asset, hfinal content h.final, hlive⟩
      change pin ∈ (w.advance c job answer).inventory.pins.rows
      rw [hpins]
      exact h.row
  | «open» i ref => exact hread World.readStep_set hsound hlive
  | read i => exact hread (World.readStep_read w i) hsound hlive
  | abandon i => exact hread (World.readStep_abandon w i) hsound hlive
  | pin r =>
    change ((w.inventory.pinResources r).elim w fun s => { w with inventory := s }).Sound c at hsound
    change ((w.inventory.pinResources r).elim w fun s => { w with inventory := s }).Live pin at hlive
    change Pinned c pin content ((w.inventory.pinResources r).elim w fun s => { w with inventory := s })
    cases hpin : w.inventory.pinResources r with
    | none => exact h
    | some s =>
      rw [hpin] at hsound hlive
      have hgranted := Inventory.pinnedBy_of_pin hpin
      obtain ⟨-, hnow, hfresh⟩ := hallowed
      refine ⟨hsound, ?_, ?_, h.final, hlive⟩
      · apply hgranted.kept
        · apply List.mem_filter.mpr
          refine ⟨h.row, ?_⟩
          have hclock := h.live.1
          simp only [Bool.not_eq_true', decide_eq_false_iff_not, not_le]
          exact hnow.trans_lt hclock
        · intro k _ hkey
          exact hfresh pin h.row (congrArg Prod.fst hkey)
      · change s.assets.get pin.ref ≠ none
        rw [hgranted.assets]
        exact h.asset
  | unpin pinId holder =>
    have hrow : pin ∈ (w.inventory.unpinResources pinId holder).pins.rows := by
      unfold Inventory.unpinResources
      split
      · exact h.row
      apply List.mem_filter.mpr
      refine ⟨h.row, ?_⟩
      simp [Ne.symm hspares]
    have hassets : (w.inventory.unpinResources pinId holder).assets = w.inventory.assets := by
      unfold Inventory.unpinResources
      split
      · rfl
      · rfl
    refine ⟨hsound, hrow, ?_, h.final, hlive⟩
    change (w.inventory.unpinResources pinId holder).assets.get pin.ref ≠ none
    rw [hassets]
    exact h.asset
  | releaseInvocation invocationId =>
    refine ⟨hsound, ?_, h.asset, h.final, hlive⟩
    apply List.mem_filter.mpr
    refine ⟨h.row, ?_⟩
    simp [Ne.symm hspares]
  | delete ref =>
    refine ⟨hsound, h.row, ?_, h.final, hlive⟩
    change (w.inventory.assets.delete _).get pin.ref ≠ none
    rw [Inventory.get_delete_ref, if_neg (Ne.symm hspares)]
    exact h.asset
  | crash => exact ⟨hsound, h.row, h.asset, h.final, hlive⟩

def Reading.OnTrack (pin : PinRow) (content : Content) : Reading → Prop
  | metadata ref managed => ref = pin.ref → ∀ e, managed = some e → ContentHashing.sha256 content = e.contentSha256
  | fetch ref managed m => ref = pin.ref →
      (∀ e, managed = some e → ContentHashing.sha256 content = e.contentSha256) ∧ content.length = m.sizeBytes
  | file ref managed m m' => ref = pin.ref → (∀ e, managed = some e → ContentHashing.sha256 content = e.contentSha256) ∧
      content.length = m.sizeBytes ∧ content.length = m'.sizeBytes
  | touch ref x => ref = pin.ref → x = content
  | ended ref x => ref = pin.ref → x = some content
  | _ => True

theorem Pinned.metadata (h : Pinned c pin content w) :
    ∃ m, w.inventory.metadata pin.ref w.clock = some m ∧ content.length = m.sizeBytes := by
  obtain ⟨m, hm⟩ := Option.ne_none_iff_exists'.mp h.asset
  refine ⟨m, ?_, h.described.assets pin.ref m hm content (h.address pin.ref content h.final)⟩
  rw [Inventory.metadata, hm, Option.filter_some, h.live.2 m hm]
  rfl

theorem Pinned.onTrack_lookup (h : Pinned c pin content w) (ref : Ref) :
    ((w.inventory.metadata ref w.clock).elim (.ended ref none) fun _ => .lease ref : Reading).OnTrack pin content := by
  cases hm : w.inventory.metadata ref w.clock with
  | some m => trivial
  | none =>
    rintro rfl
    obtain ⟨m, hm', -⟩ := h.metadata
    rw [hm] at hm'
    cases hm'

omit [ContentHashing] in
theorem readings_set {x : Reading} (w : World) (i j : ℕ) : (w.setReading i x).readings j = if j = i then x else w.readings j :=
  Function.update_apply ..

variable {j : ℕ}

theorem readings_read_other (hij : j ≠ i) : (w.read i).readings j = w.readings j := by
  have hset : ∀ (u : World) (x : Reading), u.readings = w.readings → (u.setReading i x).readings j = w.readings j := by
    intro u x hu
    rw [readings_set, if_neg hij, hu]
  unfold World.read
  split
  · rfl
  · exact hset w _ rfl
  · split
    · exact hset _ _ rfl
    · rfl
  · split
    · exact hset _ _ rfl
    · exact hset _ _ rfl
  · split
    · exact hset _ _ rfl
    · exact hset _ _ rfl
  · split
    · exact hset _ _ rfl
    · exact hset _ _ rfl
  · split
    · exact hset _ _ rfl
    split
    · split
      · exact hset _ _ rfl
      · exact hset _ _ rfl
    · exact hset _ _ rfl
  · exact hset _ _ rfl
  · rfl

theorem onTrack_set {x : Reading} (htrack : (w.readings j).OnTrack pin content) (hx : x.OnTrack pin content) :
    ((w.setReading i x).readings j).OnTrack pin content := by
  rw [readings_set]
  split
  · exact hx
  · exact htrack

theorem onTrack_end {x : Option Content} (htrack : (w.readings j).OnTrack pin content)
    (hx : ref = pin.ref → x = some content) : ((w.endReading i ref x).readings j).OnTrack pin content :=
  onTrack_set (w := { w with readers := w.readers.erase ref }) htrack hx

theorem Pinned.onTrack_read (h : Pinned c pin content w) (htrack : ∀ k, k = i → (w.readings k).OnTrack pin content)
    (hj : (w.readings j).OnTrack pin content) : ((w.read i).readings j).OnTrack pin content := by
  have hi := htrack i rfl
  unfold World.read
  split
  · exact hj
  · exact onTrack_set hj (h.onTrack_lookup _)
  · split
    · exact onTrack_set (w := { w with readers := _ :: w.readers }) hj trivial
    · exact hj
  · rename_i ref hreading
    split
    · rename_i hmarked
      apply onTrack_end hj
      rintro rfl
      cases he : w.inventory.entries.get pin.ref with
      | none =>
        rw [he] at hmarked
        cases hmarked
      | some e =>
        rw [he, Option.any_some] at hmarked
        refine absurd ?_ h.unmarked
        rw [Inventory.evictingAt, he, Option.map_some, hmarked]
    · apply onTrack_set hj
      rintro rfl e he
      apply h.described.digests pin.ref e.contentSha256 _ content (h.address pin.ref content h.final)
      rw [Inventory.digestAt, he]
      rfl
  · rename_i ref entry hreading
    rw [hreading] at hi
    cases hm : w.inventory.metadata ref w.clock with
    | none =>
      apply onTrack_end hj
      rintro rfl
      obtain ⟨m, hm', -⟩ := h.metadata
      rw [hm] at hm'
      cases hm'
    | some m =>
      apply onTrack_set hj
      rintro rfl
      obtain ⟨m', hm', hlength⟩ := h.metadata
      rw [hm] at hm'
      obtain rfl := Option.some.inj hm'
      exact ⟨hi rfl, hlength⟩
  · rename_i ref entry m hreading
    rw [hreading] at hi
    cases hm : w.inventory.metadata ref w.clock with
    | none =>
      apply onTrack_end hj
      rintro rfl
      obtain ⟨m, hm', -⟩ := h.metadata
      rw [hm] at hm'
      cases hm'
    | some m' =>
      apply onTrack_set hj
      rintro rfl
      obtain ⟨m'', hm', hlength⟩ := h.metadata
      rw [hm] at hm'
      obtain rfl := Option.some.inj hm'
      exact ⟨(hi rfl).1, (hi rfl).2, hlength⟩
  · rename_i ref entry m m' hreading
    rw [hreading] at hi
    cases hfile : w.files.final ref with
    | none =>
      apply onTrack_end hj
      rintro rfl
      rw [h.final] at hfile
      cases hfile
    | some x =>
      have hverified : ref = pin.ref → x = content ∧ World.verified ref entry m m' x = true := by
        rintro rfl
        rw [h.final] at hfile
        obtain rfl := Option.some.inj hfile
        obtain ⟨hdigest, hm, hm'⟩ := hi rfl
        refine ⟨rfl, ?_⟩
        rw [World.verified, decide_eq_true hm', decide_eq_true hm, decide_eq_true (h.address pin.ref _ h.final)]
        cases entry with
        | none => rfl
        | some e => exact decide_eq_true (hdigest e rfl)
      dsimp only
      split
      · split
        · exact onTrack_set hj fun href => (hverified href).1
        · exact onTrack_end hj fun href => congrArg some (hverified href).1
      · rename_i hnot
        exact onTrack_end hj fun href => absurd (hverified href).2 hnot
  · rename_i ref x hreading
    rw [hreading] at hi
    exact onTrack_end (w := { w with inventory := w.inventory.managedTouch ref w.clock }) hj fun href => congrArg some (hi href)
  · exact hj

theorem Pinned.onTrack_next (h : Pinned c pin content w) (ha : (pinnedRun c pin).allowed w a)
    (hj : (w.readings j).OnTrack pin content) : ((w.next c a).readings j).OnTrack pin content := by
  cases a with
  | tick n => exact hj
  | store r => exact hj
  | advance answer =>
    change ((w.active.elim w fun job => w.advance c job answer).readings j).OnTrack pin content
    cases hactive : w.active with
    | none => exact hj
    | some job =>
      change ((w.advance c job answer).readings j).OnTrack pin content
      rw [(World.advanceStep_advance h.toSound hactive).readings]
      exact hj
  | «open» i ref => exact onTrack_set hj trivial
  | read i =>
    by_cases hij : i = j
    · rw [hij]
      exact h.onTrack_read (fun k hk => hk ▸ hj) hj
    have hother : ((w.read i).readings j) = w.readings j := readings_read_other (Ne.symm hij)
    change ((w.read i).readings j).OnTrack pin content
    rw [hother]
    exact hj
  | abandon i =>
    change ((w.abandon i).readings j).OnTrack pin content
    unfold World.abandon
    split
    · exact onTrack_set (w := { w with readers := _ }) hj trivial
    · exact onTrack_set hj trivial
  | pin r =>
    change ((w.inventory.pinResources r).elim w fun s => { w with inventory := s }).readings j |>.OnTrack pin content
    cases w.inventory.pinResources r with
    | none => exact hj
    | some s => exact hj
  | unpin pinId holder => exact hj
  | releaseInvocation invocationId => exact hj
  | delete ref => exact hj
  | crash => trivial

end

end GameLink.Resources

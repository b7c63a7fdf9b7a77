import GameLink.Resources.Stages

namespace GameLink.Resources

open Foundation Contracts

variable [ContentHashing] {c : CachePolicies} {p : ResourceCachePolicy} {w w' : World} {job : Job} {r : Room}
  {v : Victim} {rest : List Victim} {s s' : Inventory} {ref : Ref} {st : Stage} {a : Answer}

theorem readable_of_same (h : Inventory.SameEntries s s') (hassets : ∀ ref r, s'.assets.get ref = some r → s.assets.get ref = some r)
    (href : s'.Readable ref) : s.Readable ref := by
  unfold Inventory.Readable at href ⊢
  rw [h.evictingAt] at href
  cases href with
  | inl hentry => exact .inl hentry
  | inr hlegacy =>
    obtain ⟨row, hrow⟩ := Option.ne_none_iff_exists'.mp hlegacy.1
    refine .inr ⟨?_, hlegacy.2⟩
    rw [hassets ref row hrow]
    exact Option.some_ne_none _

namespace World

theorem Base.of_same (hw : Base c w) (h : Inventory.SameEntries w.inventory w'.inventory)
    (hassets : ∀ ref r, w'.inventory.assets.get ref = some r → w.inventory.assets.get ref = some r)
    (hfinal : w'.files.final = w.files.final)
    (hpins : ∀ ref, w.inventory.evictingAt ref = some true → ∀ p ∈ w'.inventory.pins.rows, p.ref = ref →
      p.expiresAt ≤ w'.clock) : Base c w' where
  described := {
    assets := fun ref r hr => hw.described.assets ref r (hassets ref r hr)
    sizes := by
      intro ref n
      rw [h.sizeAt]
      exact hw.described.sizes ref n
    digests := by
      intro ref d
      rw [h.digestAt]
      exact hw.described.digests ref d }
  address := by
    rw [hfinal]
    exact hw.address
  readable ref href := by
    rw [hfinal]
    exact hw.readable ref (readable_of_same h hassets href)
  pins ref := by
    rw [h.evictingAt]
    exact hpins ref
  within scope := by
    unfold Inventory.Within
    rw [h.usage]
    exact hw.within scope

theorem Base.goto (hw : Base c w) : Base c (w.goto job st) := ⟨hw.1, hw.2, hw.3, hw.4, hw.5⟩

theorem Base.unlinkPending (hw : Base c w) : Base c (w.unlinkPending ref) := ⟨hw.1, hw.2, hw.3, hw.4, hw.5⟩

theorem Base.writePending (hw : Base c w) : Base c (w.writePending ref) := ⟨hw.1, hw.2, hw.3, hw.4, hw.5⟩

variable {operation : String}

theorem Base.writeStaged {x : Content} (hw : Base c w) : Base c (w.writeStaged operation ref x) :=
  ⟨hw.1, hw.2, hw.3, hw.4, hw.5⟩

theorem Base.unlinkStaged (hw : Base c w) : Base c (w.unlinkStaged operation) :=
  ⟨hw.1, hw.2, hw.3, hw.4, hw.5⟩

theorem Base.mark (hw : Base c w) (h : Inventory.Marked w.inventory ref w.clock s) :
    Base c { w with inventory := s } where
  described := {
    assets := by
      change ∀ ref r, s.assets.get ref = some r → _
      rw [h.assets]
      exact hw.described.assets
    sizes := by
      intro k n
      rw [h.sizeAt]
      exact hw.described.sizes k n
    digests := by
      intro k d
      rw [h.digestAt]
      exact hw.described.digests k d }
  address := hw.address
  readable k hk := by
    apply hw.readable k
    unfold Inventory.Readable at hk ⊢
    rw [h.evictingAt, h.assets] at hk
    by_cases href : k = ref
    · rw [if_pos href] at hk
      cases hk with
      | inl hentry => cases hentry
      | inr hlegacy => cases hlegacy.2
    · rw [if_neg href] at hk
      exact hk
  pins k := by
    change s.evictingAt k = some true → ∀ p ∈ s.pins.rows, p.ref = k → p.expiresAt ≤ w.clock
    rw [h.evictingAt, h.pins]
    intro hk
    by_cases href : k = ref
    · rw [href]
      exact h.unpinned
    · rw [if_neg href] at hk
      exact hw.pins k hk
  within scope := by
    unfold Inventory.Within
    rw [h.usage]
    exact hw.within scope

theorem Base.finish {n : ℕ} (hw : Base c w) (h : Inventory.Finished w.inventory ref n s) :
    Base c { w with inventory := s } where
  described := {
    assets := by
      intro k row hk
      change s.assets.get k = some row at hk
      rw [h.assets] at hk
      split at hk
      · cases hk
      · exact hw.described.assets k row hk
    sizes := by
      intro k n hk
      rw [h.sizeAt] at hk
      split at hk
      · cases hk
      · exact hw.described.sizes k n hk
    digests := by
      intro k d hk
      rw [h.digestAt] at hk
      split at hk
      · cases hk
      · exact hw.described.digests k d hk }
  address := hw.address
  readable k hk := by
    apply hw.readable k
    unfold Inventory.Readable at hk ⊢
    rw [h.evictingAt, h.assets] at hk
    by_cases href : k = ref
    · rw [if_pos href, if_pos href] at hk
      cases hk with
      | inl hentry => cases hentry
      | inr hlegacy => exact absurd rfl hlegacy.1
    · rw [if_neg href, if_neg href] at hk
      exact hk
  pins k := by
    change s.evictingAt k = some true → ∀ p ∈ s.pins.rows, p.ref = k → p.expiresAt ≤ w.clock
    rw [h.evictingAt, h.pins]
    intro hk
    split at hk
    · cases hk
    · exact hw.pins k hk
  within scope := ⟨(h.usage scope).1.trans (hw.within scope).1, (h.usage scope).2.trans (hw.within scope).2⟩

theorem Base.unlinkFinal (hw : Base c w) (hmarked : w.inventory.evictingAt ref = some true) :
    Base c (w.unlinkFinal ref) where
  described := hw.described
  address k x hx := by
    change Function.update w.files.final ref none k = some x at hx
    by_cases hk : k = ref
    · rw [hk, Function.update_self] at hx
      cases hx
    · rw [Function.update_of_ne hk] at hx
      exact hw.address k x hx
  readable k hreadable := by
    change Function.update w.files.final ref none k ≠ none
    have hk : k ≠ ref := by
      rintro rfl
      change w.inventory.Readable k at hreadable
      unfold Inventory.Readable at hreadable
      rw [hmarked] at hreadable
      cases hreadable with
      | inl hentry => cases hentry
      | inr hlegacy => cases hlegacy.2
    rw [Function.update_of_ne hk]
    exact hw.readable k hreadable
  pins := hw.pins
  within := hw.within

theorem Base.replaceFinal {x : Content} (hw : Base c w) (hx : contentId x ref.scope = ref.assetId) :
    Base c (w.replaceFinal operation ref x) where
  described := hw.described
  address k y hy := by
    change Function.update w.files.final ref (some x) k = some y at hy
    by_cases hk : k = ref
    · rw [hk, Function.update_self] at hy
      obtain rfl := Option.some.inj hy
      rw [hk]
      exact hx
    · rw [Function.update_of_ne hk] at hy
      exact hw.address k y hy
  readable k hreadable := by
    change Function.update w.files.final ref (some x) k ≠ none
    by_cases hk : k = ref
    · rw [hk, Function.update_self]
      exact Option.some_ne_none _
    · rw [Function.update_of_ne hk]
      exact hw.readable k hreadable
  pins := hw.pins
  within := hw.within

theorem sizeBytes_asset (m : Inventory.Registration) (row : Option AssetRow) : (m.asset row).sizeBytes = m.sizeBytes := by
  cases row with
  | none => rfl
  | some _ => rfl

theorem Base.register {adopted : Bool} (hinj : Function.Injective (ContentHashing.sha256)) (hw : Base c w)
    (hfits : job.Fits w.inventory p) (hp : p = c.of job.request.scope)
    (hfinal : w.files.final job.ref = some job.request.content)
    (h : Inventory.Registered w.inventory (job.registration p) adopted s) : Base c { w with inventory := s } := by
  have hsame : ∀ x, contentId x job.ref.scope = job.ref.assetId → x = job.request.content :=
    fun x hx => contentId_injective hinj hx
  have href : (job.registration p).ref = job.ref := rfl
  constructor
  · constructor
    · intro k row hk
      change s.assets.get k = some row at hk
      rw [h.assets, href] at hk
      split at hk
      · rename_i hkref
        obtain rfl := Option.some.inj hk
        rw [sizeBytes_asset, hkref]
        intro x hx
        rw [hsame x hx]
        rfl
      · exact hw.described.assets k row hk
    · intro k n hk
      rw [h.sizeAt, href] at hk
      split at hk
      · rename_i hkref
        obtain rfl := Option.some.inj hk
        rw [hkref.1]
        intro x hx
        rw [hsame x hx]
        rfl
      · exact hw.described.sizes k n hk
    · intro k d hk
      rw [h.digestAt, href] at hk
      split at hk
      · rename_i hkref
        obtain rfl := Option.some.inj hk
        rw [hkref.1]
        intro x hx
        rw [hsame x hx]
        rfl
      · exact hw.described.digests k d hk
  · exact hw.address
  · intro k hk
    by_cases hkref : k = job.ref
    · change w.files.final k ≠ none
      rw [hkref, hfinal]
      exact Option.some_ne_none _
    apply hw.readable k
    change s.Readable k at hk
    unfold Inventory.Readable at hk ⊢
    rw [h.evictingAt, h.assets, href, if_neg hkref, if_neg fun hboth => hkref hboth.1] at hk
    exact hk
  · intro k hk
    change s.evictingAt k = some true at hk
    change ∀ q ∈ s.pins.rows, q.ref = k → q.expiresAt ≤ w.clock
    rw [h.pins]
    rw [h.evictingAt] at hk
    split at hk
    · cases hk
    · exact hw.pins k hk
  · intro scope
    change s.Within (c.of scope) scope
    unfold Inventory.Within
    rw [h.usage]
    split
    · rename_i hscope
      rw [hscope.1]
      rw [hp] at hfits
      exact hfits
    · exact hw.within scope

end World

theorem Stage.Sound.restage {st' : Stage} (h : st.Sound p w job) : st.Sound p (w.goto job st') { job with stage := st' } := by
  have hroom : ∀ {r : Room}, r.Sound w.inventory p job → r.Sound w.inventory p { job with stage := st' } :=
    fun hr => ⟨hr.managed, hr.own, hr.bytes, hr.items, hr.within, hr.excluded⟩
  have hdoomed : ∀ {v : Victim}, job.Doomed w v → Job.Doomed { job with stage := st' } (w.goto job st') v :=
    fun hv => ⟨hv.other, hv.unread, hv.marked, hv.size⟩
  cases st with
  | loop r => exact hroom h
  | candidates r protectRaw => exact hroom h
  | evict r v rest => exact ⟨hroom h.1, h.2⟩
  | unlink r v rest => exact ⟨hroom h.1, h.2.1, hdoomed h.2.2⟩
  | unlinkMarker r v rest => exact ⟨hroom h.1, h.2.1, hdoomed h.2.2.1, h.2.2.2⟩
  | finish r v rest => exact ⟨hroom h.1, h.2.1, hdoomed h.2.2.1, h.2.2.2⟩
  | evicted r rest => exact ⟨hroom h.1, h.2⟩
  | _ => exact h

namespace World

theorem Sound.of_goto (hw : Base c w) (hst : st.Sound (c.of job.request.scope) w job) : Sound c (w.goto job st) where
  toBase := hw.goto
  stage := by
    rintro _ ⟨⟩
    exact hst.restage

theorem Sound.checked (hw : Base c w) (hnext : Sound c w') : Sound c (w.checked job a w') := by
  unfold World.checked
  split
  · exact hnext
  · exact Sound.of_goto hw trivial

end World

theorem sized_of_fresh (protectRaw : Bool) (hr : r.Sound s p job) :
    ∀ v ∈ job.fresh r protectRaw p s, job.Sized s v := by
  intro v hv
  rw [Job.fresh, List.mem_filter, Bool.and_eq_true, Bool.not_eq_true', decide_eq_false_iff_not] at hv
  obtain ⟨hcandidate, hexcluded, -⟩ := hv
  constructor
  · intro hsame
    rw [hsame] at hexcluded
    exact hexcluded hr.excluded
  intro n hn
  obtain ⟨e, he, rfl⟩ := List.mem_map.mp hcandidate
  have hrow := (List.mem_insertionSort _).mp (List.mem_of_mem_take he)
  rw [List.mem_filter] at hrow
  obtain ⟨hmem, hmatch⟩ := hrow
  simp only [Inventory.CandidateQuery.matching, Inventory.inScope, Bool.and_eq_true, decide_eq_true_eq] at hmatch
  have hscope : e.ref.scope = job.request.scope := hmatch.1.1.1
  have hget : s.entries.get (job.victim (e.ref.assetId, e.sizeBytes)) = some e := by
    rw [Table.get_eq_some]
    refine ⟨hmem, ?_⟩
    rw [Job.victim, ← hscope]
  rw [Inventory.sizeAt, hget] at hn
  exact (Option.some.inj hn).symm

theorem Room.Sound.marked {now : Instant} (h : Inventory.Marked s ref now s') (hr : r.Sound s p job) : r.Sound s' p job where
  managed := hr.managed
  own := hr.own.trans (h.sizeAt _).symm
  bytes := by
    rw [h.others]
    exact hr.bytes
  items := by
    rw [h.others]
    exact hr.items
  within := hr.within
  excluded := hr.excluded

theorem Job.victim_ne (hv : v.1 ≠ job.ref.assetId) : job.ref ≠ job.victim v := by
  intro hsame
  rw [hsame] at hv
  exact hv rfl

theorem Room.Sound.freed (h : Inventory.Finished s (job.victim v) v.2 s') (hv : v.1 ≠ job.ref.assetId)
    (hr : r.Sound s p job) : (r.freed v).Sound s' p job := by
  have hne := Job.victim_ne hv
  obtain ⟨hbytes, hitems⟩ := h.others job.ref hne rfl
  have hb := hr.bytes
  have hi := hr.items
  have hwithin := hr.within
  refine ⟨hr.managed, ?_, ?_, ?_, ?_, hr.excluded⟩
  · rw [h.sizeAt, if_neg hne]
    exact hr.own
  · change _ + ((r.own.getD 0 : ℕ) : ℤ) ≤ r.used - (v.2 : ℤ)
    omega
  · change _ + (r.own.elim 0 fun _ => (1 : ℤ)) ≤ r.count - 1
    omega
  · change r.used - (v.2 : ℤ) ≤ _ ∧ r.count - 1 ≤ _
    omega

theorem Job.Sized.finished {v' : Victim} {n : ℕ} (h : Inventory.Finished s (job.victim v) n s') (hv : job.Sized s v') :
    job.Sized s' v' := by
  refine ⟨hv.1, ?_⟩
  intro m hm
  rw [h.sizeAt] at hm
  split at hm
  · cases hm
  · exact hv.2 m hm

namespace World

theorem Sound.tryEvict (hw : Base c w) (hr : r.Sound w.inventory (c.of job.request.scope) job)
    (hsized : ∀ v' ∈ v :: rest, job.Sized w.inventory v') :
    Sound c (w.tryEvict (c.of job.request.scope) job a r v rest) := by
  have hrest : ∀ v' ∈ rest, job.Sized w.inventory v' := fun v' hv' => hsized v' (List.mem_cons_of_mem _ hv')
  have hv := hsized v List.mem_cons_self
  have hnext := Sound.of_goto hw ((hr.visit (v := v)).proceed hrest)
  unfold World.tryEvict
  split
  · exact hnext
  rename_i hunread
  apply Sound.checked hw
  cases hmark : w.inventory.managedMarkEvicting (job.victim v) w.clock with
  | mk marked s =>
    cases marked with
    | false => exact hnext
    | true =>
      have h := Inventory.marked_of_mark hmark
      obtain ⟨n, hn⟩ := Option.ne_none_iff_exists'.mp h.row
      apply Sound.of_goto (hw.mark h)
      refine ⟨(hr.visit).marked h, ?_, ?_⟩
      · intro v' hv'
        refine ⟨(hrest v' hv').1, ?_⟩
        change ∀ m, s.sizeAt _ = some m → _
        rw [h.sizeAt]
        exact (hrest v' hv').2
      refine ⟨hv.1, hunread, ?_, ?_⟩
      · change s.evictingAt _ = _
        rw [h.evictingAt, if_pos rfl]
      · change s.sizeAt _ = _
        rw [h.sizeAt, hn, hv.2 n hn]

theorem Sound.settleStore (hinj : Function.Injective (ContentHashing.sha256)) (hw : Base c w)
    (hadmitted : job.Admitted w.inventory (c.of job.request.scope))
    (hfinal : w.files.final job.ref = some job.request.content) :
    Sound c (w.settleStore (c.of job.request.scope) job) := by
  unfold World.settleStore
  cases hadmitted with
  | inl hlegacy =>
    rw [hlegacy.1, if_pos rfl]
    apply Sound.of_goto hw
    cases job.current with
    | none => trivial
    | some row =>
      refine ⟨hfinal, ?_⟩
      rw [hlegacy.2]
      exact (Option.some_ne_none _).symm
  | inr hmanaged =>
    rw [hmanaged.1, if_neg Bool.false_ne_true]
    have h := Inventory.registered_of_register w.inventory (job.registration (c.of job.request.scope))
    apply Sound.of_goto (hw.register hinj hmanaged.2 rfl hfinal h)
    refine ⟨hfinal, ?_⟩
    rw [h.evictingAt]
    cases h.adopts with
    | inl hadopted =>
      rw [if_pos ⟨rfl, hadopted⟩]
      exact fun hfalse => Bool.false_ne_true (Option.some.inj hfalse)
    | inr hnone =>
      split
      · exact fun hfalse => Bool.false_ne_true (Option.some.inj hfalse)
      change w.inventory.evictingAt job.ref = none at hnone
      rw [hnone]
      exact (Option.some_ne_none _).symm

theorem Sound.advance (hinj : Function.Injective (ContentHashing.sha256)) (hw : Sound c w) (hactive : w.active = some job) :
    Sound c (w.advance c job a) := by
  have hbase := hw.toBase
  have hst := hw.stage job hactive
  unfold World.advance
  cases hstage : job.stage with
  | check => exact Sound.checked hbase (Sound.of_goto hbase trivial)
  | registration => exact Sound.of_goto hbase trivial
  | entry =>
    dsimp only
    split
    · rename_i hlegacy
      split
      · exact Sound.of_goto hbase trivial
      refine Sound.of_goto hbase (.inl ⟨rfl, ?_⟩)
      change (w.inventory.entries.get job.ref).map _ = none
      rw [hlegacy.2]
      rfl
    · exact Sound.of_goto hbase ⟨rfl, List.mem_cons_self⟩
  | pins excluded =>
    rw [hstage] at hst
    exact Sound.of_goto hbase ⟨hst.1, List.mem_append_left _ hst.2⟩
  | usage excluded =>
    rw [hstage] at hst
    exact Sound.of_goto hbase ⟨hst.1, hst.2, rfl⟩
  | own excluded used count =>
    rw [hstage] at hst
    obtain ⟨hmanaged, hexcluded, husage⟩ := hst
    obtain ⟨hused, hcount⟩ := Inventory.usage_split w.inventory job.ref
    have hwithin := hbase.within job.request.scope
    rw [show job.ref.scope = job.request.scope from rfl, ← husage] at hused hcount
    unfold Inventory.Within at hwithin
    rw [← husage] at hwithin
    apply Sound.of_goto hbase
    refine ⟨hmanaged, rfl, ?_, ?_, ?_, hexcluded⟩
    · change _ + (((w.inventory.sizeAt job.ref).getD 0 : ℕ) : ℤ) ≤ (used : ℤ)
      dsimp only at hused
      omega
    · change _ + ((w.inventory.sizeAt job.ref).elim 0 fun _ => (1 : ℤ)) ≤ (count : ℤ)
      dsimp only at hcount
      cases hsize : w.inventory.sizeAt job.ref with
      | none =>
        rw [hsize, Option.elim_none] at hcount
        rw [Option.elim_none]
        omega
      | some n =>
        rw [hsize, Option.elim_some] at hcount
        rw [Option.elim_some]
        omega
    · change (used : ℤ) ≤ _ ∧ (count : ℤ) ≤ _
      dsimp only at hwithin
      omega
  | loop r =>
    rw [hstage] at hst
    dsimp only
    split
    · exact Sound.checked hbase (Sound.of_goto hbase hst)
    · exact Sound.of_goto hbase (Room.Sound.leave hst)
  | candidates r protectRaw =>
    rw [hstage] at hst
    have hsized := sized_of_fresh protectRaw hst
    dsimp only
    cases hfresh : job.fresh r protectRaw (c.of job.request.scope) w.inventory with
    | nil => exact Sound.of_goto hbase (Room.Sound.leave hst)
    | cons v rest =>
      rw [hfresh] at hsized
      exact Sound.of_goto hbase ⟨hst, hsized⟩
  | evict r v rest =>
    rw [hstage] at hst
    exact Sound.tryEvict hbase hst.1 hst.2
  | unlink r v rest =>
    rw [hstage] at hst
    obtain ⟨hr, hrest, hv⟩ := hst
    apply Sound.checked hbase
    apply Sound.of_goto (hbase.unlinkFinal hv.marked)
    exact ⟨hr, hrest, ⟨hv.other, hv.unread, hv.marked, hv.size⟩, Function.update_self ..⟩
  | unlinkMarker r v rest =>
    rw [hstage] at hst
    obtain ⟨hr, hrest, hv, hnone⟩ := hst
    apply Sound.of_goto hbase.unlinkPending
    exact ⟨hr, hrest, ⟨hv.other, hv.unread, hv.marked, hv.size⟩, hnone⟩
  | finish r v rest =>
    rw [hstage] at hst
    obtain ⟨hr, hrest, hv, -⟩ := hst
    obtain ⟨e, he, hsize⟩ := Option.map_eq_some_iff.mp hv.size
    have hmarked := hv.marked
    rw [Inventory.evictingAt, he] at hmarked
    have h := Inventory.finished_of_finish he (Option.some.inj hmarked)
    rw [hsize] at h
    apply Sound.checked hbase
    exact Sound.of_goto (hbase.finish h) ⟨hr.freed h hv.other, fun v' hv' => (hrest v' hv').finished h⟩
  | evicted r rest =>
    rw [hstage] at hst
    exact Sound.checked hbase (Sound.of_goto hbase (hst.1.proceed hst.2))
  | inspect =>
    rw [hstage] at hst
    apply Sound.checked hbase
    apply Sound.of_goto hbase
    split
    · rename_i hvalid
      exact ⟨hst, hvalid.2⟩
    · exact hst
  | stage =>
    rw [hstage] at hst
    exact Sound.of_goto hbase.writeStaged ⟨hst, Function.update_self ..⟩
  | mark operation =>
    rw [hstage] at hst
    dsimp only
    split
    · exact Sound.of_goto hbase.writePending hst
    · exact Sound.of_goto hbase trivial
  | replace operation =>
    rw [hstage] at hst
    dsimp only
    rw [hst.2]
    apply Sound.of_goto (hbase.replaceFinal rfl)
    exact ⟨hst.1, Function.update_self ..⟩
  | discard operation => exact Sound.of_goto hbase.unlinkStaged trivial
  | settle =>
    rw [hstage] at hst
    exact Sound.checked hbase (Sound.settleStore hinj hbase hst.1 hst.2)
  | confirm row =>
    rw [hstage] at hst
    exact Sound.of_goto hbase.unlinkPending hst
  | final row =>
    rw [hstage] at hst
    exact Sound.checked hbase (Sound.of_goto hbase hst)
  | returned row => exact hw
  | failed => exact hw

end World

inductive Advanced (w : World) (job : Job) : Inventory → Files → Prop
  | same : Advanced w job w.inventory w.files
  | mark {v : Victim} {s : Inventory} (h : Inventory.Marked w.inventory (job.victim v) w.clock s)
      (unread : job.victim v ∉ w.readers) : Advanced w job s w.files
  | unlink {v : Victim} (h : job.Doomed w v) : Advanced w job w.inventory (w.unlinkFinal (job.victim v)).files
  | unlinkMarker {v : Victim} (h : job.Doomed w v) (hnone : w.files.final (job.victim v) = none) :
      Advanced w job w.inventory (w.unlinkPending (job.victim v)).files
  | finish {v : Victim} {s : Inventory} {n : ℕ} (h : job.Doomed w v) (hnone : w.files.final (job.victim v) = none)
      (hs : Inventory.Finished w.inventory (job.victim v) n s) : Advanced w job s w.files
  | writeStaged (operation : String) :
      Advanced w job w.inventory (w.writeStaged operation job.ref job.request.content).files
  | writePending : Advanced w job w.inventory (w.writePending job.ref).files
  | replaceFinal (operation : String) :
      Advanced w job w.inventory (w.replaceFinal operation job.ref job.request.content).files
  | unlinkStaged (operation : String) : Advanced w job w.inventory (w.unlinkStaged operation).files
  | register {m : Inventory.Registration} {adopted : Bool} {s : Inventory} (hm : m.ref = job.ref)
      (hs : Inventory.Registered w.inventory m adopted s) : Advanced w job s w.files
  | confirm (hstored : job.Stored w) : Advanced w job w.inventory (w.unlinkPending job.ref).files

structure AdvanceStep (w : World) (job : Job) (w' : World) : Prop where
  effect : Advanced w job w'.inventory w'.files
  clock : w'.clock = w.clock
  readers : w'.readers = w.readers
  readings : w'.readings = w.readings

theorem AdvanceStep.checked (h : AdvanceStep w job w') : AdvanceStep w job (w.checked job a w') := by
  unfold World.checked
  split
  · exact h
  · exact ⟨.same, rfl, rfl, rfl⟩

namespace World

theorem advanceStep_advance (hw : Sound c w) (hactive : w.active = some job) : AdvanceStep w job (w.advance c job a) := by
  have hst := hw.stage job hactive
  have hsame : ∀ job' st, AdvanceStep w job (w.goto job' st) := fun _ _ => ⟨.same, rfl, rfl, rfl⟩
  unfold World.advance
  cases hstage : job.stage with
  | check => exact (hsame _ _).checked
  | registration => exact hsame _ _
  | entry =>
    dsimp only
    split
    · split
      · exact hsame _ _
      · exact hsame _ _
    · exact hsame _ _
  | pins excluded => exact hsame _ _
  | usage excluded => exact hsame _ _
  | own excluded used count => exact hsame _ _
  | loop r =>
    dsimp only
    split
    · exact (hsame _ _).checked
    · exact hsame _ _
  | candidates r protectRaw =>
    dsimp only
    cases job.fresh r protectRaw (c.of job.request.scope) w.inventory with
    | nil => exact hsame _ _
    | cons v rest => exact hsame _ _
  | evict r v rest =>
    dsimp only
    unfold World.tryEvict
    split
    · exact hsame _ _
    rename_i hunread
    apply AdvanceStep.checked
    cases hmark : w.inventory.managedMarkEvicting (job.victim v) w.clock with
    | mk marked s =>
      cases marked with
      | false => exact hsame _ _
      | true => exact ⟨.mark (Inventory.marked_of_mark hmark) hunread, rfl, rfl, rfl⟩
  | unlink r v rest =>
    rw [hstage] at hst
    exact AdvanceStep.checked ⟨.unlink hst.2.2, rfl, rfl, rfl⟩
  | unlinkMarker r v rest =>
    rw [hstage] at hst
    exact ⟨.unlinkMarker hst.2.2.1 hst.2.2.2, rfl, rfl, rfl⟩
  | finish r v rest =>
    rw [hstage] at hst
    obtain ⟨-, -, hv, hnone⟩ := hst
    obtain ⟨e, he, -⟩ := Option.map_eq_some_iff.mp hv.size
    have hmarked := hv.marked
    rw [Inventory.evictingAt, he] at hmarked
    have h := Inventory.finished_of_finish he (Option.some.inj hmarked)
    exact AdvanceStep.checked ⟨.finish hv hnone h, rfl, rfl, rfl⟩
  | evicted r rest => exact (hsame _ _).checked
  | inspect => exact (hsame _ _).checked
  | stage => exact ⟨.writeStaged a.operation, rfl, rfl, rfl⟩
  | mark operation =>
    dsimp only
    split
    · exact ⟨.writePending, rfl, rfl, rfl⟩
    · exact hsame _ _
  | replace operation =>
    rw [hstage] at hst
    dsimp only
    rw [hst.2]
    exact ⟨.replaceFinal operation, rfl, rfl, rfl⟩
  | discard operation => exact ⟨.unlinkStaged operation, rfl, rfl, rfl⟩
  | settle =>
    apply AdvanceStep.checked
    unfold World.settleStore
    split
    · exact hsame _ _
    · exact ⟨.register (m := job.registration (c.of job.request.scope)) rfl (Inventory.registered_of_register _ _), rfl, rfl, rfl⟩
  | confirm row =>
    rw [hstage] at hst
    exact ⟨.confirm hst, rfl, rfl, rfl⟩
  | final row => exact (hsame _ _).checked
  | returned row => exact ⟨.same, rfl, rfl, rfl⟩
  | failed => exact ⟨.same, rfl, rfl, rfl⟩

end World

end GameLink.Resources

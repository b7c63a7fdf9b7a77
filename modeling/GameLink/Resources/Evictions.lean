import GameLink.Resources.Opens

namespace GameLink.Resources

open Foundation Contracts

namespace Inventory

variable {a b x : EntryRow}

theorem expiryOrder_total (a b : EntryRow) : expiryOrder a b = true ∨ expiryOrder b a = true := by
  have hnames := String.le_total a.ref.assetId b.ref.assetId
  simp only [expiryOrder, Bool.or_eq_true, Bool.and_eq_true, decide_eq_true_eq]
  grind

theorem expiryOrder_trans (h : expiryOrder a b = true) (h' : expiryOrder b x = true) : expiryOrder a x = true := by
  have hnames := fun (hab : a.ref.assetId ≤ b.ref.assetId) (hbx : b.ref.assetId ≤ x.ref.assetId) => String.le_trans hab hbx
  simp only [expiryOrder, Bool.or_eq_true, Bool.and_eq_true, decide_eq_true_eq] at *
  unfold Instant at *
  grind

theorem accessOrder_total (a b : EntryRow) : accessOrder a b = true ∨ accessOrder b a = true := by
  have hnames := String.le_total a.ref.assetId b.ref.assetId
  simp only [accessOrder, Bool.or_eq_true, Bool.and_eq_true, decide_eq_true_eq]
  grind

theorem accessOrder_trans (h : accessOrder a b = true) (h' : accessOrder b x = true) : accessOrder a x = true := by
  have hnames := fun (hab : a.ref.assetId ≤ b.ref.assetId) (hbx : b.ref.assetId ≤ x.ref.assetId) => String.le_trans hab hbx
  simp only [accessOrder, Bool.or_eq_true, Bool.and_eq_true, decide_eq_true_eq] at *
  unfold Instant at *
  grind

def passOrder (expiredOnly : Bool) (a b : EntryRow) : Bool := if expiredOnly then expiryOrder a b else accessOrder a b

theorem passOrder_total (expiredOnly : Bool) (a b : EntryRow) :
    passOrder expiredOnly a b = true ∨ passOrder expiredOnly b a = true := by
  cases expiredOnly with
  | false => exact accessOrder_total a b
  | true => exact expiryOrder_total a b

theorem passOrder_trans {expiredOnly : Bool} (h : passOrder expiredOnly a b = true)
    (h' : passOrder expiredOnly b x = true) : passOrder expiredOnly a x = true := by
  cases expiredOnly with
  | false => exact accessOrder_trans h h'
  | true => exact expiryOrder_trans h h'

instance (expiredOnly : Bool) : Std.Total fun a b => passOrder expiredOnly a b = true := ⟨passOrder_total expiredOnly⟩

instance (expiredOnly : Bool) : IsTrans EntryRow fun a b => passOrder expiredOnly a b = true :=
  ⟨fun _ _ _ => passOrder_trans⟩

end Inventory

theorem next_of_pairwise {α : Type} {R : α → α → Prop} {l xs ys : List α} {y z : α} {n : ℕ} (hl : l.Pairwise R)
    (h : l.take n = xs ++ y :: ys) (hz : z ∈ l) : z ∈ xs ∨ z = y ∨ R y z := by
  rw [← List.take_append_drop n l, h, List.append_assoc, List.cons_append] at hl hz
  cases List.mem_append.mp hz with
  | inl hxs => exact .inl hxs
  | inr hrest =>
    cases List.mem_cons.mp hrest with
    | inl hy => exact .inr (.inl hy)
    | inr hlater => exact .inr (.inr ((List.pairwise_cons.mp (List.pairwise_append.mp hl).2.1).1 z hlater))

section

variable {c : CachePolicies} {p : ResourceCachePolicy} {w w' w₀ : World} {job : Job} {r : Room}
  {v : Victim} {rest done : List Victim} {s s' : Inventory} {e : EntryRow} {a : Answer} {k : Ref} {id : String}

def Job.Old (job : Job) (e : EntryRow) : Prop := e.evicting = true ∨ e.expiresAt ≤ job.now

/-- The rows that a pass may evict. -/
structure Job.Eligible (job : Job) (r : Room) (e : EntryRow) : Prop where
  scope : e.ref.scope = job.request.scope
  old : r.expiredOnly = true → job.Old e
  spared : e.ref.assetId ∉ r.excluded
  unvisited : e.ref.assetId ∉ r.visited

variable {protectRaw : Bool}

theorem matching_iff : (job.query r protectRaw p).matching e = true ↔
    job.Eligible r e ∧ (protectRaw = true → e.cacheClass ≠ .raw) := by
  simp only [Inventory.CandidateQuery.matching, Job.query, Inventory.inScope, Bool.and_eq_true, Bool.or_eq_true,
    Bool.not_eq_true', decide_eq_true_eq, decide_eq_false_iff_not, List.mem_append, not_or]
  constructor
  · intro h
    refine ⟨⟨of_decide_eq_true h.1.1.1, ?_, h.2.1, h.2.2⟩, ?_⟩
    · intro hexpired
      have hold := h.1.1.2
      rw [hexpired] at hold
      unfold Job.Old
      grind
    intro hprotect
    have hraw := h.1.2
    rw [hprotect] at hraw
    grind
  · rintro ⟨h, hraw⟩
    refine ⟨⟨⟨decide_eq_true h.scope, ?_⟩, ?_⟩, h.spared, h.unvisited⟩
    · have hold := h.old
      unfold Job.Old at hold
      grind
    · grind

theorem victim_eq (h : e.ref.scope = job.request.scope) : job.victim (e.ref.assetId, e.sizeBytes) = e.ref := by
  rw [Job.victim, ← h]

/-- Where the rows of a batch stand among those that the pass may evict. -/
structure Job.Turn (job : Job) (r : Room) (protectRaw : Bool) (s : Inventory) (done : List Victim) (v : Victim) (e : EntryRow) :
    Prop where
  row : s.entries.get (job.victim v) = some e
  size : e.sizeBytes = v.2
  eligible : job.Eligible r e
  unprotected : protectRaw = true → e.cacheClass ≠ .raw
  first : ∀ k e', s.entries.get k = some e' → job.Eligible r e' → e'.cacheClass = e.cacheClass →
    k.assetId ∈ done.map Prod.fst ∨ Inventory.passOrder r.expiredOnly e e' = true

def Job.candidates (job : Job) (r : Room) (protectRaw : Bool) (p : ResourceCachePolicy) (s : Inventory) : List EntryRow :=
  (s.entries.rows.filter (job.query r protectRaw p).matching).insertionSort
    fun a b => Inventory.passOrder r.expiredOnly a b = true

theorem mem_candidates : e ∈ job.candidates r protectRaw p s ↔
    s.entries.get e.ref = some e ∧ job.Eligible r e ∧ (protectRaw = true → e.cacheClass ≠ .raw) := by
  rw [Job.candidates, List.mem_insertionSort, List.mem_filter, matching_iff, Table.get_eq_some]
  simp

theorem fresh_eq (job : Job) (r : Room) (protectRaw : Bool) (p : ResourceCachePolicy) (s : Inventory) :
    job.fresh r protectRaw p s = ((job.candidates r protectRaw p s).take
      (min p.cleanupBatch (r.inventory - r.visited.length))).map fun e => (e.ref.assetId, e.sizeBytes) := by
  apply List.filter_eq_self.mpr
  intro v hv
  obtain ⟨e, he, rfl⟩ := List.mem_map.mp hv
  have heligible := (mem_candidates.mp (List.mem_of_mem_take he)).2.1
  rw [Bool.and_eq_true, Bool.not_eq_true', Bool.not_eq_true', decide_eq_false_iff_not, decide_eq_false_iff_not]
  exact ⟨heligible.spared, heligible.unvisited⟩

theorem turn_of_fresh (h : job.fresh r protectRaw p s = done ++ v :: rest) :
    ∃ e, job.Turn r protectRaw s done v e := by
  rw [fresh_eq] at h
  obtain ⟨xs, zs, htake, hdone, hrest⟩ := List.map_eq_append_iff.mp h
  obtain ⟨e, ys, rfl, hv, -⟩ := List.map_eq_cons_iff.mp hrest
  have hin : e ∈ xs ++ e :: ys := List.mem_append_right _ List.mem_cons_self
  rw [← htake] at hin
  obtain ⟨hrow, heligible, hraw⟩ := mem_candidates.mp (List.mem_of_mem_take hin)
  subst hv
  refine ⟨e, ?_, rfl, heligible, hraw, ?_⟩
  · rw [victim_eq heligible.scope]
    exact hrow
  intro k e' he' heligible' hclass
  have hkey := Table.key_of_get he'
  have hmem : e' ∈ job.candidates r protectRaw p s := by
    apply mem_candidates.mpr
    rw [hkey, hclass]
    exact ⟨he', heligible', hraw⟩
  have hplace := next_of_pairwise (List.pairwise_insertionSort _ _) htake hmem
  rcases hplace with hbefore | rfl | hafter
  · left
    rw [← hdone, List.map_map, ← hkey]
    exact List.mem_map_of_mem hbefore
  · right
    cases Inventory.passOrder_total r.expiredOnly e' e' with
    | inl h => exact h
    | inr h => exact h
  · exact .inr hafter

theorem fresh_nodup (job : Job) (r : Room) (protectRaw : Bool) (p : ResourceCachePolicy) (s : Inventory) :
    ((job.fresh r protectRaw p s).map Prod.fst).Nodup := by
  have hrefs : ((job.candidates r protectRaw p s).map EntryRow.ref).Nodup := by
    apply (((List.perm_insertionSort _ _).map EntryRow.ref).nodup_iff).mpr
    exact s.entries.unique.sublist (List.filter_sublist.map _)
  have hnames : (job.candidates r protectRaw p s).Pairwise fun a b => a.ref.assetId ≠ b.ref.assetId := by
    apply (List.pairwise_map.mp hrefs).imp_of_mem
    intro a b ha hb hne hsame
    apply hne
    rw [← victim_eq (mem_candidates.mp ha).2.1.scope, ← victim_eq (mem_candidates.mp hb).2.1.scope]
    exact congrArg (Ref.mk _) hsame
  rw [fresh_eq, List.map_map]
  exact List.pairwise_map.mpr (hnames.sublist (List.take_sublist _ _))

/-- The rows stay as they were, up to the last access. -/
structure Inventory.SameRows (s s' : Inventory) : Prop where
  rows : ∀ k, (s'.entries.get k).map (Inventory.touched 0) = (s.entries.get k).map (Inventory.touched 0)
  usage : ∀ scope, s'.managedUsage scope = s.managedUsage scope
  raw : ∀ scope, s'.managedClassUsage scope .raw = s.managedClassUsage scope .raw

theorem sameRows_of_eq (h : s'.entries = s.entries) : Inventory.SameRows s s' := by
  refine ⟨fun k => ?_, fun scope => ?_, fun scope => ?_⟩
  · rw [h]
  · rw [Inventory.managedUsage, h]
    rfl
  · rw [Inventory.managedClassUsage, h]
    rfl

theorem Inventory.SameRows.row {e' : EntryRow} (h : Inventory.SameRows s s') (he : s'.entries.get k = some e') :
    ∃ e, s.entries.get k = some e ∧ Inventory.touched 0 e = Inventory.touched 0 e' := by
  have hrow := h.rows k
  rw [he, Option.map_some, eq_comm, Option.map_eq_some_iff] at hrow
  exact hrow

theorem Inventory.SameRows.none (h : Inventory.SameRows s s') (he : s.entries.get k = none) : s'.entries.get k = none := by
  have hrow := h.rows k
  rw [he, Option.map_none, Option.map_eq_none_iff] at hrow
  exact hrow

theorem Inventory.SameRows.sizeAt (h : Inventory.SameRows s s') (k : Ref) : s'.sizeAt k = s.sizeAt k := by
  have hrow := congrArg (Option.map EntryRow.sizeBytes) (h.rows k)
  rw [Option.map_map, Option.map_map] at hrow
  exact hrow

theorem old_of_touched {e' : EntryRow} (h : Inventory.touched 0 e = Inventory.touched 0 e') : job.Old e ↔ job.Old e' := by
  have hevicting := congrArg EntryRow.evicting h
  have hexpires := congrArg EntryRow.expiresAt h
  change e.evicting = e'.evicting at hevicting
  change e.expiresAt = e'.expiresAt at hexpires
  rw [Job.Old, Job.Old, hevicting, hexpires]

variable {H H' : World → Prop} {busy excluded : List String} {st : Stage}

/-- `_room` has read `done ++ rest` as a batch in `w₀`. -/
structure Job.Batch (c : CachePolicies) (job : Job) (r : Room) (done rest : List Victim) (w₀ : World) (r₀ : Room)
    (protectRaw : Bool) (s : Inventory) : Prop where
  active : w₀.active = some { job with stage := .candidates r₀ protectRaw }
  protects : protectRaw = job.protectsRaw r₀ (c.of job.request.scope) w₀.inventory
  pass : r₀.expiredOnly = r.expiredOnly
  excluded : r₀.excluded = r.excluded
  visited : r.visited = r₀.visited ++ done.map Prod.fst
  fresh : job.fresh r₀ protectRaw (c.of job.request.scope) w₀.inventory = done ++ rest
  rows : ∀ v ∈ rest, (s.entries.get (job.victim v)).map (Inventory.touched 0) =
    (w₀.inventory.entries.get (job.victim v)).map (Inventory.touched 0)

def Job.Reads (c : CachePolicies) (H : World → Prop) (w : World) (job : Job) (r : Room) (rest : List Victim) : Prop :=
  ∃ w₀ done r₀ protectRaw, H w₀ ∧ job.Batch c r done rest w₀ r₀ protectRaw w.inventory

structure Around (w w' : World) : Prop where
  active : w'.active = w.active
  clock : w.clock ≤ w'.clock
  readers : ∀ ref ∈ w'.readers, ref ∈ w.readers
  pins : ∀ q ∈ w'.inventory.pins.rows, q ∈ w.inventory.pins.rows
  rows : Inventory.SameRows w.inventory w'.inventory

theorem Job.Reads.around (h : Around w w') (hjob : job.Reads c H w r rest) : job.Reads c H w' r rest := by
  obtain ⟨w₀, done, r₀, protectRaw, hpast, hbatch⟩ := hjob
  exact ⟨w₀, done, r₀, protectRaw, hpast, { hbatch with rows := fun v hv => (h.rows.rows _).trans (hbatch.rows v hv) }⟩

theorem Job.Reads.mono (h : ∀ w₀, H w₀ → H' w₀) (hjob : job.Reads c H w r rest) : job.Reads c H' w r rest := by
  obtain ⟨w₀, done, r₀, protectRaw, hpast, hbatch⟩ := hjob
  exact ⟨w₀, done, r₀, protectRaw, h w₀ hpast, hbatch⟩

theorem Job.Reads.goto (hjob : job.Reads c H w r rest) :
    Job.Reads c H (w.goto job st) { job with stage := st } r rest := by
  obtain ⟨w₀, done, r₀, protectRaw, hpast, hbatch⟩ := hjob
  exact ⟨w₀, done, r₀, protectRaw, hpast, ⟨hbatch.active, hbatch.protects, hbatch.pass, hbatch.excluded, hbatch.visited,
    hbatch.fresh, hbatch.rows⟩⟩

section

variable (hjob : job.Reads c H w r (v :: rest))
include hjob

theorem Job.Reads.turn : ∃ w₀ done r₀ protectRaw e, H w₀ ∧
    job.Batch c r done (v :: rest) w₀ r₀ protectRaw w.inventory ∧ job.Turn r₀ protectRaw w₀.inventory done v e ∧
    (w.inventory.entries.get (job.victim v)).map (Inventory.touched 0) = some (Inventory.touched 0 e) := by
  obtain ⟨w₀, done, r₀, protectRaw, hpast, hbatch⟩ := hjob
  obtain ⟨e, hturn⟩ := turn_of_fresh hbatch.fresh
  refine ⟨w₀, done, r₀, protectRaw, e, hpast, hbatch, hturn, ?_⟩
  rw [hbatch.rows v List.mem_cons_self, hturn.row, Option.map_some]

theorem Job.Reads.spared :
    v.1 ∉ r.excluded ∧ v.1 ∉ rest.map Prod.fst ∧ ∃ e, w.inventory.entries.get (job.victim v) = some e ∧ e.sizeBytes = v.2 := by
  obtain ⟨w₀, done, r₀, protectRaw, e, -, hbatch, hturn, hrow⟩ := hjob.turn
  have hname := congrArg Ref.assetId (Table.key_of_get hturn.row)
  refine ⟨?_, ?_, ?_⟩
  · rw [← hbatch.excluded]
    have hspared := hturn.eligible.spared
    rw [hname] at hspared
    exact hspared
  · have hnodup := fresh_nodup job r₀ protectRaw (c.of job.request.scope) w₀.inventory
    rw [hbatch.fresh, List.map_append, List.map_cons] at hnodup
    exact (List.nodup_cons.mp (List.nodup_append.mp hnodup).2.1).1
  · obtain ⟨e', he', hsame⟩ := Option.map_eq_some_iff.mp hrow
    exact ⟨e', he', (congrArg EntryRow.sizeBytes hsame).trans hturn.size⟩

theorem Job.Reads.visit : job.Reads c H w (r.visit v) rest := by
  obtain ⟨w₀, done, r₀, protectRaw, hpast, hbatch⟩ := hjob
  refine ⟨w₀, done ++ [v], r₀, protectRaw, hpast, hbatch.active, hbatch.protects, hbatch.pass, hbatch.excluded, ?_, ?_, ?_⟩
  · rw [Room.visit, hbatch.visited, List.map_append, List.append_assoc]
    rfl
  · rw [hbatch.fresh, List.append_assoc]
    rfl
  · exact fun v' hv' => hbatch.rows v' (List.mem_cons_of_mem _ hv')

end

theorem Job.Reads.freed (hjob : job.Reads c H w r rest) : job.Reads c H w (r.freed v) rest := by
  obtain ⟨w₀, done, r₀, protectRaw, hpast, hbatch⟩ := hjob
  exact ⟨w₀, done, r₀, protectRaw, hpast, { hbatch with }⟩

theorem Job.Reads.keep (hjob : job.Reads c H w r rest) (honce : v.1 ∉ rest.map Prod.fst)
    (hrows : ∀ k, k ≠ job.victim v → s.entries.get k = w.inventory.entries.get k) :
    job.Reads c H { w with inventory := s } r rest := by
  obtain ⟨w₀, done, r₀, protectRaw, hpast, hbatch⟩ := hjob
  refine ⟨w₀, done, r₀, protectRaw, hpast, { hbatch with rows := ?_ }⟩
  intro v' hv'
  rw [← hbatch.rows v' hv', hrows]
  intro hsame
  apply honce
  have hname : v'.1 = v.1 := congrArg Ref.assetId hsame
  rw [← hname]
  exact List.mem_map_of_mem hv'

variable [ContentHashing]

structure Job.Spares (job : Job) (w : World) (excluded : List String) : Prop where
  now : job.now ≤ w.clock
  self : job.ref.assetId ∈ excluded
  leased : ∀ ref ∈ w.readers, ref.scope = job.request.scope → ref.assetId ∈ excluded

structure Job.SparesPinned (job : Job) (w : World) (excluded : List String) : Prop extends job.Spares w excluded where
  pinned : ∀ q ∈ w.inventory.pins.rows, q.ref.scope = job.request.scope → w.clock < q.expiresAt → q.ref.assetId ∈ excluded

/-- What `_room` has done. `busy` is the victim that is marked, and not yet removed. -/
structure Room.Kept (r : Room) (w : World) (job : Job) (busy : List String) : Prop extends
    job.SparesPinned w r.excluded where
  own : r.own = w.inventory.sizeAt job.ref
  counted : r.used = (w.inventory.managedUsage job.request.scope).1 ∧
    r.count = (w.inventory.managedUsage job.request.scope).2
  left : (w.inventory.managedUsage job.request.scope).2 + r.visited.length = r.inventory + busy.length
  gone : ∀ id ∈ r.visited, id ∉ busy → w.inventory.entries.get ⟨job.request.scope, id⟩ = none
  settled : r.expiredOnly = false → ∀ k e, w.inventory.entries.get k = some e → k.scope = job.request.scope → job.Old e →
    k.assetId ∈ r.excluded ∨ k.assetId ∈ busy

def Room.Wants (r : Room) (p : ResourceCachePolicy) (job : Job) : Prop :=
  r.expiredOnly = false → r.fits p job.size = false

structure Job.Removes (c : CachePolicies) (H : World → Prop) (w : World) (job : Job) (r : Room) (v : Victim)
    (rest : List Victim) : Prop where
  kept : r.Kept w job [v.1]
  row : ∃ e, w.inventory.entries.get (job.victim v) = some e ∧ e.evicting = true ∧ e.sizeBytes = v.2
  spared : v.1 ∉ r.excluded
  reads : job.Reads c H w r rest
  once : v.1 ∉ rest.map Prod.fst

def Stage.Ordered (c : CachePolicies) (H : World → Prop) (w : World) (job : Job) : Stage → Prop
  | registration => job.now ≤ w.clock
  | entry => job.now ≤ w.clock
  | pins excluded => job.Spares w excluded
  | usage excluded => job.SparesPinned w excluded
  | own excluded used count => job.SparesPinned w excluded ∧ (used, count) = w.inventory.managedUsage job.request.scope
  | loop r => r.Kept w job [] ∧ r.Wants (c.of job.request.scope) job
  | candidates r protectRaw => r.Kept w job [] ∧ r.Wants (c.of job.request.scope) job ∧ r.visited.length < r.inventory ∧
      protectRaw = job.protectsRaw r (c.of job.request.scope) w.inventory
  | evict r v rest => r.Kept w job [] ∧ r.Wants (c.of job.request.scope) job ∧ job.Reads c H w r (v :: rest)
  | unlink r v rest => job.Removes c H w r v rest
  | unlinkMarker r v rest => job.Removes c H w r v rest
  | finish r v rest => job.Removes c H w r v rest
  | evicted r rest => r.Kept w job [] ∧ job.Reads c H w r rest
  | _ => True

section

variable (h : Around w w')
include h

theorem Job.Spares.around (hjob : job.Spares w excluded) : job.Spares w' excluded where
  now := hjob.now.trans h.clock
  self := hjob.self
  leased ref href := hjob.leased ref (h.readers ref href)

theorem Job.SparesPinned.around (hjob : job.SparesPinned w excluded) :
    job.SparesPinned w' excluded where
  toSpares := hjob.toSpares.around h
  pinned q hq hscope hlive := hjob.pinned q (h.pins q hq) hscope (lt_of_le_of_lt h.clock hlive)

theorem Room.Kept.around (hr : r.Kept w job busy) : r.Kept w' job busy where
  toSparesPinned := hr.toSparesPinned.around h
  own := hr.own.trans (h.rows.sizeAt _).symm
  counted := by
    rw [h.rows.usage]
    exact hr.counted
  left := by
    rw [h.rows.usage]
    exact hr.left
  gone id hid hbusy := h.rows.none (hr.gone id hid hbusy)
  settled hpass k e' he' hscope hold := by
    obtain ⟨e, he, hsame⟩ := h.rows.row he'
    exact hr.settled hpass k e he hscope ((old_of_touched hsame).mpr hold)

theorem Job.Removes.around (hjob : job.Removes c H w r v rest) : job.Removes c H w' r v rest where
  kept := hjob.kept.around h
  row := by
    obtain ⟨e, he, hevicting, hsize⟩ := hjob.row
    have hrow := h.rows.rows (job.victim v)
    rw [he, Option.map_some, Option.map_eq_some_iff] at hrow
    obtain ⟨e', he', hsame⟩ := hrow
    exact ⟨e', he', (congrArg EntryRow.evicting hsame).trans hevicting, (congrArg EntryRow.sizeBytes hsame).trans hsize⟩
  spared := hjob.spared
  reads := hjob.reads.around h
  once := hjob.once

theorem Stage.Ordered.around (hst : st.Ordered c H w job) : st.Ordered c H w' job := by
  cases st with
  | registration => exact le_trans hst h.clock
  | entry => exact le_trans hst h.clock
  | pins excluded => exact Job.Spares.around h hst
  | usage excluded => exact Job.SparesPinned.around h hst
  | own excluded used count => exact ⟨hst.1.around h, hst.2.trans (h.rows.usage _).symm⟩
  | loop r => exact ⟨hst.1.around h, hst.2⟩
  | candidates r protectRaw =>
    refine ⟨hst.1.around h, hst.2.1, hst.2.2.1, hst.2.2.2.trans ?_⟩
    rw [Job.protectsRaw, Job.protectsRaw, h.rows.raw]
  | evict r v rest => exact ⟨hst.1.around h, hst.2.1, hst.2.2.around h⟩
  | unlink r v rest => exact Job.Removes.around h hst
  | unlinkMarker r v rest => exact Job.Removes.around h hst
  | finish r v rest => exact Job.Removes.around h hst
  | evicted r rest => exact ⟨hst.1.around h, hst.2.around h⟩
  | _ => trivial

end

theorem Job.Removes.mono (h : ∀ w₀, H w₀ → H' w₀) (hjob : job.Removes c H w r v rest) : job.Removes c H' w r v rest :=
  { hjob with reads := hjob.reads.mono h }

theorem Stage.Ordered.mono (h : ∀ w₀, H w₀ → H' w₀) (hst : st.Ordered c H w job) : st.Ordered c H' w job := by
  cases st with
  | evict r v rest => exact ⟨hst.1, hst.2.1, hst.2.2.mono h⟩
  | unlink r v rest => exact Job.Removes.mono h hst
  | unlinkMarker r v rest => exact Job.Removes.mono h hst
  | finish r v rest => exact Job.Removes.mono h hst
  | evicted r rest => exact ⟨hst.1, hst.2.mono h⟩
  | _ => exact hst

theorem Room.Kept.goto (hr : r.Kept w job busy) : r.Kept (w.goto job st) { job with stage := st } busy :=
  ⟨⟨⟨hr.now, hr.self, hr.leased⟩, hr.pinned⟩, hr.own, hr.counted, hr.left, hr.gone, hr.settled⟩

theorem Job.Removes.goto (hjob : job.Removes c H w r v rest) :
    Job.Removes c H (w.goto job st) { job with stage := st } r v rest :=
  ⟨hjob.kept.goto, hjob.row, hjob.spared, hjob.reads.goto, hjob.once⟩

def World.Ordered (c : CachePolicies) (H : World → Prop) (w : World) : Prop :=
  ∀ job, w.active = some job → job.stage.Ordered c H w job

theorem Job.Removes.files {files : Files} (hjob : job.Removes c H w r v rest) :
    job.Removes c H { w with files := files } r v rest :=
  Job.Removes.around (w := w) ⟨rfl, le_refl _, fun _ h => h, fun _ h => h, sameRows_of_eq rfl⟩ hjob

end

namespace Sample

def kept : StoreRequest := ⟨scope, "text/plain", [7], "p/m", some 5, .raw, true⟩

def admitted : StoreRequest := ⟨scope, "text/plain", [8], "p/m", none, .derived, true⟩

/-- A raw entry is stored and expires, and another store reads its first batch. -/
def untilEviction : List Action :=
  .store kept :: List.replicate 8 (.advance ⟨true, ""⟩) ++ .advance ⟨true, "op"⟩ :: List.replicate 5 (.advance ⟨true, ""⟩) ++
    .tick 10 :: .store admitted :: List.replicate 8 (.advance ⟨true, ""⟩)

attribute [local instance] hashing

def full : World := untilEviction.foldl (World.next policies) empty

def due (w : World) : Option (Job × Room × Victim × List Victim) :=
  w.active.bind fun job => match job.stage with
    | .evict r v rest => some (job, r, v, rest)
    | _ => none

end Sample

attribute [local instance] Sample.hashing

open Sample

end GameLink.Resources

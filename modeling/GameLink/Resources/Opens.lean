import GameLink.Resources.Pins

namespace GameLink.Resources

open Foundation Contracts

def Reading.remaining : Reading → ℕ
  | lookup _ => 7
  | lease _ => 6
  | entry _ => 5
  | metadata _ _ => 4
  | fetch _ _ _ => 3
  | file _ _ _ _ => 2
  | touch _ _ => 1
  | _ => 0

def Reading.about : Reading → Option Ref
  | lookup ref => some ref
  | lease ref => some ref
  | entry ref => some ref
  | metadata ref _ => some ref
  | fetch ref _ _ => some ref
  | file ref _ _ _ => some ref
  | touch ref _ => some ref
  | ended ref _ => some ref
  | idle => none

def Reading.found : Reading → Option Content
  | ended _ content => content
  | _ => none

def Action.releases : Action → Bool
  | unpin _ _ => true
  | releaseInvocation _ => true
  | delete _ => true
  | _ => false

section

variable [ContentHashing] {c : CachePolicies} {w w₀ : World} {ref : Ref} {i : ℕ} {pin : PinRow} {content : Content}
  {as : List Action}

theorem remaining_read (hfree : w.lockFree = true) (habout : (w.readings i).about = some ref) :
    ((w.read i).readings i).remaining ≤ (w.readings i).remaining - 1 ∧ ((w.read i).readings i).about = some ref := by
  have hset : ∀ (u : World) (x : Reading), (u.setReading i x).readings i = x := fun u x => Function.update_self ..
  unfold World.read
  cases hreading : w.readings i with
  | idle =>
    rw [hreading] at habout
    cases habout
  | lookup ref' =>
    rw [hreading] at habout
    dsimp only
    rw [hset]
    cases w.inventory.metadata ref' w.clock with
    | none => exact ⟨Nat.zero_le _, habout⟩
    | some m => exact ⟨le_rfl, habout⟩
  | lease ref' =>
    rw [hreading] at habout
    dsimp only
    rw [if_pos hfree, hset]
    exact ⟨le_rfl, habout⟩
  | entry ref' =>
    rw [hreading] at habout
    dsimp only
    split
    · rw [World.endReading, hset]
      exact ⟨Nat.zero_le _, habout⟩
    · rw [hset]
      exact ⟨le_rfl, habout⟩
  | metadata ref' managed =>
    rw [hreading] at habout
    dsimp only
    cases w.inventory.metadata ref' w.clock with
    | none =>
      rw [World.endReading, hset]
      exact ⟨Nat.zero_le _, habout⟩
    | some m =>
      rw [hset]
      exact ⟨le_rfl, habout⟩
  | fetch ref' managed m =>
    rw [hreading] at habout
    dsimp only
    cases w.inventory.metadata ref' w.clock with
    | none =>
      rw [World.endReading, hset]
      exact ⟨Nat.zero_le _, habout⟩
    | some m' =>
      rw [hset]
      exact ⟨le_rfl, habout⟩
  | file ref' managed m m' =>
    rw [hreading] at habout
    dsimp only
    cases w.files.final ref' with
    | none =>
      rw [World.endReading, hset]
      exact ⟨Nat.zero_le _, habout⟩
    | some x =>
      dsimp only
      split
      · split
        · rw [hset]
          exact ⟨le_rfl, habout⟩
        · rw [World.endReading, hset]
          exact ⟨Nat.zero_le _, habout⟩
      · rw [World.endReading, hset]
        exact ⟨Nat.zero_le _, habout⟩
  | touch ref' x =>
    rw [hreading] at habout
    dsimp only
    rw [World.endReading, hset]
    exact ⟨Nat.zero_le _, habout⟩
  | ended ref' x =>
    rw [hreading] at habout
    dsimp only
    rw [hreading]
    exact ⟨Nat.zero_le _, habout⟩

theorem trace_reads (hlive : w.Live pin) (n : ℕ) :
    (pinnedRun c pin).Trace w (List.replicate n (.read i)) ((List.replicate n (.read i)).foldl (World.next c) w) := by
  induction n generalizing w with
  | zero => exact .nil w
  | succ n ih =>
    have hstep := World.readStep_read w i
    have hnext : (w.read i).Live pin := by
      unfold World.Live
      rw [hstep.clock, hstep.assets]
      exact hlive
    exact .cons ⟨trivial, trivial, hnext⟩ (ih hnext)

theorem ended_of_reads {n : ℕ} (hfree : w.lockFree = true) (habout : (w.readings i).about = some ref)
    (hn : (w.readings i).remaining ≤ n) :
    ∃ x, ((List.replicate n (.read i)).foldl (World.next c) w).readings i = .ended ref x := by
  induction n generalizing w with
  | zero =>
    cases hreading : w.readings i with
    | ended ref' x =>
      rw [hreading] at habout
      cases habout
      exact ⟨x, hreading⟩
    | idle =>
      rw [hreading] at habout
      cases habout
    | _ =>
      rw [hreading] at hn
      cases hn
  | succ n ih =>
    obtain ⟨hless, habout'⟩ := remaining_read hfree habout
    apply ih (w := w.read i)
    · rw [World.lockFree, (World.readStep_read w i).active]
      exact hfree
    · exact habout'
    · omega

section

variable (hinj : Function.Injective (ContentHashing.sha256))
include hinj

theorem Pinned.trace (h : Pinned c pin content w₀)
    (hrun : (pinnedRun c pin).Trace w₀ as w) : Pinned c pin content w :=
  hrun.invariant (fun _ _ hs ha => hs.next hinj ha) h

theorem Pinned.onTrack (h : Pinned c pin content w₀)
    (hrun : (pinnedRun c pin).Trace w₀ as w) (hi : (w₀.readings i).OnTrack pin content) :
    (w.readings i).OnTrack pin content := by
  have hboth : Pinned c pin content w ∧ (w.readings i).OnTrack pin content :=
    hrun.invariant (P := fun u => Pinned c pin content u ∧ (u.readings i).OnTrack pin content)
      (fun _ _ hs ha => ⟨hs.1.next hinj ha, hs.1.onTrack_next ha hs.2⟩) ⟨h, hi⟩
  exact hboth.2

theorem Pinned.opens (h : Pinned c pin content w)
    (hfree : w.lockFree = true) (hidle : w.readings i = .idle) :
    ((Action.open i pin.ref :: List.replicate 7 (.read i)).foldl (World.next c) w).readings i =
      .ended pin.ref (some content) := by
  have hset : (w.setReading i (.lookup pin.ref)).readings i = .lookup pin.ref := Function.update_self ..
  have hopen : (pinnedRun c pin).allowed w (.open i pin.ref) := ⟨hidle, trivial, h.live⟩
  have hrun : (pinnedRun c pin).Trace w (.open i pin.ref :: List.replicate 7 (.read i))
      ((List.replicate 7 (.read i)).foldl (World.next c) (w.setReading i (.lookup pin.ref))) :=
    .cons hopen (trace_reads (w := w.setReading i (.lookup pin.ref)) h.live 7)
  have htrack := h.onTrack hinj hrun (i := i) (by rw [hidle]; trivial)
  have habout : ((w.setReading i (.lookup pin.ref)).readings i).about = some pin.ref := by rw [hset]; rfl
  have hremaining : ((w.setReading i (.lookup pin.ref)).readings i).remaining ≤ 7 := by rw [hset]; exact le_rfl
  obtain ⟨x, hx⟩ := ended_of_reads (c := c) (w := w.setReading i (.lookup pin.ref)) hfree habout hremaining
  rw [hx] at htrack
  rw [htrack rfl] at hx
  exact hx

end

end

namespace Sample

@[reducible]
def hashing : ContentHashing := ⟨fun content => String.ofList (content.map fun b => Char.ofNat b.toNat)⟩

attribute [local instance] hashing

def policy : ResourceCachePolicy where
  maxFileBytes := 10
  maxBytes := 20
  maxItems := 4
  ttl := 1000
  maxTtl := 10000
  cleanupBatch := 2
  rawBytes := 15
  rawItems := 3
  positive := by decide +kernel
  within := by decide +kernel
  expiry := by decide +kernel

def policies : CachePolicies := ⟨policy, policy⟩

def scope : OwnerScope := ⟨.public, none, none⟩

def stored (ttl : Instant) : StoreRequest := ⟨scope, "text/plain", [7], "p/m", some ttl, .default, true⟩

def resource : Ref := ⟨scope, contentId [7] scope⟩

def empty : World := ⟨0, ⟨.empty, .empty, .empty, fun _ => 0⟩, ⟨fun _ => none, fun _ => false, fun _ => none⟩, none, [],
  fun _ => .idle⟩

/-- A store and all its stages. `n` of them come before the file is staged. -/
def storing (ttl : Instant) (n : ℕ) (operation : String) (m : ℕ) : List Action :=
  .store (stored ttl) :: List.replicate n (.advance ⟨true, ""⟩) ++ .advance ⟨true, operation⟩ ::
    List.replicate m (.advance ⟨true, ""⟩)

def before : List Action := storing 500 8 "op" 5

def row : AssetRow := ⟨resource, "text/plain", 1, some 500, true, 1⟩

def start : World := before.foldl (World.next policies) empty

def again : List Action := .store (stored 5) :: List.replicate 12 (.advance ⟨true, ""⟩) ++ [.tick 10]

def opening : List Action := .open 0 resource :: List.replicate 7 (.read 0)

def permits (w : World) : Action → Bool
  | .store r => w.lockFree && r.admissible (policies.of r.scope)
  | .advance a => (w.files.staged a.operation).isNone
  | .open i _ => (w.readings i).about.isNone
  | .pin r => w.lockFree && decide (r.now ≤ w.clock) && w.inventory.pins.rows.all fun p => decide (p.pinId ≠ r.pinId)
  | _ => true

theorem allowed_of_permits {w : World} {a : Action} (h : permits w a = true) : (resources policies).allowed w a := by
  cases a with
  | store r =>
    rw [permits, Bool.and_eq_true] at h
    exact h
  | advance answer => exact Option.isNone_iff_eq_none.mp h
  | «open» i ref =>
    change w.readings i = .idle
    change (w.readings i).about.isNone = true at h
    cases hreading : w.readings i with
    | idle => rfl
    | _ =>
      rw [hreading] at h
      cases h
  | pin r =>
    rw [permits, Bool.and_eq_true, Bool.and_eq_true, decide_eq_true_eq] at h
    refine ⟨h.1.1, h.1.2, ?_⟩
    intro p hp
    exact of_decide_eq_true (List.all_eq_true.mp h.2 p hp)
  | _ => trivial

def live (w : World) (pin : PinRow) : Bool :=
  decide (w.clock < pin.expiresAt) &&
    (w.inventory.assets.get pin.ref).all fun r => !Inventory.expired r.expiresAt w.clock

end Sample

attribute [local instance] Sample.hashing

open Sample

end GameLink.Resources

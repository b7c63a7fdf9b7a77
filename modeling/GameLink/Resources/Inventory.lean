import GameLink.Contracts.Identity
import GameLink.Foundation.Totals
import Mathlib.Data.List.Dedup

namespace GameLink.Resources

open Foundation Contracts

abbrev Content := List UInt8

class ContentHashing where
  sha256 : Content → String

structure Ref where
  scope : OwnerScope
  assetId : String
  deriving DecidableEq

inductive ResourceCacheClass where
  | default | raw | derived | output
  deriving DecidableEq

structure AssetRow where
  ref : Ref
  mediaType : String
  sizeBytes : ℕ
  expiresAt : Option Instant
  temporary : Bool
  revision : ℕ
  deriving DecidableEq

structure EntryRow where
  ref : Ref
  moduleId : String
  contentSha256 : String
  sizeBytes : ℕ
  expiresAt : Instant
  lastAccess : Instant
  evicting : Bool
  cacheClass : ResourceCacheClass
  deriving DecidableEq

structure PinRow where
  pinId : String
  moduleId : String
  invocationId : String
  ownerKey : String
  ref : Ref
  expiresAt : Instant
  deriving DecidableEq

def PinRow.key (r : PinRow) : String × Ref := (r.pinId, r.ref)

structure Inventory where
  assets : Table AssetRow.ref
  entries : Table EntryRow.ref
  pins : Table PinRow.key
  evictions : OwnerScope → ℕ

namespace Inventory

def expired (expiresAt : Option Instant) (now : Instant) : Bool := expiresAt.any fun e => e ≤ now

def metadata (s : Inventory) (ref : Ref) (now : Instant) : Option AssetRow :=
  (s.assets.get ref).filter fun r => !expired r.expiresAt now

def inScope (scope : OwnerScope) (r : EntryRow) : Bool := decide (r.ref.scope = scope)

def managedUsage (s : Inventory) (scope : OwnerScope) : ℕ × ℕ :=
  (s.entries.total (inScope scope) EntryRow.sizeBytes, s.entries.total (inScope scope) fun _ => 1)

def managedClassUsage (s : Inventory) (scope : OwnerScope) (cacheClass : ResourceCacheClass) : ℕ × ℕ :=
  (s.entries.total (fun r => inScope scope r && r.cacheClass = cacheClass) EntryRow.sizeBytes,
    s.entries.total (fun r => inScope scope r && r.cacheClass = cacheClass) fun _ => 1)

def pinnedAssetIds (s : Inventory) (scope : OwnerScope) (now : Instant) : List String :=
  ((s.pins.rows.filter fun p => p.ref.scope = scope && now < p.expiresAt).map fun p => p.ref.assetId).dedup

def expiryOrder (a b : EntryRow) : Bool :=
  (a.evicting && !b.evicting) || (a.evicting = b.evicting && (a.expiresAt < b.expiresAt ||
    (a.expiresAt = b.expiresAt && a.ref.assetId ≤ b.ref.assetId)))

def accessOrder (a b : EntryRow) : Bool :=
  a.lastAccess < b.lastAccess || (a.lastAccess = b.lastAccess && a.ref.assetId ≤ b.ref.assetId)

structure CandidateQuery where
  scope : OwnerScope
  now : Instant
  limit : ℕ
  expiredOnly : Bool
  excludedAssetIds : List String
  protectRaw : Bool

def CandidateQuery.matching (q : CandidateQuery) (r : EntryRow) : Bool :=
  inScope q.scope r && (!q.expiredOnly || r.evicting || r.expiresAt ≤ q.now) &&
    (!q.protectRaw || r.cacheClass ≠ .raw) && !decide (r.ref.assetId ∈ q.excludedAssetIds)

def managedCandidates (s : Inventory) (q : CandidateQuery) : List (String × ℕ) :=
  (((s.entries.rows.filter q.matching).insertionSort
    fun a b => (if q.expiredOnly then expiryOrder a b else accessOrder a b) = true).take q.limit).map
      fun r => (r.ref.assetId, r.sizeBytes)

def evict (r : EntryRow) : EntryRow := { r with evicting := true }

theorem ref_evict (r : EntryRow) : (evict r).ref = r.ref := rfl

def touched (now : Instant) (r : EntryRow) : EntryRow := { r with lastAccess := now }

theorem ref_touched (now : Instant) (r : EntryRow) : (touched now r).ref = r.ref := rfl

def pinned (s : Inventory) (ref : Ref) (now : Instant) : Bool :=
  s.pins.rows.any fun p => p.ref = ref && now < p.expiresAt

def managedMarkEvicting (s : Inventory) (ref : Ref) (now : Instant) : Bool × Inventory :=
  if s.pinned ref now || (s.entries.get ref).isNone then (false, s)
  else (true, { s with entries := s.entries.update (fun r => decide (r.ref = ref)) evict ref_evict })

def managedFinishEviction (s : Inventory) (ref : Ref) : Inventory :=
  if (s.entries.get ref).any EntryRow.evicting then
    { s with
      assets := s.assets.delete fun r => decide (r.ref = ref)
      entries := s.entries.delete fun r => decide (r.ref = ref)
      evictions := fun scope => if scope = ref.scope then s.evictions scope + 1 else s.evictions scope }
  else s

def managedTouch (s : Inventory) (ref : Ref) (now : Instant) : Inventory :=
  { s with entries := s.entries.update (fun r => decide (r.ref = ref) && !r.evicting) (touched now) (ref_touched now) }

structure Registration where
  ref : Ref
  mediaType : String
  sizeBytes : ℕ
  expiresAt : Instant
  moduleId : String
  contentSha256 : String
  now : Instant
  cacheClass : ResourceCacheClass

def Registration.asset (m : Registration) (row : Option AssetRow) : AssetRow :=
  match row with
  | none => ⟨m.ref, m.mediaType, m.sizeBytes, some m.expiresAt, true, 1⟩
  | some r => { r with
      ref := m.ref
      mediaType := m.mediaType
      sizeBytes := m.sizeBytes
      expiresAt := some m.expiresAt
      revision := r.revision + 1 }

def Registration.entry (m : Registration) (managed : Option EntryRow) : EntryRow where
  ref := m.ref
  moduleId := managed.elim m.moduleId EntryRow.moduleId
  contentSha256 := m.contentSha256
  sizeBytes := m.sizeBytes
  expiresAt := m.expiresAt
  lastAccess := m.now
  evicting := false
  cacheClass := if managed.any fun r => r.cacheClass = .raw then .raw else m.cacheClass

def registerManaged (s : Inventory) (m : Registration) : Inventory :=
  { s with
    assets := s.assets.replace (m.asset (s.assets.get m.ref))
    entries := if (s.assets.get m.ref).isNone || (s.entries.get m.ref).isSome then
        s.entries.replace (m.entry (s.entries.get m.ref)) else s.entries }

def delete (s : Inventory) (ref : Ref) : Inventory :=
  { s with assets := s.assets.delete fun r => decide (r.ref = ref) }

structure PinRequest where
  references : List Ref
  moduleId : String
  invocationId : String
  ownerKey : String
  expiresAt : Instant
  now : Instant
  pinId : String

def PinRequest.holder (r : PinRequest) : String × String × String := (r.moduleId, r.invocationId, r.ownerKey)

def PinRow.holder (p : PinRow) : String × String × String := (p.moduleId, p.invocationId, p.ownerKey)

def PinRequest.row (r : PinRequest) (ref : Ref) (expiresAt : Option Instant) : PinRow :=
  ⟨r.pinId, r.moduleId, r.invocationId, r.ownerKey, ref, expiresAt.elim r.expiresAt fun e => min r.expiresAt e⟩

def pinOne (r : PinRequest) (s : Inventory) (ref : Ref) : Option Inventory :=
  match s.assets.get ref with
  | none => none
  | some row =>
    if expired row.expiresAt r.now || (s.entries.get ref).any EntryRow.evicting then none
    else some { s with pins := s.pins.replace (r.row ref row.expiresAt) }

def prunePins (s : Inventory) (now : Instant) : Inventory :=
  { s with pins := s.pins.delete fun p => decide (p.expiresAt ≤ now) }

def pinRefused (s : Inventory) (r : PinRequest) : Bool :=
  (decide (16 ≤ ((s.pins.rows.filter fun p => p.invocationId = r.invocationId).map PinRow.pinId).dedup.length) &&
    !s.pins.rows.any fun p => p.pinId = r.pinId && PinRow.holder p = r.holder) ||
  (s.pins.rows.find? fun p => p.pinId = r.pinId).any fun p => PinRow.holder p ≠ r.holder

def pinResources (s : Inventory) (r : PinRequest) : Option Inventory :=
  if (s.prunePins r.now).pinRefused r then none
  else
    ((r.references.foldlM (pinOne r) (s.prunePins r.now)).filter fun t =>
      decide (t.pins.matching (fun p => decide (p.pinId = r.pinId)) ≤ 1000))

def unpinResources (s : Inventory) (pinId : String) (holder : String × String × String) : Inventory :=
  if (s.pins.rows.find? fun p => p.pinId = pinId).any fun p => PinRow.holder p ≠ holder then s
  else { s with pins := s.pins.delete fun p => decide (p.pinId = pinId) }

def releaseInvocationPins (s : Inventory) (invocationId : String) : Inventory :=
  { s with pins := s.pins.delete fun p => decide (p.invocationId = invocationId) }

end Inventory

section

variable [ContentHashing]

def utf8 (s : String) : Content := s.toUTF8.data.toList

def scopeToken (scope : OwnerScope) : String :=
  ContentHashing.sha256 (utf8 (scope.kind.value ++ ":" ++ scope.userId.getD "" ++
    scope.grant.elim "" fun g => ":" ++ g.grantId ++ ":" ++ toString g.revision))

def contentId (content : Content) (scope : OwnerScope) : String :=
  "asset_" ++ ContentHashing.sha256 (utf8 (scopeToken scope) ++ 0 :: content)

theorem contentId_injective (h : Function.Injective (ContentHashing.sha256)) {c c' : Content} {scope : OwnerScope}
    (hc : contentId c scope = contentId c' scope) : c = c' := by
  have hhash := String.append_right_inj "asset_" |>.mp hc
  have hlist := List.append_cancel_left (h hhash)
  exact (List.cons.inj hlist).2

end

end GameLink.Resources

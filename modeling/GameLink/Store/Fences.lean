import GameLink.Foundation.JsonChars
import GameLink.Store.Schema

namespace GameLink.Store

open Foundation Contracts

structure SubscriptionGateBinding where
  principalId : String
  targetModuleId : String
  field : String
  packageId : String
  moduleId : String
  declared : Bool

abbrev GateBindings := String → Option SubscriptionGateBinding

def fenceOf (gateRevision intentRevision : Option ℕ) : Option SubscriptionFence :=
  match gateRevision, intentRevision with
  | some gate, some intent => if 1 ≤ gate ∧ 1 ≤ intent then some ⟨gate, intent⟩ else none
  | _, _ => none

namespace Gates

def gateOpen (g : Gates) (binding : SubscriptionGateBinding) : Bool :=
  if binding.declared then
    (binding.principalId, binding.targetModuleId, binding.field) ∈ g.declaredRegistrations
  else g.bootstrapPhase = some "complete"

def marked (g : Gates) (binding : SubscriptionGateBinding) : Bool :=
  (binding.principalId, binding.targetModuleId, binding.field) ∈
    (if binding.declared then g.declaredGates else g.initializations)

/-- `_read_subscription_admission`: the fence of an open gate and the instant since which it is open. -/
def readSubscriptionAdmission (g : Gates) : Option SubscriptionGateBinding → Option (SubscriptionFence × Instant)
  | none => none
  | some binding =>
    if !g.gateOpen binding || !g.marked binding then none
    else
      match g.configEntries.get (binding.principalId, binding.targetModuleId, binding.field),
          g.intents.get (binding.packageId, binding.moduleId) with
      | some gate, some intent =>
        if gate.value ≠ .bool true ∨ intent.desiredEnabled ≠ 1 then none
        else
          match gate.subscriptionTransitionAt, fenceOf (some gate.revision) (some intent.intentRevision) with
          | some cutoff, some fence => some (fence, max cutoff intent.updatedAt)
          | _, _ => none
      | _, _ => none

def readSubscriptionFence (g : Gates) (binding : Option SubscriptionGateBinding) : Option SubscriptionFence :=
  (g.readSubscriptionAdmission binding).map Prod.fst

end Gates

def splitModule (moduleId : String) : String × String :=
  (String.ofList (moduleId.toList.takeWhile (· ≠ '/')), String.ofList ((moduleId.toList.dropWhile (· ≠ '/')).drop 1))

section

variable [Hashing]

def EventRow.fence (r : EventRow) : Option SubscriptionFence := fenceOf r.gateRevision r.intentRevision

def CollectionJobRow.fence (r : CollectionJobRow) : Option SubscriptionFence := fenceOf r.gateRevision r.intentRevision

namespace Database

def readBackgroundFence (s : Database) (key : CollectionKey) : Option BackgroundFence :=
  if key.scope.kind ≠ .public then none
  else
    match s.backgroundJobs.get (jobKey key) with
    | none => none
    | some row =>
      if row.active = false ∨ row.moduleId ≠ key.moduleId then none
      else
        match s.gates.intents.get (splitModule key.moduleId),
            s.gates.configState.get (row.configPrincipalId, key.moduleId) with
        | some intent, some config =>
          if intent.desiredEnabled ≠ 1 ∨ intent.intentRevision ≠ row.intentRevision ∨
              config.revision ≠ row.configRevision then none
          else if 1 ≤ row.generation ∧ 1 ≤ row.intentRevision then some ⟨row.generation, row.intentRevision⟩
          else none
        | _, _ => none

def memberDisposition (bindings : GateBindings) (s : Database) (member : DigestMember) (recipient : ConversationRef)
    (windowId : String) : DigestMemberDisposition :=
  match s.subscriptions.get member.subscriptionId with
  | none => .cancelled
  | some row =>
    if row.status ≠ .active then .cancelled
    else if row.revision ≠ member.subscriptionRevision then .staleRevision
    else if row.record.status ≠ .active then .cancelled
    else if row.record.recipient ≠ recipient then .unauthorized
    else
      match s.gates.readSubscriptionAdmission (bindings row.record.moduleId), s.events.get member.event,
          s.windows.get windowId with
      | some (fence, since), some event, some window =>
        if event.fence ≠ some fence ∨ event.event.recipient ≠ recipient ∨ window.dueAt ≤ since then .unauthorized
        else .included
      | _, _, _ => .unauthorized

def included (bindings : GateBindings) (s : Database) (recipient : ConversationRef) (windowId : String)
    (member : DigestMember) : Bool :=
  s.memberDisposition bindings member recipient windowId = .included

/-- `_event_qualified`: the event's subscription is current, instant and under the gate that admitted it. -/
def eventQualified (bindings : GateBindings) (s : Database) (row : EventRow) (event : DeliveryEvent) : Bool :=
  match s.subscriptions.get event.subscriptionId with
  | none => false
  | some subscription =>
    let record := subscription.record
    record.revision = event.subscriptionRevision && record.status = .active &&
      record.notificationMode = "instant" && record.recipient = event.recipient &&
      (match s.gates.readSubscriptionFence (bindings record.moduleId) with
       | none => false
       | some current => row.fence = some current)

/-- `_immutable_digest_event_sql`: the event is a member of an envelope whose send has begun. -/
def hasImmutableDigestAssociation (s : Database) (event : EventId) : Bool :=
  s.members.rows.any fun m => m.association.member.event = event &&
    s.envelopes.rows.any fun e => e.windowId = m.windowId && e.recipientKey = m.recipientKey &&
      (e.state = .sending || e.state = .unknown || e.state = .sent)

end Database

end

/-! One digest subscriber of one module, for runs on a concrete store. -/

namespace Sample

def digests : List (String × String) :=
  [("\x7b\"$type\":\"ConversationRef\",\"fields\":\x7b\"adapter_id\":\"a\",\"conversation_id\":\"c\",\"delivery_route\":\"r\",\"kind\":\x7b\"$enum\":\"ConversationKind\",\"value\":\"direct\"\x7d\x7d\x7d",
    "ec1d197b96b6da1ebf03c052cb41eb43b1cbdc3a752dc9fe33fe426c06929b14"),
   ("[\"e\",1,\"s\",1,\"a\",\"direct\",\"c\",\"r\"]", "4f43bac584b7ff74ceb47245f3202e85174a2d311e9858b6d5e3391aae1bd1d0"),
   ("[\"e\",1,\"r\",1,\"a\",\"direct\",\"c\",\"r\"]", "434cf49ce0e37ea8083fed08960eafeb6e82e380099625433b260c0742dc9a95"),
   ("o1:r:1", "00ccb245375e10e9d21d2b3049d8c643c93e0cfee089c4ffb21748a4a4bb29b7"),
   ("[\"digest-envelope:v1\",\"w\",\"a\",\"direct\",\"c\",\"r\"]",
    "a5be099461e3026d423a2205556e95bf00f106600dd71a1e186cb454531e4981"),
   ("w:ec1d197b96b6da1ebf03c052cb41eb43b1cbdc3a752dc9fe33fe426c06929b14",
    "cb660e891b933b036ea6041ef2b7d363e89a016f71c4e4e91b76805cdd8bde31"),
   ("\x7b\"$type\":\"CollectionKey\",\"fields\":\x7b\"collector_id\":\"k\",\"key_version\":1,\"module_id\":\"p/m\",\"parameters\":\x7b\"$type\":\"NormalizedInput\",\"fields\":\x7b\"values\":\x7b\x7d\x7d\x7d,\"scope\":\x7b\"$type\":\"OwnerScope\",\"fields\":\x7b\"grant\":null,\"kind\":\x7b\"$enum\":\"OwnershipKind\",\"value\":\"public\"\x7d,\"user_id\":null\x7d\x7d,\"source_id\":\"x\"\x7d\x7d",
    "e7e1f8d8f9782bf8ef191b994a6420e37665eca273183e09ae97dc4415cbe588")]

@[reducible]
def hashing : Hashing := ⟨fun text => (digests.lookup text).getD ""⟩

attribute [local instance] hashing

def recipient : ConversationRef := ⟨"a", .direct, "c", "r"⟩

def event : DeliveryEvent where
  eventKey := "e"
  eventVersion := 1
  subscriptionId := "s"
  subscriptionRevision := 1
  ownerId := "o"
  grant := none
  recipient := recipient
  displayData := ⟨.public, .null⟩
  idempotencyKey := "delivery:v1:4f43bac584b7ff74ceb47245f3202e85174a2d311e9858b6d5e3391aae1bd1d0"
  state := .pending
  attempt := none
  retryAt := none
  publicContribution := none
  commentary := none
  valid := by decide +kernel

def record : SubscriptionRecord where
  subscriptionId := "s"
  revision := 1
  moduleId := "p/m"
  collectionKey := ⟨"p/m", "k", 1, "x", .obj [], ⟨.public, none, none⟩⟩
  ownerId := "o"
  grant := none
  recipient := recipient
  notificationMode := "digest"
  filters := .obj []
  status := .active
  typeId := some "t"
  digestSchedule := none
  creationKey := none

set_option maxRecDepth 10000 in
theorem dumps_key : record.collectionKey.encode.dumps =
    "\x7b\"$type\":\"CollectionKey\",\"fields\":\x7b\"collector_id\":\"k\",\"key_version\":1,\"module_id\":\"p/m\",\"parameters\":\x7b\"$type\":\"NormalizedInput\",\"fields\":\x7b\"values\":\x7b\x7d\x7d\x7d,\"scope\":\x7b\"$type\":\"OwnerScope\",\"fields\":\x7b\"grant\":null,\"kind\":\x7b\"$enum\":\"OwnershipKind\",\"value\":\"public\"\x7d,\"user_id\":null\x7d\x7d,\"source_id\":\"x\"\x7d\x7d" := by
  rw [Json.dumps_eq]
  refine congrArg String.ofList ?_
  decide +kernel

def window : DigestWindow where
  windowId := "w"
  timezoneName := "UTC"
  localScheduleKey := "1970-01-01"
  utcStart := 0
  utcEnd := 10
  dueAt := 10
  foldPolicy := .firstOccurrence
  gapPolicy := .skip
  policyRevision := 1
  scheduleProfile := none
  scheduleRecipient := none

def bindings : GateBindings := fun moduleId =>
  if moduleId = "p/m" then some ⟨"principal", "p/m", "enabled", "p", "m", false⟩ else none

def gates : Gates where
  bootstrapPhase := some "complete"
  initializations := [("principal", "p/m", "enabled")]
  declaredGates := []
  declaredRegistrations := []
  configEntries := ⟨[⟨"principal", "p/m", "enabled", .bool true, 1, some 0⟩], by decide⟩
  configState := .empty
  intents := ⟨[⟨"p", "m", 1, 1, 0⟩], by decide⟩

def association : DigestMemberAssociation := ⟨⟨"w", recipient, ⟨"s", 1, "e", 1⟩, event⟩, by decide +kernel⟩

def database : Database where
  gates := gates
  subscriptions := ⟨[⟨"s", 1, "o", .active, record⟩], by decide⟩
  subscriptionJobs := .empty
  collectionJobs := .empty
  backgroundJobs := .empty
  observations := .empty
  evaluationStates := .empty
  events := ⟨[⟨event.id, "o", event.idempotencyKey, .pending, 0, none, event, some 1, some 1⟩], by decide⟩
  attempts := .empty
  windows := ⟨[⟨"w", 10, window⟩], by decide⟩
  members := ⟨[⟨"w", routeKey recipient, association⟩], by decide⟩
  envelopes := .empty
  receipts := .empty
  publicIdentities := .empty
  suppressed := .empty

end Sample

end GameLink.Store

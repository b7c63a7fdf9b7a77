import GameLink.Foundation.Json

namespace GameLink.Contracts

open Foundation

abbrev Instant := ℤ

class Hashing where
  sha256 : String → String

def isBlank (c : Char) : Bool :=
  let n := c.toNat
  (9 ≤ n && n ≤ 13) || (28 ≤ n && n ≤ 32) || n = 133 || n = 160 || n = 5760 || (8192 ≤ n && n ≤ 8202) ||
    n = 8232 || n = 8233 || n = 8239 || n = 8287 || n = 12288

def identifier (s : String) : Bool := s.toList.any fun c => !isBlank c

def startsWith (start text : String) : Bool := start.toList.isPrefixOf text.toList

inductive ConversationKind where
  | direct | group
  deriving DecidableEq, Repr

def ConversationKind.value : ConversationKind → String
  | direct => "direct"
  | group => "group"

structure ConversationRef where
  adapterId : String
  kind : ConversationKind
  conversationId : String
  deliveryRoute : String
  deriving DecidableEq

def ConversationRef.encode (r : ConversationRef) : Json :=
  .obj [("$type", .str "ConversationRef"), ("fields", .obj [("adapter_id", .str r.adapterId),
     ("kind", .obj [("$enum", .str "ConversationKind"), ("value", .str r.kind.value)]),
     ("conversation_id", .str r.conversationId), ("delivery_route", .str r.deliveryRoute)])]

structure GrantReference where
  grantId : String
  revision : ℕ
  deriving DecidableEq

inductive OwnershipKind where
  | «public» | user | authorized
  deriving DecidableEq, Repr

def GrantReference.encode (g : GrantReference) : Json :=
  .obj [("$type", .str "GrantReference"), ("fields", .obj
    [("grant_id", .str g.grantId), ("revision", .int g.revision)])]

def OwnershipKind.value : OwnershipKind → String
  | «public» => "public"
  | user => "user"
  | authorized => "authorized"

structure OwnerScope where
  kind : OwnershipKind
  userId : Option String
  grant : Option GrantReference
  deriving DecidableEq

def OwnerScope.encode (s : OwnerScope) : Json :=
  .obj [("$type", .str "OwnerScope"), ("fields", .obj
    [("kind", .obj [("$enum", .str "OwnershipKind"), ("value", .str s.kind.value)]),
     ("user_id", (s.userId.map Json.str).getD .null), ("grant", (s.grant.map GrantReference.encode).getD .null)])]

structure CollectionKey where
  moduleId : String
  collectorId : String
  keyVersion : ℕ
  sourceId : String
  parameters : Json
  scope : OwnerScope
  deriving DecidableEq

def CollectionKey.encode (k : CollectionKey) : Json :=
  .obj [("$type", .str "CollectionKey"), ("fields", .obj
    [("module_id", .str k.moduleId), ("collector_id", .str k.collectorId), ("key_version", .int k.keyVersion),
     ("source_id", .str k.sourceId),
     ("parameters", .obj [("$type", .str "NormalizedInput"), ("fields", .obj [("values", k.parameters)])]),
     ("scope", k.scope.encode)])]

inductive Privacy where
  | «public» | «private»
  deriving DecidableEq, Repr

structure DisplayDocument where
  privacy : Privacy
  content : Json
  deriving DecidableEq

structure PublicEventContribution where
  composerId : String
  contributionKey : String
  payload : Json
  deriving DecidableEq

structure CommentaryRequest where
  templateId : String
  templateVersion : ℕ
  prompt : String
  timeoutSeconds : String
  maxOutputChars : ℕ
  deriving DecidableEq

section

variable [Hashing]

def jobKey (key : CollectionKey) : String := Hashing.sha256 key.encode.dumps

def routeKey (recipient : ConversationRef) : String := Hashing.sha256 recipient.encode.dumps

def deliveryIdempotencyKey (eventKey : String) (eventVersion : ℕ) (subscriptionId : String)
    (subscriptionRevision : ℕ) (recipient : ConversationRef) : String :=
  "delivery:v1:" ++ Hashing.sha256 (Json.arr
    [.str eventKey, .int eventVersion, .str subscriptionId, .int subscriptionRevision,
     .str recipient.adapterId, .str recipient.kind.value, .str recipient.conversationId,
     .str recipient.deliveryRoute]).dumps

def digestEnvelopeIdempotencyKey (windowId : String) (recipient : ConversationRef) : String :=
  "digest:v1:" ++ Hashing.sha256 (Json.arr
    [.str "digest-envelope:v1", .str windowId, .str recipient.adapterId, .str recipient.kind.value,
     .str recipient.conversationId, .str recipient.deliveryRoute]).dumps

end

end GameLink.Contracts

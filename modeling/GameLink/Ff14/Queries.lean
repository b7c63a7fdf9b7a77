import Mathlib.Data.List.DropRight
import GameLink.Ff14.CommandText

namespace GameLink.Ff14.Queries

open Contracts

/-! The query contract: a command text and a structured mapping as one query. -/

inductive ErrorCode where
  | parameterError | upstreamError | unsupported
  deriving DecidableEq, Repr

inductive Argument where
  | text (value : String)
  | number (value : ℤ)
  | other
  deriving DecidableEq

structure CatalogEntry where
  kind : String
  id : Argument
  name : String
  region : String
  dcId : Option Argument
  aliases : List String
  deriving DecidableEq

structure QueryResolutionError where
  message : String
  code : ErrorCode := .parameterError
  choices : List CatalogEntry := []
  deriving DecidableEq

inductive Raised where
  | resolution (e : QueryResolutionError)
  | valueError
  | indexError
  deriving DecidableEq

def keys : List String := ["query", "server", "dc", "region", "quality", "intent"]

def hasControl (value : List Char) : Bool := value.any fun c => c.toNat < 32 || (127 ≤ c.toNat && c.toNat ≤ 159)

def strip (value : List Char) : List Char := (value.dropWhile isBlank).rdropWhile isBlank

def text (field : String) (limit : ℕ) : Argument → Except QueryResolutionError String
  | .text value =>
    if hasControl value.toList then .error { message := field ++ " 必须为有效文本。" }
    else if strip value.toList = [] ∨ limit < (strip value.toList).length then .error { message := field ++ " 长度无效。" }
    else .ok (String.ofList (strip value.toList))
  | _ => .error { message := field ++ " 必须为有效文本。" }

abbrev Parameters := List (String × Argument)

def isLiteral (raw : List Char) : Bool := raw.head?.any isQuote

def unterminated : QueryResolutionError := { message := "命令引号不完整或包含不支持的转义。" }

def readTokens : List (List Char × List Char) → Except Raised (List (String × Bool))
  | [] => .ok []
  | (gap, raw) :: rest =>
    if gap.all isBlank = false then .error (.resolution unterminated)
    else match shlexSplit raw with
      | none => .error .valueError
      | some [] => .error .indexError
      | some (cooked :: _) => (readTokens rest).map ((String.ofList cooked, isLiteral raw) :: ·)

def tokens (text : List Char) : Except Raised (List (String × Bool)) := do
  let found ← readTokens (finditer text.length [] text).1
  if (finditer text.length [] text).2.all isBlank = false then .error (.resolution unterminated)
  else pure found

def assignment (token : String) : String × String :=
  (String.ofList (token.toList.takeWhile (· ≠ '=')), String.ofList ((token.toList.dropWhile (· ≠ '=')).drop 1))

def assigns (token : String × Bool) : Bool := token.1.toList.contains '=' && !token.2

def syntaxWords : List String := ["hq", "nq", "all", "cn", "global", "国服", "国际服"]

def takeToken (casefold : String → String) (read : Parameters × List String) (token : String × Bool) :
    Except Raised (Parameters × List String) :=
  if assigns token then
    let (key, value) := assignment token.1
    if key ∉ keys ∨ (read.1.lookup key).isSome ∨ value = "" then
      .error (.resolution { message := "未知、重复或空命令参数。" })
    else .ok (read.1 ++ [(key, .text value)], read.2)
  else if token.2 = false ∧ casefold token.1 ∈ syntaxWords then
    .error (.resolution { message := "请用 key=value 明确范围或品质。" })
  else .ok (read.1, read.2 ++ [token.1])

def takeTokens (casefold : String → String) (read : Parameters × List String) :
    List (String × Bool) → Except Raised (Parameters × List String)
  | [] => .ok read
  | token :: rest => do
    let read ← takeToken casefold read token
    takeTokens casefold read rest

def ofResolution {α : Type} : Except QueryResolutionError α → Except Raised α
  | .ok a => .ok a
  | .error e => .error (.resolution e)

def commandParameters (casefold : String → String) (argument : Argument) : Except Raised Parameters := do
  let command ← ofResolution (text "command" 512 argument)
  let found ← tokens command.toList
  let (result, items) ← takeTokens casefold ([], []) found
  if items = [] then pure result
  else if (result.lookup "query").isSome then .error (.resolution { message := "物品参数重复。" })
  else pure (result ++ [("query", .text (" ".intercalate items))])

structure ScopeCatalog where
  entries : List CatalogEntry
  available : Bool

structure QueryDefaults where
  defaultRegion : String
  coreRevision : ℕ
  moduleRevision : ℕ

structure QueryScope where
  kind : String
  regions : List String
  target : Option Argument
  source : String
  defaultBasis : String
  deriving DecidableEq

structure MarketQuery where
  query : String
  itemId : Option ℕ
  scope : QueryScope
  quality : String
  intent : String
  coreRevision : ℕ
  moduleRevision : ℕ
  deriving DecidableEq

def globalRegions : List String := ["North-America", "Europe", "Japan", "Oceania"]

def supportedRegions : List String := "China" :: globalRegions

def region (value : Argument) : Except QueryResolutionError (List String) := do
  let value ← text "region" 120 value
  if value = "cn" then pure ["China"]
  else if value = "global" then pure globalRegions
  else if value ∈ supportedRegions then pure [value]
  else .error { message := "区域不受支持；请使用 cn/global 或标准区域。" }

def asciiInteger (value : List Char) : Bool := value ≠ [] && value.all Char.isDigit

def maxItemId : ℕ := 2147483647

def validateItemQuery : Option Argument → Except QueryResolutionError String
  | some (.text value) =>
    let stripped := strip value.toList
    if hasControl value.toList ∨ stripped = [] ∨ 120 < stripped.length then
      .error { message := "查询长度需为 1 到 120 个字符。" }
    else if asciiInteger stripped then
      if 1 ≤ Nat.ofDigitChars 10 stripped 0 ∧ Nat.ofDigitChars 10 stripped 0 ≤ maxItemId then .ok (String.ofList stripped)
      else .error { message := "物品 ID 超出允许范围。" }
    else if stripped.any (fun c => c = '"' || c = '\\') then
      .error { message := "名称查询暂不支持双引号或反斜线；请改用物品 ID。" }
    else .ok (String.ofList stripped)
  | _ => .error { message := "请提供物品名称或数字 ID。" }

def itemIdFromQuery (query : String) : Option ℕ :=
  if asciiInteger query.toList then some (Nat.ofDigitChars 10 query.toList 0) else none

def scopeToken (field : String) : Argument → Except QueryResolutionError String
  | .number value =>
    if 1 ≤ value ∧ value ≤ maxItemId then .ok (toString value) else .error { message := field ++ " ID 无效。" }
  | value => text field 120 value

def Argument.str : Argument → String
  | .text value => value
  | .number value => toString value
  | .other => ""

namespace ScopeCatalog

def find (casefold : String → String) (catalog : ScopeCatalog) (kind : String) (value : Argument) :
    Except QueryResolutionError CatalogEntry := do
  if catalog.available = false then .error { message := "范围目录暂不可用。", code := .upstreamError }
  else
    let token ← scopeToken kind value
    match catalog.entries.filter fun entry => entry.kind = kind && (entry.id.str = token ||
        casefold entry.name = casefold token || entry.aliases.any fun name => casefold name = casefold token) with
    | [] => .error { message := "目录中没有该范围；请核对名称或 ID。" }
    | [entry] =>
      if entry.region ∉ supportedRegions then .error { message := "该区域尚未支持。", code := .unsupported } else pure entry
    | candidates => .error { message := "范围名称有歧义，请选择明确 ID。", choices := candidates }

end ScopeCatalog

def oneOf (field : String) (words : List String) : Argument → Except QueryResolutionError String
  | .text value =>
    if value ∈ words then .ok value else .error { message := field ++ " 必须为 " ++ "/".intercalate words ++ "。" }
  | _ => .error { message := field ++ " 必须为 " ++ "/".intercalate words ++ "。" }

def optional {α β : Type} (f : α → Except QueryResolutionError β) : Option α → Except QueryResolutionError (Option β)
  | none => .ok none
  | some a => (f a).map some

def parse (casefold : String → String) (catalog : ScopeCatalog) (parameters : Parameters) (defaults : QueryDefaults) :
    Except QueryResolutionError MarketQuery := do
  if parameters.any (fun entry => entry.1 ∉ keys) then .error { message := "查询包含未知参数。" }
  else
    let query ← validateItemQuery (parameters.lookup "query")
    let quality ← oneOf "quality" ["all", "nq", "hq"] ((parameters.lookup "quality").getD (.text "all"))
    let intent ← oneOf "intent" ["overview", "min", "listings"] ((parameters.lookup "intent").getD (.text "overview"))
    let world ← optional (catalog.find casefold "world") (parameters.lookup "server")
    let dc ← optional (catalog.find casefold "dc") (parameters.lookup "dc")
    let regions ← optional region (parameters.lookup "region")
    if world.any (fun world => dc.any fun dc => world.dcId ≠ some dc.id) then
      .error { message := "World 与大区范围冲突。" }
    else
      let narrow := world.or dc
      if narrow.any (fun narrow => regions.any fun regions => narrow.region ∉ regions) then
        .error { message := "服务器/大区与区域冲突。" }
      else
        let scope ← match narrow, regions with
          | some narrow, regions => pure ⟨narrow.kind, [narrow.region], some narrow.id, "explicit",
              if regions.isSome then "explicit_region" else "server_region"⟩
          | none, some regions => pure ⟨"region", regions, none, "explicit", "explicit_region"⟩
          | none, none => (region (.text defaults.defaultRegion)).map fun regions =>
              ⟨"region", regions, none, "default", "core_default"⟩
        pure ⟨query, itemIdFromQuery query, scope, quality, intent, defaults.coreRevision, defaults.moduleRevision⟩

inductive Request where
  | mapping (parameters : Parameters)
  | argument (value : Argument)

inductive QueryEntry where
  | structured | page | command
  deriving DecidableEq

def structuredParameters : Request → Except Raised Parameters
  | .mapping parameters => .ok parameters
  | .argument _ => .error (.resolution { message := "请提供结构化查询参数。" })

/-- `QueryCoordinator.resolve` up to the parsed query; what follows reads nothing else of the request. -/
def resolve (casefold : String → String) (catalog : ScopeCatalog) (defaults : QueryDefaults) (entry : QueryEntry)
    (request : Request) : Except Raised MarketQuery := do
  let parameters ← match entry, request with
    | .command, .argument value => commandParameters casefold value
    | .command, .mapping _ => commandParameters casefold .other
    | _, request => structuredParameters request
  ofResolution (parse casefold catalog parameters defaults)

theorem strip_of_ends {value : List Char} (hfirst : ∀ c, value.head? = some c → isBlank c = false)
    (hlast : ∀ c, value.getLast? = some c → isBlank c = false) {before after : List Char}
    (hbefore : ∀ c ∈ before, isBlank c = true) (hafter : ∀ c ∈ after, isBlank c = true) (hne : value ≠ []) :
    strip (before ++ value ++ after) = value := by
  have hdrop : (before ++ value ++ after).dropWhile isBlank = value ++ after := by
    rw [List.append_assoc, List.dropWhile_append_of_pos hbefore]
    obtain ⟨c, rest, rfl⟩ := List.exists_cons_of_ne_nil hne
    rw [List.cons_append, List.dropWhile_cons_of_neg (by rw [hfirst c rfl]; exact Bool.false_ne_true)]
  unfold strip
  rw [hdrop]
  clear hdrop hbefore
  induction after using List.reverseRecOn with
  | nil =>
    rw [List.append_nil, List.rdropWhile_eq_self_iff]
    intro hl
    rw [hlast _ (List.getLast?_eq_getLast_of_ne_nil hl)]
    exact Bool.false_ne_true
  | append_singleton after c ih =>
    have hc : isBlank c = true := hafter c (by simp)
    rw [← List.append_assoc, List.rdropWhile_concat_pos _ _ _ hc]
    exact ih fun d hd => hafter d (List.mem_append_left _ hd)

structure Spelling where
  gap : List Char
  key : String
  segments : List Segment

namespace Spelling

def value (s : Spelling) : String := String.ofList (contentOf s.segments)

def token (s : Spelling) : List Char × List Segment := (s.gap, .bare (s.key.toList ++ ['=']) :: s.segments)

def pair (s : Spelling) : String × Argument := (s.key, .text s.value)

end Spelling

def spelled (parameters : List Spelling) : List Char := spaced (parameters.map Spelling.token)

structure Written (parameters : List Spelling) : Prop where
  some : parameters ≠ []
  known : ∀ s ∈ parameters, s.key ∈ keys
  once : (parameters.map Spelling.key).Nodup
  valid : ∀ s ∈ parameters, ∀ segment ∈ s.segments, segment.Valid
  value : ∀ s ∈ parameters, contentOf s.segments ≠ []
  clean : ∀ s ∈ parameters, hasControl (contentOf s.segments) = false
  blank : ∀ s ∈ parameters, ∀ c ∈ s.gap, isBlank c = true
  calm : ∀ s ∈ parameters, hasControl s.gap = false
  apart : ∀ s ∈ parameters.tail, s.gap ≠ []

variable {key : String}

theorem keys_bare (h : key ∈ keys) : key.toList ≠ [] ∧ (∀ c ∈ key.toList, isBare c = true ∧ c ≠ '=') ∧
    hasControl key.toList = false := by
  have hall : (keys.all fun key => !key.toList.isEmpty && (key.toList.all fun c => isBare c && c != '=') &&
      !hasControl key.toList) = true := by decide +kernel
  have hkey := List.all_eq_true.mp hall key h
  simp only [Bool.and_eq_true, Bool.not_eq_true', List.isEmpty_eq_false_iff, List.all_eq_true, bne_iff_ne] at hkey
  exact ⟨hkey.1.1, hkey.1.2, hkey.2⟩

variable {parameters : List Spelling}

theorem Written.spaced (h : Written parameters) : Spaced (parameters.map Spelling.token) := by
  refine ⟨?_, ?_, ?_, ?_⟩
  · intro t ht
    obtain ⟨s, hs, rfl⟩ := List.mem_map.mp ht
    exact h.blank s hs
  · intro t ht
    rw [← List.map_tail] at ht
    obtain ⟨s, hs, rfl⟩ := List.mem_map.mp ht
    exact h.apart s hs
  · intro t ht
    obtain ⟨s, hs, rfl⟩ := List.mem_map.mp ht
    refine List.forall_mem_cons.mpr ⟨?_, h.valid s hs⟩
    intro c hc
    rcases List.mem_append.mp hc with hc | hc
    · exact ((keys_bare (h.known s hs)).2.1 c hc).1
    · obtain rfl := List.mem_singleton.mp hc
      rfl
  · intro t ht
    obtain ⟨s, hs, rfl⟩ := List.mem_map.mp ht
    simp [Spelling.token, textOf, Segment.text]

variable {c : Char}

theorem not_isBlank_of_isBare (h : isBare c = true) : isBlank c = false := by
  simp only [isBare, Bool.and_eq_true, Bool.not_eq_true'] at h
  exact h.1.1

theorem not_isBlank_of_isQuote (h : isQuote c = true) : isBlank c = false := by
  simp only [isQuote, Bool.or_eq_true, decide_eq_true_eq] at h
  rcases h with rfl | rfl
  all_goals decide

variable {segments : List Segment}

theorem last_textOf (h : ∀ segment ∈ segments, segment.Valid)
    (hc : (textOf segments).getLast? = some c) : isBlank c = false := by
  induction segments with
  | nil => cases hc
  | cons segment segments ih =>
    obtain ⟨hsegment, hrest⟩ := List.forall_mem_cons.mp h
    have htext : textOf (segment :: segments) = segment.text ++ textOf segments := List.flatMap_cons
    rw [htext, List.getLast?_append, Option.or_eq_some_iff] at hc
    rcases hc with hc | ⟨-, hc⟩
    · exact ih hrest hc
    cases segment with
    | bare content => exact not_isBlank_of_isBare (hsegment c (List.mem_of_getLast? hc))
    | quoted q content =>
      have hq : (Segment.quoted q content).text.getLast? = some q := by
        rw [Segment.text, ← List.cons_append, List.getLast?_concat]
      obtain rfl := Option.some.inj (hq.symm.trans hc)
      exact not_isBlank_of_isQuote hsegment.1

theorem last_spaced {tokens : List (List Char × List Segment)} (h : Spaced tokens)
    (hc : (spaced tokens).getLast? = some c) : isBlank c = false := by
  induction tokens with
  | nil => cases hc
  | cons t tokens ih =>
    have hflat : spaced (t :: tokens) = t.1 ++ (textOf t.2 ++ spaced tokens) := by
      unfold spaced
      rw [List.flatMap_cons, List.append_assoc]
    rw [hflat, List.getLast?_append, List.getLast?_append] at hc
    cases hlast : (spaced tokens).getLast? with
    | some d =>
      rw [hlast] at hc
      obtain rfl := Option.some.inj hc
      exact ih h.tail hlast
    | none =>
      obtain ⟨d, hd⟩ : ∃ d, (textOf t.2).getLast? = some d :=
        ⟨_, List.getLast?_eq_getLast_of_ne_nil (h.some t List.mem_cons_self)⟩
      rw [hlast, hd] at hc
      obtain rfl := Option.some.inj hc
      exact last_textOf (h.valid t List.mem_cons_self) hd

theorem hasControl_append (a b : List Char) : hasControl (a ++ b) = (hasControl a || hasControl b) := List.any_append

theorem hasControl_quote {q : Char} (h : isQuote q = true) : hasControl [q] = false := by
  simp only [isQuote, Bool.or_eq_true, decide_eq_true_eq] at h
  rcases h with rfl | rfl
  all_goals decide

theorem hasControl_textOf (h : ∀ segment ∈ segments, segment.Valid) :
    hasControl (textOf segments) = hasControl (contentOf segments) := by
  induction segments with
  | nil => rfl
  | cons segment segments ih =>
    obtain ⟨hsegment, hrest⟩ := List.forall_mem_cons.mp h
    have htext : textOf (segment :: segments) = segment.text ++ textOf segments := List.flatMap_cons
    have hflat : contentOf (segment :: segments) = segment.content ++ contentOf segments := List.flatMap_cons
    have hsame : hasControl segment.text = hasControl segment.content := by
      cases segment with
      | bare content => rfl
      | quoted q content =>
        have hq := hasControl_quote hsegment.1
        have hopen : (Segment.quoted q content).text = [q] ++ (content ++ [q]) := rfl
        rw [hopen, hasControl_append, hasControl_append, hq, Bool.false_or, Bool.or_false]
        rfl
    rw [htext, hflat, hasControl_append, hasControl_append, ih hrest, hsame]

theorem hasControl_spelled (h : Written parameters) :
    hasControl (spelled parameters) = false := by
  have hone : ∀ s ∈ parameters, hasControl (s.token.1 ++ textOf s.token.2) = false := by
    intro s hs
    have htext : textOf s.token.2 = s.key.toList ++ (['='] ++ textOf s.segments) := by
      simp [Spelling.token, textOf, Segment.text]
    have heq : hasControl ['='] = false := by decide
    rw [htext, hasControl_append, hasControl_append, hasControl_append, (keys_bare (h.known s hs)).2.2, heq,
      hasControl_textOf (h.valid s hs), h.clean s hs]
    simpa [Spelling.token] using h.calm s hs
  unfold spelled spaced hasControl
  rw [List.any_flatMap, List.any_eq_false]
  intro t ht
  obtain ⟨s, hs, rfl⟩ := List.mem_map.mp ht
  rw [Bool.not_eq_true]
  exact hone s hs

theorem readTokens_of_segments {found : List (List Char × List Segment)} (hblank : ∀ t ∈ found, ∀ c ∈ t.1, isBlank c = true)
    (hvalid : ∀ t ∈ found, ∀ segment ∈ t.2, segment.Valid) (hsome : ∀ t ∈ found, textOf t.2 ≠ []) :
    readTokens (found.map fun t => (t.1, textOf t.2)) =
      .ok (found.map fun t => (String.ofList (contentOf t.2), isLiteral (textOf t.2))) := by
  induction found with
  | nil => rfl
  | cons t found ih =>
    have hgap : t.1.all isBlank = true := List.all_eq_true.mpr (hblank t List.mem_cons_self)
    rw [List.map_cons, readTokens, hgap, if_neg (by simp),
      shlexSplit_segments (hvalid t List.mem_cons_self) (hsome t List.mem_cons_self)]
    dsimp only
    rw [ih (fun u hu => hblank u (List.mem_cons_of_mem _ hu)) (fun u hu => hvalid u (List.mem_cons_of_mem _ hu))
      fun u hu => hsome u (List.mem_cons_of_mem _ hu)]
    rfl

theorem tokens_spaced {found : List (List Char × List Segment)} (h : Spaced found) :
    tokens (spaced found) = .ok (found.map fun t => (String.ofList (contentOf t.2), isLiteral (textOf t.2))) := by
  unfold tokens
  rw [finditer_spaced h (le_refl _), readTokens_of_segments h.blank h.valid h.some]
  rfl

theorem assignment_spelled (hkey : key ∈ keys) (value : List Char) :
    assignment (String.ofList (key.toList ++ '=' :: value)) = (key, String.ofList value) := by
  have hother : ∀ c ∈ key.toList, decide (c ≠ '=') = true := fun c hc => decide_eq_true ((keys_bare hkey).2.1 c hc).2
  have htake : ('=' :: value).takeWhile (fun c => decide (c ≠ '=')) = [] := rfl
  have hdrop : ('=' :: value).dropWhile (fun c => decide (c ≠ '=')) = '=' :: value := rfl
  unfold assignment
  rw [String.toList_ofList, List.takeWhile_append_of_pos hother, List.dropWhile_append_of_pos hother, htake, hdrop,
    List.append_nil, String.ofList_toList]
  rfl

variable (casefold : String → String) {s : Spelling}

theorem takeToken_spelled (hkey : s.key ∈ keys)
    (hvalue : contentOf s.segments ≠ []) (read : Parameters × List String) (hnew : read.1.lookup s.key = none) :
    takeToken casefold read (String.ofList (contentOf s.token.2), isLiteral (textOf s.token.2)) =
      .ok (read.1 ++ [s.pair], read.2) := by
  have hcontent : contentOf s.token.2 = s.key.toList ++ '=' :: contentOf s.segments := by
    simp [Spelling.token, contentOf, Segment.content]
  have htext : textOf s.token.2 = s.key.toList ++ '=' :: textOf s.segments := by
    simp [Spelling.token, textOf, Segment.text]
  obtain ⟨hne, hbare, -⟩ := keys_bare hkey
  have hliteral : isLiteral (textOf s.token.2) = false := by
    obtain ⟨c, rest, hc⟩ := List.exists_cons_of_ne_nil hne
    have hfirst := (hbare c (hc ▸ List.mem_cons_self)).1
    rw [htext, hc]
    exact not_isQuote_of_isBare hfirst
  have hassigns : assigns (String.ofList (contentOf s.token.2), isLiteral (textOf s.token.2)) = true := by
    unfold assigns
    rw [hliteral, hcontent, String.toList_ofList]
    simp
  unfold takeToken
  rw [if_pos hassigns, hcontent, assignment_spelled hkey]
  dsimp only
  rw [if_neg]
  · rfl
  rintro (hunknown | hold | hempty)
  · exact hunknown hkey
  · rw [hnew] at hold
    cases hold
  apply hvalue
  rw [← String.toList_ofList (l := contentOf s.segments), hempty]
  rfl

theorem lookup_pairs_none (h : key ∉ parameters.map Spelling.key) :
    (parameters.map Spelling.pair).lookup key = none := by
  induction parameters with
  | nil => rfl
  | cons s parameters ih =>
    rw [List.map_cons, List.mem_cons, not_or] at h
    rw [List.map_cons, Spelling.pair, List.lookup_cons, beq_eq_false_iff_ne.mpr h.1]
    exact ih h.2

theorem takeTokens_spelled (done : List Spelling)
    (hknown : ∀ s ∈ parameters, s.key ∈ keys) (hvalue : ∀ s ∈ parameters, contentOf s.segments ≠ [])
    (honce : ((done ++ parameters).map Spelling.key).Nodup) :
    takeTokens casefold (done.map Spelling.pair, []) ((parameters.map Spelling.token).map fun t =>
      (String.ofList (contentOf t.2), isLiteral (textOf t.2))) = .ok ((done ++ parameters).map Spelling.pair, []) := by
  induction parameters generalizing done with
  | nil =>
    rw [List.append_nil]
    rfl
  | cons s parameters ih =>
    obtain ⟨hkey, hknown⟩ := List.forall_mem_cons.mp hknown
    obtain ⟨hsome, hvalue⟩ := List.forall_mem_cons.mp hvalue
    have hnew : s.key ∉ done.map Spelling.key := by
      rw [List.map_append, List.nodup_append] at honce
      exact fun hmem => honce.2.2 s.key hmem s.key List.mem_cons_self rfl
    have hjoin : done ++ s :: parameters = done ++ [s] ++ parameters := by rw [List.append_assoc]; rfl
    rw [hjoin] at honce ⊢
    have hstep := takeToken_spelled casefold hkey hsome (done.map Spelling.pair, []) (lookup_pairs_none hnew)
    rw [List.map_cons, List.map_cons, takeTokens, hstep]
    have hnext := ih (done ++ [s]) hknown hvalue honce
    rw [List.map_append] at hnext
    exact hnext

theorem Written.start (h : Written (s :: parameters)) :
    Written ({ s with gap := [] } :: parameters) := by
  refine ⟨List.cons_ne_nil _ _, ?_, h.once, ?_, ?_, ?_, ?_, ?_, h.apart⟩
  · exact List.forall_mem_cons.mpr (List.forall_mem_cons.mp h.known)
  · exact List.forall_mem_cons.mpr (List.forall_mem_cons.mp h.valid)
  · exact List.forall_mem_cons.mpr (List.forall_mem_cons.mp h.value)
  · exact List.forall_mem_cons.mpr (List.forall_mem_cons.mp h.clean)
  · exact List.forall_mem_cons.mpr ⟨fun c hc => absurd hc List.not_mem_nil, (List.forall_mem_cons.mp h.blank).2⟩
  · exact List.forall_mem_cons.mpr ⟨rfl, (List.forall_mem_cons.mp h.calm).2⟩

variable {trailing : List Char}

theorem strip_spelled (h : Written (s :: parameters))
    (htrailing : ∀ c ∈ trailing, isBlank c = true) :
    strip (spelled (s :: parameters) ++ trailing) = spelled ({ s with gap := [] } :: parameters) := by
  have hcore := h.start
  have hflat : spelled (s :: parameters) = s.gap ++ spelled ({ s with gap := [] } :: parameters) := by
    unfold spelled spaced
    rw [List.map_cons, List.map_cons, List.flatMap_cons, List.flatMap_cons, List.append_assoc]
    rfl
  obtain ⟨hne, hbare, -⟩ := keys_bare (h.known s List.mem_cons_self)
  obtain ⟨c, key, hc⟩ := List.exists_cons_of_ne_nil hne
  have hhead : ∃ rest, spelled ({ s with gap := [] } :: parameters) = c :: rest := by
    refine ⟨key ++ (['='] ++ textOf s.segments ++ spelled parameters), ?_⟩
    unfold spelled spaced
    simp [Spelling.token, textOf, Segment.text, hc]
  obtain ⟨rest, hrest⟩ := hhead
  rw [hflat]
  refine strip_of_ends ?_ ?_ (h.blank s List.mem_cons_self) htrailing (by rw [hrest]; exact List.cons_ne_nil _ _)
  · intro d hd
    rw [hrest] at hd
    obtain rfl := Option.some.inj hd
    exact not_isBlank_of_isBare (hbare c (hc ▸ List.mem_cons_self)).1
  · exact fun d hd => last_spaced hcore.spaced hd

theorem commandParameters_of_steps {casefold : String → String} {argument : Argument} {command : String}
    {found : List (String × Bool)} {result : Parameters} (htext : text "command" 512 argument = .ok command)
    (htokens : tokens command.toList = .ok found) (htake : takeTokens casefold ([], []) found = .ok (result, [])) :
    commandParameters casefold argument = .ok result := by
  unfold commandParameters
  rw [htext]
  simp only [ofResolution, htokens, htake, bind, Except.bind, if_true]
  rfl

theorem text_spelled (h : Written parameters) {trailing core : List Char}
    (hcalm : hasControl trailing = false) (hstrip : strip (spelled parameters ++ trailing) = core) (hne : core ≠ [])
    (hlength : core.length ≤ 512) :
    text "command" 512 (.text (String.ofList (spelled parameters ++ trailing))) = .ok (String.ofList core) := by
  have hcontrol : hasControl (spelled parameters ++ trailing) = false := by
    rw [hasControl_append, hasControl_spelled h, hcalm]
    rfl
  unfold text
  dsimp only
  rw [String.toList_ofList, hcontrol, if_neg Bool.false_ne_true, hstrip, if_neg]
  exact fun hbad => hbad.elim hne (Nat.not_lt_of_ge hlength)

theorem commandParameters_spelled (h : Written parameters) (htrailing : ∀ c ∈ trailing, isBlank c = true) (hcalm : hasControl trailing = false)
    (hlength : (strip (spelled parameters ++ trailing)).length ≤ 512) :
    commandParameters casefold (.text (String.ofList (spelled parameters ++ trailing))) =
      .ok (parameters.map Spelling.pair) := by
  obtain ⟨s, rest, rfl⟩ := List.exists_cons_of_ne_nil h.some
  have hcore := h.start
  have hstrip := strip_spelled h htrailing
  rw [hstrip] at hlength
  have hsome : spelled ({ s with gap := [] } :: rest) ≠ [] := by
    unfold spelled spaced
    simp [Spelling.token, textOf, Segment.text]
  have htake := takeTokens_spelled casefold [] hcore.known hcore.value hcore.once
  have hread : commandParameters casefold (.text (String.ofList (spelled (s :: rest) ++ trailing))) =
      .ok (({ s with gap := [] } :: rest).map Spelling.pair) := by
    refine commandParameters_of_steps (text_spelled h hcalm hstrip hsome hlength) ?_ htake
    rw [String.toList_ofList]
    exact tokens_spaced hcore.spaced
  exact hread

def assignments (found : List (String × Bool)) : Parameters :=
  (found.filter assigns).map fun token => ((assignment token.1).1, .text (assignment token.1).2)

def literals (found : List (String × Bool)) : List String :=
  (found.filter fun token => !assigns token).map Prod.fst

theorem readTokens_raises {found : List (List Char × List Char)} (h : ∀ f ∈ found,
    ∃ segments : List Segment, (∀ segment ∈ segments, segment.Valid) ∧ f.2 = textOf segments ∧ f.2 ≠ []) :
    (∃ read, readTokens found = .ok read) ∨ readTokens found = .error (.resolution unterminated) := by
  induction found with
  | nil => exact .inl ⟨[], rfl⟩
  | cons f found ih =>
    obtain ⟨⟨segments, hvalid, htext, hne⟩, hrest⟩ := List.forall_mem_cons.mp h
    have hshlex : shlexSplit f.2 = some [contentOf segments] := by
      rw [htext] at hne ⊢
      exact shlexSplit_segments hvalid hne
    rw [readTokens]
    split
    · exact .inr rfl
    rw [hshlex]
    dsimp only
    rcases ih hrest with ⟨read, hread⟩ | hread
    · rw [hread]
      exact .inl ⟨_, rfl⟩
    · rw [hread]
      exact .inr rfl

theorem tokens_raises (text : List Char) :
    (∃ found, tokens text = .ok found) ∨ tokens text = .error (.resolution unterminated) := by
  unfold tokens
  rcases readTokens_raises (segments_of_finditer text.length [] text) with ⟨read, hread⟩ | hread
  · rw [hread]
    simp only [bind, Except.bind]
    split
    · exact .inr rfl
    · exact .inl ⟨read, rfl⟩
  · rw [hread]
    exact .inr rfl

theorem mem_of_lookup_isSome {parameters : Parameters} (h : (parameters.lookup key).isSome = false) :
    key ∉ parameters.map Prod.fst := by
  induction parameters with
  | nil => exact List.not_mem_nil
  | cons entry parameters ih =>
    obtain ⟨k, v⟩ := entry
    rw [List.lookup_cons] at h
    rw [List.map_cons, List.mem_cons, not_or]
    split at h
    · cases h
    · rename_i hne
      exact ⟨beq_eq_false_iff_ne.mp hne, ih h⟩

variable {read read' : Parameters × List String}

theorem takeToken_ok {casefold : String → String} {token : String × Bool}
    (h : takeToken casefold read token = .ok read') : read'.1 = read.1 ++ assignments [token] ∧
      read'.2 = read.2 ++ literals [token] ∧ ∀ key ∈ (assignments [token]).map Prod.fst,
        key ∈ keys ∧ key ∉ read.1.map Prod.fst := by
  unfold takeToken at h
  split at h
  · rename_i hassigns
    have ha : assignments [token] = [((assignment token.1).1, .text (assignment token.1).2)] := by
      simp [assignments, hassigns]
    have hl : literals [token] = [] := by simp [literals, hassigns]
    rw [ha, hl]
    dsimp only at h
    split at h
    · cases h
    rename_i hfine
    obtain ⟨hknown, hrest⟩ := not_or.mp hfine
    obtain ⟨hnew, -⟩ := not_or.mp hrest
    obtain rfl := Except.ok.inj h
    refine ⟨rfl, (List.append_nil _).symm, ?_⟩
    intro key hkey
    obtain rfl := List.mem_singleton.mp hkey
    exact ⟨not_not.mp hknown, mem_of_lookup_isSome ((Bool.not_eq_true _).mp hnew)⟩
  · rename_i hassigns
    have ha : assignments [token] = [] := by simp [assignments, hassigns]
    have hl : literals [token] = [token.1] := by simp [literals, hassigns]
    rw [ha, hl]
    split at h
    · cases h
    · obtain rfl := Except.ok.inj h
      exact ⟨(List.append_nil _).symm, rfl, fun key hkey => absurd hkey List.not_mem_nil⟩

theorem takeToken_raises (read : Parameters × List String) (token : String × Bool) :
    (∃ read', takeToken casefold read token = .ok read') ∨
      ∃ e, takeToken casefold read token = .error (.resolution e) := by
  unfold takeToken
  split
  · dsimp only
    split
    · exact .inr ⟨_, rfl⟩
    · exact .inl ⟨_, rfl⟩
  split
  · exact .inr ⟨_, rfl⟩
  · exact .inl ⟨_, rfl⟩

theorem takeTokens_raises (read : Parameters × List String) (found : List (String × Bool)) :
    (∃ read', takeTokens casefold read found = .ok read') ∨
      ∃ e, takeTokens casefold read found = .error (.resolution e) := by
  induction found generalizing read with
  | nil => exact .inl ⟨read, rfl⟩
  | cons token found ih =>
    rw [takeTokens]
    rcases takeToken_raises casefold read token with ⟨read', h⟩ | ⟨e, h⟩
    · rw [h]
      exact ih read'
    · rw [h]
      exact .inr ⟨e, rfl⟩

theorem takeTokens_ok {casefold : String → String} {found : List (String × Bool)}
    (h : takeTokens casefold read found = .ok read') (hknown : ∀ key ∈ read.1.map Prod.fst, key ∈ keys)
    (honce : (read.1.map Prod.fst).Nodup) : read'.1 = read.1 ++ assignments found ∧ read'.2 = read.2 ++ literals found ∧
      (∀ key ∈ read'.1.map Prod.fst, key ∈ keys) ∧ (read'.1.map Prod.fst).Nodup := by
  induction found generalizing read with
  | nil =>
    obtain rfl := Except.ok.inj h
    exact ⟨(List.append_nil _).symm, (List.append_nil _).symm, hknown, honce⟩
  | cons token found ih =>
    obtain ⟨next, hnext, hrest⟩ : ∃ next, takeToken casefold read token = .ok next ∧ takeTokens casefold next found = .ok read' := by
      rw [takeTokens] at h
      cases hstep : takeToken casefold read token with
      | error e =>
        rw [hstep] at h
        cases h
      | ok next =>
        rw [hstep] at h
        exact ⟨next, rfl, h⟩
    obtain ⟨hresult, hitems, hkeys⟩ := takeToken_ok hnext
    have ha : assignments (token :: found) = assignments [token] ++ assignments found := by
      unfold assignments
      rw [← List.map_append, ← List.filter_append]
      rfl
    have hl : literals (token :: found) = literals [token] ++ literals found := by
      unfold literals
      rw [← List.map_append, ← List.filter_append]
      rfl
    have hsmall : ((assignments [token]).map Prod.fst).Nodup := by
      have hle : (assignments [token]).length ≤ 1 := by
        unfold assignments
        rw [List.length_map]
        exact List.length_filter_le _ _
      match hshape : assignments [token], hle with
      | [], _ => exact List.nodup_nil
      | [entry], _ => exact List.nodup_singleton _
    have hjoin : next.1.map Prod.fst = read.1.map Prod.fst ++ (assignments [token]).map Prod.fst := by
      rw [hresult, List.map_append]
    obtain ⟨h₁, h₂, h₃, h₄⟩ := ih hrest (by
      rw [hjoin]
      intro key hkey
      rcases List.mem_append.mp hkey with hkey | hkey
      · exact hknown key hkey
      · exact (hkeys key hkey).1) (by
      rw [hjoin]
      refine List.nodup_append.mpr ⟨honce, hsmall, ?_⟩
      rintro key hkey _ hkey' rfl
      exact (hkeys key hkey').2 hkey)
    refine ⟨?_, ?_, h₃, h₄⟩
    · rw [h₁, hresult, ha, List.append_assoc]
    · rw [h₂, hitems, hl, List.append_assoc]

theorem commandParameters_cases (argument : Argument) :
    (∃ e, commandParameters casefold argument = .error (.resolution e)) ∨
      ∃ command found parameters, text "command" 512 argument = .ok command ∧ tokens command.toList = .ok found ∧
        commandParameters casefold argument = .ok parameters ∧ (∀ key ∈ parameters.map Prod.fst, key ∈ keys) ∧
          (parameters.map Prod.fst).Nodup ∧ parameters = assignments found ++
            if literals found = [] then [] else [("query", .text (" ".intercalate (literals found)))] := by
  unfold commandParameters
  cases htext : text "command" 512 argument with
  | error e => exact .inl ⟨e, rfl⟩
  | ok command =>
    rcases tokens_raises command.toList with ⟨found, hfound⟩ | hfound
    · rcases takeTokens_raises casefold ([], []) found with ⟨⟨result, items⟩, htake⟩ | ⟨e, htake⟩
      · obtain ⟨hresult, hitems, hknown, honce⟩ := takeTokens_ok htake (fun key hkey => absurd hkey List.not_mem_nil)
          List.nodup_nil
        dsimp only at hresult hitems hknown honce
        rw [List.nil_append] at hresult hitems
        simp only [ofResolution, hfound, htake, bind, Except.bind]
        by_cases hnone : items = []
        · right
          rw [if_pos hnone]
          refine ⟨command, found, result, rfl, hfound, rfl, hknown, honce, ?_⟩
          rw [if_pos (hitems ▸ hnone), List.append_nil, hresult]
        rw [if_neg hnone]
        by_cases hquery : (result.lookup "query").isSome = true
        · rw [if_pos hquery]
          exact .inl ⟨_, rfl⟩
        right
        rw [if_neg hquery]
        refine ⟨command, found, _, rfl, hfound, rfl, ?_, ?_, ?_⟩
        · intro key hkey
          rw [List.map_append, List.mem_append] at hkey
          rcases hkey with hkey | hkey
          · exact hknown key hkey
          · obtain rfl := List.mem_singleton.mp hkey
            exact List.mem_cons_self
        · rw [List.map_append]
          refine List.nodup_append.mpr ⟨honce, List.nodup_singleton _, ?_⟩
          intro key hkey key' hkey' hsame
          have hkey' : key' = "query" := List.mem_singleton.mp hkey'
          rw [hsame, hkey'] at hkey
          exact mem_of_lookup_isSome ((Bool.not_eq_true _).mp hquery) hkey
        · rw [if_neg fun h => hnone (hitems.trans h), hresult, hitems]
      · simp only [ofResolution, hfound, htake, bind, Except.bind]
        exact .inl ⟨e, rfl⟩
    · simp only [ofResolution, hfound, bind, Except.bind]
      exact .inl ⟨_, rfl⟩

variable {a b : Parameters}

theorem lookup_perm (hp : a.Perm b) (hnodup : (a.map Prod.fst).Nodup) (key : String) :
    a.lookup key = b.lookup key := by
  induction hp with
  | nil => rfl
  | @cons entry a b hp ih =>
    obtain ⟨k, v⟩ := entry
    rw [List.lookup_cons, List.lookup_cons, ih (List.nodup_cons.mp hnodup).2]
  | swap first second rest =>
    obtain ⟨k, v⟩ := first
    obtain ⟨k', v'⟩ := second
    have hne : k' ≠ k := by
      rintro rfl
      exact (List.nodup_cons.mp hnodup).1 List.mem_cons_self
    simp only [List.lookup_cons]
    by_cases hk : key = k
    · subst hk
      rw [beq_self_eq_true, beq_eq_false_iff_ne.mpr hne.symm]
    · rw [beq_eq_false_iff_ne.mpr hk]
  | @trans a b c hab hbc ihab ihbc =>
    exact (ihab hnodup).trans (ihbc ((hab.map Prod.fst).nodup_iff.mp hnodup))

theorem parse_perm (catalog : ScopeCatalog) (defaults : QueryDefaults)
    (hp : a.Perm b) (hnodup : (a.map Prod.fst).Nodup) :
    parse casefold catalog a defaults = parse casefold catalog b defaults := by
  have hany : a.any (fun entry => decide (entry.1 ∉ keys)) = b.any fun entry => decide (entry.1 ∉ keys) := hp.any_eq
  unfold parse
  simp only [lookup_perm hp hnodup, hany]

theorem map_fst_pair (parameters : List Spelling) :
    (parameters.map Spelling.pair).map Prod.fst = parameters.map Spelling.key := List.map_map

/-- A text that spells parameters is the structured query of the same mapping, and no text gets past the parser
with anything but its own error. -/
theorem command_grammar (casefold : String → String) :
    (∀ parameters trailing, Written parameters → (∀ c ∈ trailing, isBlank c = true) → hasControl trailing = false →
      (strip (spelled parameters ++ trailing)).length ≤ 512 →
      commandParameters casefold (.text (String.ofList (spelled parameters ++ trailing))) =
          .ok (parameters.map Spelling.pair) ∧
        ∀ catalog defaults mapping, mapping.Perm (parameters.map Spelling.pair) →
          resolve casefold catalog defaults .command (.argument (.text (String.ofList (spelled parameters ++ trailing)))) =
            resolve casefold catalog defaults .structured (.mapping mapping)) ∧
      ∀ argument, (∃ e, commandParameters casefold argument = .error (.resolution e)) ∨
        ∃ command found parameters, text "command" 512 argument = .ok command ∧ tokens command.toList = .ok found ∧
          commandParameters casefold argument = .ok parameters ∧ (∀ key ∈ parameters.map Prod.fst, key ∈ keys) ∧
            (parameters.map Prod.fst).Nodup ∧ parameters = assignments found ++
              if literals found = [] then [] else [("query", .text (" ".intercalate (literals found)))] := by
  refine ⟨?_, commandParameters_cases casefold⟩
  intro parameters trailing h htrailing hcalm hlength
  have hread := commandParameters_spelled casefold h htrailing hcalm hlength
  refine ⟨hread, ?_⟩
  intro catalog defaults mapping hmapping
  have hnodup : (mapping.map Prod.fst).Nodup := by
    rw [(hmapping.map Prod.fst).nodup_iff, map_fst_pair]
    exact h.once
  unfold resolve structuredParameters
  dsimp only
  rw [hread]
  simp only [bind, Except.bind]
  rw [parse_perm casefold catalog defaults hmapping hnodup]

def quotedOre : List Spelling :=
  [⟨[], "query", [.quoted '"' "a b".toList, .bare "=".toList, .quoted '\'' "\"".toList]⟩, ⟨[' ', ' '], "region", [.bare "cn".toList]⟩]

def spacedOre : {parameters : List Spelling // (parameters.all fun s => s.gap.all isBlank) = true} :=
  ⟨quotedOre, by decide +kernel⟩

theorem written_quotedOre : Written quotedOre := by
  have hbare : ∀ content : List Char, content.all isBare = true → (Segment.bare content).Valid :=
    fun content h => List.all_eq_true.mp h
  have hquoted : ∀ (q : Char) (content : List Char), isQuote q = true →
      (content.all fun c => c != q && c != '\\') = true → (Segment.quoted q content).Valid := by
    intro q content hq h
    refine ⟨hq, fun c hc => ?_⟩
    have hpair := List.all_eq_true.mp h c hc
    rw [Bool.and_eq_true, bne_iff_ne, bne_iff_ne] at hpair
    exact hpair
  refine ⟨List.cons_ne_nil _ _, by decide, by decide, ?_, by decide, by decide,
    fun s hs => List.all_eq_true.mp (List.all_eq_true.mp spacedOre.property s hs), by decide, by decide⟩
  simp only [quotedOre, List.forall_mem_cons]
  refine ⟨⟨hquoted _ _ rfl (by decide +kernel), hbare _ (by decide +kernel), hquoted _ _ rfl (by decide +kernel), fun _ h => absurd h List.not_mem_nil⟩,
    ⟨hbare _ (by decide +kernel), fun _ h => absurd h List.not_mem_nil⟩, fun _ h => absurd h List.not_mem_nil⟩

theorem command_grammar_quoted :
    commandParameters id (.text "query=\"a b\"='\"'  region=cn") =
      .ok [("query", .text "a b=\""), ("region", .text "cn")] :=
  ((command_grammar id).1 quotedOre [] written_quotedOre (fun _ h => absurd h List.not_mem_nil) rfl (by decide +kernel)).1

/-- A tab between two parameters is blank and yet a control character. -/
theorem command_refuses_tab :
    isBlank '\t' = true ∧ spelled [⟨[], "query", [.bare ['a']]⟩, ⟨['\t'], "region", [.bare "cn".toList]⟩] =
        "query=a\tregion=cn".toList ∧
      commandParameters id (.text "query=a\tregion=cn") =
        .error (.resolution { message := "command 必须为有效文本。" }) := by
  refine ⟨rfl, by decide +kernel, rfl⟩

end GameLink.Ff14.Queries

import GameLink.Contracts.Identity

namespace GameLink.Ff14.Queries

open Contracts

/-! How a command text falls into tokens: a regular expression finds their ends, `shlex` reads what is inside. -/

def isQuote (c : Char) : Bool := c = '"' || c = '\''

def isBare (c : Char) : Bool := !isBlank c && !isQuote c && c != '\\'

/-- `"[^"\\]*"` or `'[^'\\]*'` behind its opening quote: the content and what follows the closing one -/
def closing (q : Char) : List Char → Option (List Char × List Char)
  | [] => none
  | c :: rest =>
    if c = q then some ([], rest)
    else if c = '\\' then none
    else (closing q rest).map fun found => (c :: found.1, found.2)

def turn : List Char → Option (List Char × List Char)
  | [] => none
  | c :: rest =>
    if isBare c then some ((c :: rest).takeWhile isBare, (c :: rest).dropWhile isBare)
    else if isQuote c then (closing c rest).map fun found => (c :: (found.1 ++ [c]), found.2)
    else none

def turns : ℕ → List Char → List Char × List Char
  | 0, text => ([], text)
  | n + 1, text =>
    match turn text with
    | none => ([], text)
    | some (matched, rest) => (matched ++ (turns n rest).1, (turns n rest).2)

def matchAt (text : List Char) : List Char × List Char := turns text.length text

/-- `finditer`: each match behind what was passed over before it, and what was passed over at the end -/
def finditer : ℕ → List Char → List Char → List (List Char × List Char) × List Char
  | 0, gap, text => ([], gap ++ text)
  | _ + 1, gap, [] => ([], gap)
  | n + 1, gap, c :: rest =>
    if (matchAt (c :: rest)).1 = [] then finditer n (gap ++ [c]) rest
    else
      ((gap, (matchAt (c :: rest)).1) :: (finditer n [] (matchAt (c :: rest)).2).1,
        (finditer n [] (matchAt (c :: rest)).2).2)

inductive LexState where
  | blank
  | word
  | quote (q : Char)
  | escape (back : Option Char)
  deriving DecidableEq

def isShlexSpace (c : Char) : Bool := c = ' ' || c = '\t' || c = '\r' || c = '\n'

/-- `shlex` in POSIX mode, split at whitespace alone; `none` is its `ValueError`. -/
def shlexGo : LexState → (token : List Char) → (quoted : Bool) → List Char → Option (List (List Char))
  | .quote _, _, _, [] => none
  | .escape _, _, _, [] => none
  | _, token, quoted, [] => some (if token = [] ∧ quoted = false then [] else [token])
  | .blank, token, quoted, c :: rest =>
    if isShlexSpace c then
      if token ≠ [] ∨ quoted = true then (shlexGo .blank [] false rest).map (token :: ·)
      else shlexGo .blank token quoted rest
    else if c = '\\' then shlexGo (.escape none) token quoted rest
    else if isQuote c then shlexGo (.quote c) token quoted rest
    else shlexGo .word [c] quoted rest
  | .quote q, token, _, c :: rest =>
    if c = q then shlexGo .word token true rest
    else if c = '\\' ∧ q = '"' then shlexGo (.escape (some q)) token true rest
    else shlexGo (.quote q) (token ++ [c]) true rest
  | .escape back, token, quoted, c :: rest =>
    match back with
    | none => shlexGo .word (token ++ [c]) quoted rest
    | some q => shlexGo (.quote q) (if c = '\\' ∨ c = q then token ++ [c] else token ++ ['\\', c]) quoted rest
  | .word, token, quoted, c :: rest =>
    if isShlexSpace c then
      if token ≠ [] ∨ quoted = true then (shlexGo .blank [] false rest).map (token :: ·)
      else shlexGo .blank token quoted rest
    else if isQuote c then shlexGo (.quote c) token quoted rest
    else if c = '\\' then shlexGo (.escape none) token quoted rest
    else shlexGo .word (token ++ [c]) quoted rest

def shlexSplit (text : List Char) : Option (List (List Char)) := shlexGo .blank [] false text

section

variable (token : List Char) (quoted : Bool) (c q : Char) (rest : List Char)

theorem shlexGo_blank : shlexGo .blank token quoted (c :: rest) =
    if isShlexSpace c then
      if token ≠ [] ∨ quoted = true then (shlexGo .blank [] false rest).map (token :: ·)
      else shlexGo .blank token quoted rest
    else if c = '\\' then shlexGo (.escape none) token quoted rest
    else if isQuote c then shlexGo (.quote c) token quoted rest
    else shlexGo .word [c] quoted rest := rfl

theorem shlexGo_quote : shlexGo (.quote q) token quoted (c :: rest) =
    if c = q then shlexGo .word token true rest
    else if c = '\\' ∧ q = '"' then shlexGo (.escape (some q)) token true rest
    else shlexGo (.quote q) (token ++ [c]) true rest := rfl

theorem shlexGo_word : shlexGo .word token quoted (c :: rest) =
    if isShlexSpace c then
      if token ≠ [] ∨ quoted = true then (shlexGo .blank [] false rest).map (token :: ·)
      else shlexGo .blank token quoted rest
    else if isQuote c then shlexGo (.quote c) token quoted rest
    else if c = '\\' then shlexGo (.escape none) token quoted rest
    else shlexGo .word (token ++ [c]) quoted rest := rfl

end

inductive Segment where
  | bare (content : List Char)
  | quoted (q : Char) (content : List Char)

namespace Segment

def content : Segment → List Char
  | bare content => content
  | quoted _ content => content

def text : Segment → List Char
  | bare content => content
  | quoted q content => q :: (content ++ [q])

def Valid : Segment → Prop
  | bare content => ∀ c ∈ content, isBare c = true
  | quoted q content => isQuote q = true ∧ ∀ c ∈ content, c ≠ q ∧ c ≠ '\\'

end Segment

def textOf (segments : List Segment) : List Char := segments.flatMap Segment.text

def contentOf (segments : List Segment) : List Char := segments.flatMap Segment.content

variable {content : List Char} {q : Char}

theorem closing_of_valid (h : ∀ c ∈ content, c ≠ q ∧ c ≠ '\\') (rest : List Char) :
    closing q (content ++ q :: rest) = some (content, rest) := by
  induction content with
  | nil =>
    rw [List.nil_append, closing, if_pos rfl]
  | cons c content ih =>
    obtain ⟨⟨hq, hslash⟩, hrest⟩ := List.forall_mem_cons.mp h
    rw [List.cons_append, closing, if_neg hq, if_neg hslash, ih hrest]
    rfl

theorem closing_eq_some {text content rest : List Char} (h : closing q text = some (content, rest)) :
    text = content ++ q :: rest ∧ ∀ c ∈ content, c ≠ q ∧ c ≠ '\\' := by
  induction text generalizing content with
  | nil => cases h
  | cons c text ih =>
    rw [closing] at h
    split at h
    · rename_i hq
      obtain ⟨rfl, rfl⟩ := Prod.mk.inj (Option.some.inj h)
      exact ⟨by rw [hq, List.nil_append], fun d hd => absurd hd List.not_mem_nil⟩
    rename_i hq
    split at h
    · cases h
    rename_i hslash
    obtain ⟨⟨found, after⟩, hfound, hpair⟩ := Option.map_eq_some_iff.mp h
    obtain ⟨rfl, rfl⟩ := Prod.mk.inj hpair
    obtain ⟨htext, hcontent⟩ := ih hfound
    exact ⟨by rw [htext, List.cons_append], List.forall_mem_cons.mpr ⟨⟨hq, hslash⟩, hcontent⟩⟩

variable {c : Char}

theorem not_isBare_of_isQuote (h : isQuote c = true) : isBare c = false := by
  simp [isBare, h]

theorem not_isQuote_of_isBare (h : isBare c = true) : isQuote c = false := by
  simp only [isBare, Bool.and_eq_true, Bool.not_eq_true'] at h
  exact h.1.2

theorem isBlank_of_isShlexSpace (h : isShlexSpace c = true) : isBlank c = true := by
  simp only [isShlexSpace, Bool.or_eq_true, decide_eq_true_eq] at h
  rcases h with ((rfl | rfl) | rfl) | rfl
  all_goals decide

theorem shlex_of_isBare (h : isBare c = true) : isShlexSpace c = false ∧ isQuote c = false ∧ c ≠ '\\' := by
  refine ⟨?_, not_isQuote_of_isBare h, ?_⟩
  · by_contra hs
    rw [Bool.not_eq_false] at hs
    simp [isBare, isBlank_of_isShlexSpace hs] at h
  · simp only [isBare, Bool.and_eq_true, bne_iff_ne] at h
    exact h.2

variable {text matched rest : List Char}

theorem turn_eq_some (h : turn text = some (matched, rest)) :
    text = matched ++ rest ∧ matched ≠ [] ∧ ∃ segment : Segment, segment.Valid ∧ segment.text = matched := by
  cases text with
  | nil => cases h
  | cons c text =>
    rw [turn] at h
    split at h
    · rename_i hbare
      obtain ⟨rfl, rfl⟩ := Prod.mk.inj (Option.some.inj h)
      refine ⟨List.takeWhile_append_dropWhile.symm, ?_, .bare _, ?_, rfl⟩
      · rw [List.takeWhile_cons_of_pos hbare]
        exact List.cons_ne_nil _ _
      · have hall : ((c :: text).takeWhile isBare).all isBare = true := List.all_takeWhile
        exact List.all_eq_true.mp hall
    · split at h
      · rename_i hquote
        obtain ⟨⟨content, after⟩, hfound, hpair⟩ := Option.map_eq_some_iff.mp h
        obtain ⟨rfl, rfl⟩ := Prod.mk.inj hpair
        obtain ⟨htext, hcontent⟩ := closing_eq_some hfound
        refine ⟨?_, List.cons_ne_nil _ _, .quoted c content, ⟨hquote, hcontent⟩, rfl⟩
        rw [htext]
        simp
      · cases h

theorem length_turn (h : turn text = some (matched, rest)) : rest.length < text.length := by
  obtain ⟨rfl, hne, -⟩ := turn_eq_some h
  have hpos := List.length_pos_iff.mpr hne
  rw [List.length_append]
  omega

variable {text : List Char}

theorem turns_enough {n m : ℕ} (hn : text.length ≤ n) (hm : text.length ≤ m) :
    turns n text = turns m text := by
  induction n generalizing m text with
  | zero =>
    obtain rfl := List.length_eq_zero_iff.mp (Nat.le_zero.mp hn)
    cases m with
    | zero => rfl
    | succ m => rfl
  | succ n ih =>
    cases m with
    | zero =>
      obtain rfl := List.length_eq_zero_iff.mp (Nat.le_zero.mp hm)
      rfl
    | succ m =>
      rw [turns, turns]
      split
      · rfl
      rename_i matched rest hturn
      have hlt := length_turn hturn
      rw [ih (m := m) (by omega) (by omega)]

theorem matchAt_of_none (h : turn text = none) : matchAt text = ([], text) := by
  cases text with
  | nil => rfl
  | cons c text =>
    rw [matchAt, List.length_cons, turns, h]

theorem matchAt_of_some (h : turn text = some (matched, rest)) :
    matchAt text = (matched ++ (matchAt rest).1, (matchAt rest).2) := by
  have hlt := length_turn h
  obtain ⟨n, hn⟩ : ∃ n, text.length = n + 1 := ⟨text.length - 1, by omega⟩
  unfold matchAt
  rw [hn, turns, h]
  dsimp only
  rw [turns_enough (show rest.length ≤ n by omega) (le_refl rest.length)]

theorem matchAt_bare (h : isBare c = true) (text : List Char) :
    matchAt (c :: text) = (c :: (matchAt text).1, (matchAt text).2) := by
  have hturn : turn (c :: text) = some (c :: text.takeWhile isBare, text.dropWhile isBare) := by
    rw [turn, if_pos h, List.takeWhile_cons_of_pos h, List.dropWhile_cons_of_pos h]
  rw [matchAt_of_some hturn]
  cases text with
  | nil => rfl
  | cons d text =>
    by_cases hd : isBare d = true
    · have hnext : turn (d :: text) = some ((d :: text).takeWhile isBare, (d :: text).dropWhile isBare) := by
        rw [turn, if_pos hd]
      rw [matchAt_of_some hnext]
      rfl
    · rw [List.takeWhile_cons_of_neg hd, List.dropWhile_cons_of_neg hd]
      rfl

theorem matchAt_quoted (hq : isQuote q = true) (h : ∀ c ∈ content, c ≠ q ∧ c ≠ '\\')
    (text : List Char) : matchAt (q :: (content ++ q :: text)) =
      (q :: (content ++ [q]) ++ (matchAt text).1, (matchAt text).2) := by
  have hturn : turn (q :: (content ++ q :: text)) = some (q :: (content ++ [q]), text) := by
    rw [turn, if_neg (by rw [not_isBare_of_isQuote hq]; exact Bool.false_ne_true), if_pos hq, closing_of_valid h]
    rfl
  rw [matchAt_of_some hturn]

theorem text_quoted (q : Char) (content rest : List Char) :
    (Segment.quoted q content).text ++ rest = q :: (content ++ q :: rest) := by
  simp [Segment.text]

variable {segments : List Segment} {stop : List Char}

theorem matchAt_segments (h : ∀ segment ∈ segments, segment.Valid)
    (hstop : turn stop = none) : matchAt (textOf segments ++ stop) = (textOf segments, stop) := by
  induction segments with
  | nil => exact matchAt_of_none hstop
  | cons segment segments ih =>
    obtain ⟨hsegment, hrest⟩ := List.forall_mem_cons.mp h
    have hnext := ih hrest
    unfold textOf at hnext ⊢
    rw [List.flatMap_cons, List.append_assoc]
    cases segment with
    | bare content =>
      have hbare : ∀ l : List Char, (∀ c ∈ l, isBare c = true) → ∀ text,
          matchAt (l ++ text) = (l ++ (matchAt text).1, (matchAt text).2) := by
        intro l
        induction l with
        | nil => exact fun _ _ => rfl
        | cons c l ihl =>
          intro hl text
          obtain ⟨hc, hl⟩ := List.forall_mem_cons.mp hl
          rw [List.cons_append, matchAt_bare hc, ihl hl]
          rfl
      rw [Segment.text, hbare content hsegment, hnext]
    | quoted q content =>
      obtain ⟨hq, hcontent⟩ := hsegment
      rw [text_quoted, matchAt_quoted hq hcontent, hnext]
      rfl

theorem segments_of_turns (n : ℕ) (text : List Char) : ∃ segments : List Segment, (∀ segment ∈ segments, segment.Valid) ∧
    (turns n text).1 = textOf segments ∧ text = (turns n text).1 ++ (turns n text).2 := by
  induction n generalizing text with
  | zero => exact ⟨[], fun _ h => absurd h List.not_mem_nil, rfl, rfl⟩
  | succ n ih =>
    rw [turns]
    split
    · exact ⟨[], fun _ h => absurd h List.not_mem_nil, rfl, rfl⟩
    rename_i matched rest hturn
    obtain ⟨htext, -, segment, hvalid, hmatched⟩ := turn_eq_some hturn
    obtain ⟨segments, hsegments, htaken, hrest⟩ := ih rest
    refine ⟨segment :: segments, List.forall_mem_cons.mpr ⟨hvalid, hsegments⟩, ?_, ?_⟩
    · unfold textOf at htaken ⊢
      rw [List.flatMap_cons, hmatched, htaken]
    · rw [List.append_assoc, ← hrest]
      exact htext

theorem shlexGo_bare (h : ∀ c ∈ content, isBare c = true) (token : List Char) (quoted : Bool)
    (rest : List Char) : shlexGo .word token quoted (content ++ rest) = shlexGo .word (token ++ content) quoted rest := by
  induction content generalizing token with
  | nil => simp
  | cons c content ih =>
    obtain ⟨hc, hcontent⟩ := List.forall_mem_cons.mp h
    obtain ⟨hspace, hquote, hslash⟩ := shlex_of_isBare hc
    rw [List.cons_append, shlexGo_word, hspace, hquote, if_neg Bool.false_ne_true, if_neg Bool.false_ne_true, if_neg hslash,
      ih hcontent, List.append_assoc]
    rfl

theorem shlexGo_inside (h : ∀ c ∈ content, c ≠ q ∧ c ≠ '\\') (token : List Char) (quoted : Bool) (rest : List Char) :
    shlexGo (.quote q) token quoted (content ++ q :: rest) = shlexGo .word (token ++ content) true rest := by
  induction content generalizing token quoted with
  | nil => rw [List.nil_append, shlexGo_quote, if_pos rfl, List.append_nil]
  | cons c content ih =>
    obtain ⟨⟨hq, hslash⟩, hcontent⟩ := List.forall_mem_cons.mp h
    rw [List.cons_append, shlexGo_quote, if_neg hq, if_neg fun hc => hslash hc.1, ih hcontent, List.append_assoc]
    rfl

theorem not_isShlexSpace_of_isQuote (h : isQuote q = true) : isShlexSpace q = false ∧ q ≠ '\\' := by
  simp only [isQuote, Bool.or_eq_true, decide_eq_true_eq] at h
  rcases h with rfl | rfl
  all_goals decide

theorem shlexGo_segments (h : ∀ segment ∈ segments, segment.Valid) (token : List Char)
    (quoted : Bool) (hsome : token ≠ [] ∨ quoted = true) :
    shlexGo .word token quoted (textOf segments) = some [token ++ contentOf segments] := by
  induction segments generalizing token quoted with
  | nil =>
    have hopen : ¬ (token = [] ∧ quoted = false) := by
      rintro ⟨htoken, hquoted⟩
      rcases hsome with hsome | hsome
      · exact hsome htoken
      · rw [hquoted] at hsome
        cases hsome
    change some (if token = [] ∧ quoted = false then [] else [token]) = some [token ++ []]
    rw [if_neg hopen, List.append_nil]
  | cons segment segments ih =>
    obtain ⟨hsegment, hrest⟩ := List.forall_mem_cons.mp h
    have hflat : contentOf (segment :: segments) = segment.content ++ contentOf segments := List.flatMap_cons
    have htext : textOf (segment :: segments) = segment.text ++ textOf segments := List.flatMap_cons
    rw [hflat, htext]
    cases segment with
    | bare content =>
      rw [Segment.text, Segment.content, shlexGo_bare hsegment, ih hrest, List.append_assoc]
      rcases hsome with hsome | hsome
      · exact .inl (List.append_ne_nil_of_left_ne_nil hsome _)
      · exact .inr hsome
    | quoted q content =>
      obtain ⟨hq, hcontent⟩ := hsegment
      rw [text_quoted, shlexGo_word, (not_isShlexSpace_of_isQuote hq).1, if_neg Bool.false_ne_true, if_pos hq,
        shlexGo_inside hcontent, ih hrest _ _ (.inr rfl), Segment.content, List.append_assoc]

theorem shlexSplit_segments (h : ∀ segment ∈ segments, segment.Valid)
    (hne : textOf segments ≠ []) : shlexSplit (textOf segments) = some [contentOf segments] := by
  induction segments with
  | nil => exact absurd rfl hne
  | cons segment segments ih =>
    obtain ⟨hsegment, hrest⟩ := List.forall_mem_cons.mp h
    have hflat : contentOf (segment :: segments) = segment.content ++ contentOf segments := List.flatMap_cons
    have htext : textOf (segment :: segments) = segment.text ++ textOf segments := List.flatMap_cons
    cases segment with
    | bare content =>
      cases content with
      | nil => exact ih hrest hne
      | cons c content =>
        obtain ⟨hc, hcontent⟩ := List.forall_mem_cons.mp hsegment
        obtain ⟨hspace, hquote, hslash⟩ := shlex_of_isBare hc
        rw [hflat, htext, shlexSplit, Segment.text, Segment.content, List.cons_append, shlexGo_blank, hspace, hquote,
          if_neg Bool.false_ne_true, if_neg hslash, if_neg Bool.false_ne_true, shlexGo_bare hcontent,
          shlexGo_segments hrest _ _ (.inl (List.append_ne_nil_of_left_ne_nil (List.cons_ne_nil _ _) _))]
        rfl
    | quoted q content =>
      obtain ⟨hq, hcontent⟩ := hsegment
      obtain ⟨hspace, hslash⟩ := not_isShlexSpace_of_isQuote hq
      rw [hflat, htext, shlexSplit, text_quoted, shlexGo_blank, hspace, if_neg Bool.false_ne_true, if_neg hslash, if_pos hq,
        shlexGo_inside hcontent, shlexGo_segments hrest _ _ (.inr rfl)]
      rfl

theorem turn_of_blank (h : ∀ c, stop.head? = some c → isBlank c = true) : turn stop = none := by
  cases stop with
  | nil => rfl
  | cons c stop =>
    have hblank := h c rfl
    have hbare : isBare c = false := by simp [isBare, hblank]
    have hquote : isQuote c = false := by
      by_contra hq
      rw [Bool.not_eq_false] at hq
      simp only [isQuote, Bool.or_eq_true, decide_eq_true_eq] at hq
      rcases hq with rfl | rfl
      all_goals exact absurd hblank (by decide)
    rw [turn, hbare, hquote, if_neg Bool.false_ne_true, if_neg Bool.false_ne_true]

theorem finditer_gap {blanks : List Char} (h : ∀ c ∈ blanks, isBlank c = true) (n : ℕ) (gap text : List Char) :
    finditer (blanks.length + n) gap (blanks ++ text) = finditer n (gap ++ blanks) text := by
  induction blanks generalizing gap with
  | nil => simp
  | cons c blanks ih =>
    obtain ⟨hc, hblanks⟩ := List.forall_mem_cons.mp h
    have hnone : turn (c :: (blanks ++ text)) = none := turn_of_blank fun d hd => Option.some.inj hd ▸ hc
    have hsteps : (c :: blanks).length + n = blanks.length + n + 1 := by
      rw [List.length_cons]
      omega
    rw [hsteps, List.cons_append, finditer, matchAt_of_none hnone, if_pos rfl, ih hblanks, List.append_assoc]
    rfl

theorem finditer_token (h : ∀ segment ∈ segments, segment.Valid) (hne : textOf segments ≠ []) (hstop : turn stop = none) (n : ℕ) (gap : List Char) :
    finditer (n + 1) gap (textOf segments ++ stop) =
      ((gap, textOf segments) :: (finditer n [] stop).1, (finditer n [] stop).2) := by
  have hmatch := matchAt_segments h hstop
  obtain ⟨c, text, htext⟩ := List.exists_cons_of_ne_nil hne
  rw [htext] at hmatch ⊢
  rw [List.cons_append] at hmatch ⊢
  rw [finditer, hmatch, if_neg (List.cons_ne_nil c text)]

def spaced (tokens : List (List Char × List Segment)) : List Char := tokens.flatMap fun t => t.1 ++ textOf t.2

structure Spaced (tokens : List (List Char × List Segment)) : Prop where
  blank : ∀ t ∈ tokens, ∀ c ∈ t.1, isBlank c = true
  apart : ∀ t ∈ tokens.tail, t.1 ≠ []
  valid : ∀ t ∈ tokens, ∀ segment ∈ t.2, segment.Valid
  some : ∀ t ∈ tokens, textOf t.2 ≠ []

theorem Spaced.tail {t : List Char × List Segment} {tokens : List (List Char × List Segment)} (h : Spaced (t :: tokens)) :
    Spaced tokens :=
  ⟨fun u hu => h.blank u (List.mem_cons_of_mem _ hu), fun u hu => h.apart u (List.mem_of_mem_tail hu),
    fun u hu => h.valid u (List.mem_cons_of_mem _ hu), fun u hu => h.some u (List.mem_cons_of_mem _ hu)⟩

theorem finditer_spaced {tokens : List (List Char × List Segment)} (h : Spaced tokens) {n : ℕ}
    (hn : (spaced tokens).length ≤ n) : finditer n [] (spaced tokens) = (tokens.map fun t => (t.1, textOf t.2), []) := by
  induction tokens generalizing n with
  | nil =>
    cases n with
    | zero => rfl
    | succ n => rfl
  | cons t tokens ih =>
    have hblank := h.blank t List.mem_cons_self
    have hsome := List.length_pos_iff.mpr (h.some t List.mem_cons_self)
    have hflat : spaced (t :: tokens) = t.1 ++ (textOf t.2 ++ spaced tokens) := by
      unfold spaced
      rw [List.flatMap_cons, List.append_assoc]
    have hstop : turn (spaced tokens) = none := by
      apply turn_of_blank
      intro c hc
      cases tokens with
      | nil => cases hc
      | cons u tokens =>
        obtain ⟨d, gap, hgap⟩ := List.exists_cons_of_ne_nil (h.apart u List.mem_cons_self)
        have hd : spaced (u :: tokens) = d :: (gap ++ (textOf u.2 ++ spaced tokens)) := by
          unfold spaced
          rw [List.flatMap_cons, hgap, List.append_assoc]
          rfl
        rw [hd] at hc
        obtain rfl := Option.some.inj hc
        exact h.blank u (List.mem_cons_of_mem _ List.mem_cons_self) d (hgap ▸ List.mem_cons_self)
    rw [hflat, List.length_append, List.length_append] at hn
    obtain ⟨m, rfl⟩ : ∃ m, n = t.1.length + (m + 1) := ⟨n - t.1.length - 1, by omega⟩
    rw [hflat, finditer_gap hblank, List.nil_append,
      finditer_token (h.valid t List.mem_cons_self) (h.some t List.mem_cons_self) hstop, ih h.tail (by omega)]
    rfl

theorem segments_of_finditer (n : ℕ) (gap text : List Char) : ∀ found ∈ (finditer n gap text).1,
    ∃ segments : List Segment, (∀ segment ∈ segments, segment.Valid) ∧ found.2 = textOf segments ∧ found.2 ≠ [] := by
  induction n generalizing gap text with
  | zero => exact fun found hf => absurd hf List.not_mem_nil
  | succ n ih =>
    cases text with
    | nil => exact fun found hf => absurd hf List.not_mem_nil
    | cons c rest =>
      obtain ⟨segments, hvalid, htaken, -⟩ := segments_of_turns (c :: rest).length (c :: rest)
      rw [finditer]
      split
      · exact ih _ _
      · rename_i hne
        exact List.forall_mem_cons.mpr ⟨⟨segments, hvalid, htaken, hne⟩, ih [] _⟩

end GameLink.Ff14.Queries

import GameLink.Foundation.Json

namespace GameLink.Foundation.Json

def quoteChars (s : String) : List Char := '"' :: (s.toList.flatMap fun c => (escapeChar c).toList) ++ ['"']

def joinChars : List (List Char) → List Char
  | [] => []
  | [s] => s
  | s :: t :: rest => s ++ ',' :: joinChars (t :: rest)

mutual

def chars : Json → List Char
  | null => ['n', 'u', 'l', 'l']
  | bool true => ['t', 'r', 'u', 'e']
  | bool false => ['f', 'a', 'l', 's', 'e']
  | int i => (toString i).toList
  | float text => text.toList
  | str s => quoteChars s
  | arr items => '[' :: joinChars (charsItems items) ++ [']']
  | obj entries => '\x7b' :: joinChars (((charsEntries entries).insertionSort fun a b => a.1 ≤ b.1).map fun e =>
      quoteChars e.1 ++ ':' :: e.2) ++ ['\x7d']

def charsItems : List Json → List (List Char)
  | [] => []
  | v :: rest => chars v :: charsItems rest

def charsEntries : List (String × Json) → List (String × List Char)
  | [] => []
  | (k, v) :: rest => (k, chars v) :: charsEntries rest

end

theorem toList_join (l : List String) : (String.join l).toList = l.flatMap String.toList := by
  have hfold : ∀ (l : List String) (s : String), (l.foldl (· ++ ·) s).toList = s.toList ++ l.flatMap String.toList := by
    intro l
    induction l with
    | nil => simp
    | cons t rest ih =>
      intro s
      rw [List.foldl_cons, ih, String.toList_append, List.flatMap_cons, List.append_assoc]
  rw [String.join, hfold, String.toList_empty, List.nil_append]

theorem toList_quote (s : String) : (quote s).toList = quoteChars s := by
  rw [quote, String.toList_append, String.toList_append, toList_join, List.flatMap_map, quoteChars]
  rfl

theorem toList_joinText (l : List String) : (join l).toList = joinChars (l.map String.toList) := by
  induction l with
  | nil => rfl
  | cons s rest ih =>
    cases rest with
    | nil => rfl
    | cons t rest =>
      rw [join, String.toList_append, String.toList_append, ih]
      simp [joinChars]

mutual

theorem toList_dumps : ∀ v : Json, v.dumps.toList = v.chars
  | null => by rw [dumps, chars]; rfl
  | bool true => by rw [dumps, chars]; rfl
  | bool false => by rw [dumps, chars]; rfl
  | int i => by rw [dumps, chars]
  | float text => by rw [dumps, chars]
  | str s => by rw [dumps, chars, toList_quote]
  | arr items => by
    rw [dumps, chars, String.toList_append, String.toList_append, toList_joinText, toList_dumpsItems items]
    rfl
  | obj entries => by
    rw [dumps, chars, String.toList_append, String.toList_append, toList_joinText, sortEntries, List.map_map,
      ← toList_dumpsEntries entries]
    have hsort := List.map_insertionSort (r := fun a b : String × String => a.1 ≤ b.1)
      (s := fun a b : String × List Char => a.1 ≤ b.1) (fun e : String × String => (e.1, e.2.toList)) (dumpsEntries entries)
      (fun _ _ _ _ => Iff.rfl)
    rw [← hsort, List.map_map]
    have hentry : (String.toList ∘ fun e : String × String => quote e.1 ++ ":" ++ e.2) =
        (fun e => quoteChars e.1 ++ ':' :: e.2) ∘ fun e : String × String => (e.1, e.2.toList) := by
      funext e
      simp [toList_quote]
    rw [hentry]
    rfl

theorem toList_dumpsItems : ∀ items : List Json, (dumpsItems items).map String.toList = charsItems items
  | [] => rfl
  | v :: rest => by rw [dumpsItems, charsItems, List.map_cons, toList_dumps v, toList_dumpsItems rest]

theorem toList_dumpsEntries : ∀ entries : List (String × Json),
    (dumpsEntries entries).map (fun e => (e.1, e.2.toList)) = charsEntries entries
  | [] => rfl
  | (k, v) :: rest => by rw [dumpsEntries, charsEntries, List.map_cons, toList_dumps v, toList_dumpsEntries rest]

end

theorem dumps_eq (v : Json) : v.dumps = String.ofList v.chars := by
  rw [← toList_dumps, String.ofList_toList]

theorem dumpsAscii_eq (v : Json) : v.dumpsAscii = String.ofList (v.chars.flatMap escapeNonAscii) := by
  rw [dumpsAscii, toList_dumps]

end GameLink.Foundation.Json

namespace GameLink.Foundation

theorem lookup_cons_eq {α β : Type} [DecidableEq α] (k : α) (x : α × β) (l : List (α × β)) :
    (x :: l).lookup k = if k = x.1 then some x.2 else l.lookup k := by
  rw [List.lookup_cons]
  by_cases h : k = x.1
  · rw [if_pos h, beq_iff_eq.mpr h]
  · rw [if_neg h, beq_eq_false_iff_ne.mpr h]

end GameLink.Foundation

import GameLink.Foundation.Grouping
import Mathlib.Data.List.Sort
import Mathlib.Data.Nat.Bitwise
import Mathlib.Algebra.Order.Ring.Int

namespace GameLink.Presentation.Dense

open Foundation

inductive Image where
  | missing
  | asset (content size : ℕ)
  | resource
deriving DecidableEq

structure Item where
  key : String
  span : ℤ
  image : Image
deriving DecidableEq

structure Collage where
  items : List Item
  columns : ℤ
  cellWidth : ℤ
  cellHeight : ℤ
  maxHeight : ℤ
  maxPages : ℤ
  fit : String

inductive Failure where
  | invalidInput
  | layoutOverflow
  | byteLimit
deriving DecidableEq

structure Box where
  left : ℤ
  top : ℤ
  right : ℤ
  bottom : ℤ
deriving DecidableEq

structure Tile where
  item : Item
  box : Box
  rank : ℕ
deriving DecidableEq

structure CollagePage where
  index : ℕ
  count : ℕ
  width : ℤ
  height : ℤ
  tiles : List Tile
  totalItems : ℕ
deriving DecidableEq

def Item.valid (columns : ℤ) (item : Item) : Bool :=
  0 < item.key.length && item.key.length ≤ 128 && 1 ≤ item.span && item.span ≤ min 8 columns

def Collage.valid (node : Collage) : Bool :=
  1 ≤ node.items.length && node.items.length ≤ 1000 && 8 ≤ node.columns && node.columns ≤ 32 &&
    24 ≤ node.cellWidth && node.cellWidth ≤ 96 && 24 ≤ node.cellHeight && node.cellHeight ≤ 192 &&
    400 ≤ node.columns * node.cellWidth && node.columns * node.cellWidth ≤ 2048 && 128 ≤ node.maxHeight &&
    node.maxHeight ≤ 6000 && 1 ≤ node.maxPages && node.maxPages ≤ 8 && (node.fit == "cover" || node.fit == "contain") &&
    node.items.all (Item.valid node.columns) && decide (node.items.map Item.key).Nodup

structure Grid where
  columns : ℕ
  rows : ℕ
  cellWidth : ℤ
  cellHeight : ℤ

def Item.side (item : Item) : ℕ := item.span.toNat

structure Page where
  occupied : List ℕ
  tiles : List Tile
  sources : List (ℕ × ℕ)

def Grid.emptyPage (g : Grid) : Page := { occupied := List.replicate g.rows 0, tiles := [], sources := [] }

def mask (k x : ℕ) : ℕ := (1 <<< k - 1) <<< x

def fits (occupied : List ℕ) (k x y : ℕ) : Bool :=
  (List.range' y k).all fun line => occupied.getD line 0 &&& mask k x == 0

def Grid.spot (g : Grid) (occupied : List ℕ) (k : ℕ) : Option (ℕ × ℕ) :=
  (List.range (g.rows - k + 1)).findSome? fun y =>
    (List.range (g.columns - k + 1)).findSome? fun x => if fits occupied k x y then some (x, y) else none

def Grid.box (g : Grid) (k x y : ℕ) : Box :=
  { left := x * g.cellWidth, top := y * g.cellHeight,
    right := (x + k) * g.cellWidth, bottom := (y + k) * g.cellHeight }

def Page.put (g : Grid) (item : Item) (rank x y : ℕ) (page : Page) : Page :=
  { occupied := (List.range' y item.side).foldl
      (fun lines line => lines.modify line (· ||| mask item.side x)) page.occupied,
    tiles := page.tiles ++ [{ item, box := g.box item.side x y, rank }],
    sources := match item.image with
      | .asset content size => setEntry page.sources content size
      | _ => page.sources }

def maxPageItems : ℕ := 512

def Page.tryPut (g : Grid) (item : Item) (rank : ℕ) (page : Page) : Option Page :=
  if maxPageItems ≤ page.tiles.length then none
  else (g.spot page.occupied item.side).map fun place => page.put g item rank place.1 place.2

/-- Tries the pages in order; behind the last one a new page is opened while `left` allows it. -/
def placeItem (g : Grid) (item : Item) (rank : ℕ) : ℕ → List Page → Option (List Page)
  | 0, [] => none
  | _ + 1, [] => (g.emptyPage.tryPut g item rank).map fun page => [page]
  | left, page :: rest =>
    match page.tryPut g item rank with
    | some page' => some (page' :: rest)
    | none => (placeItem g item rank (left - 1) rest).map fun rest' => page :: rest'

def Precedes (a b : Item × ℕ) : Prop := b.1.span < a.1.span ∨ a.1.span = b.1.span ∧ a.2 ≤ b.2

instance : DecidableRel Precedes := fun a b =>
  decidable_of_iff (b.1.span < a.1.span ∨ a.1.span = b.1.span ∧ a.2 ≤ b.2) Iff.rfl

def Collage.order (node : Collage) : List (Item × ℕ) := (node.items.zipIdx 1).insertionSort Precedes

def Collage.rows (node : Collage) (cap : Option ℤ) : ℤ :=
  (match cap with
  | none => node.maxHeight
  | some cap => min node.maxHeight cap) / node.cellHeight

def Collage.grid (node : Collage) (cap : Option ℤ) : Grid :=
  { columns := node.columns.toNat, rows := (node.rows cap).toNat,
    cellWidth := node.cellWidth, cellHeight := node.cellHeight }

def Collage.pack (node : Collage) (g : Grid) : Option (List Page) :=
  node.order.foldlM (fun pages entry => placeItem g entry.1 entry.2 node.maxPages.toNat pages) []

def sizes (sources : List (ℕ × ℕ)) : ℕ := (sources.map Prod.snd).sum

def uniqueSources (pages : List Page) : List (ℕ × ℕ) :=
  (pages.flatMap Page.sources).foldl (fun d entry => setEntry d entry.1 entry.2) []

def Collage.finish (node : Collage) (pages : List Page) : List CollagePage :=
  pages.zipIdx.map fun (page, index) =>
    { index := index + 1, count := pages.length, width := node.columns * node.cellWidth,
      height := (page.tiles.map fun tile => tile.box.bottom).max?.getD 0,
      tiles := page.tiles, totalItems := node.items.length }

def planDense (node : Collage) (cap : Option ℤ) : Except Failure (List CollagePage) :=
  if node.valid = false then .error .invalidInput
  else if node.items.any fun item => node.rows cap < item.span then .error .layoutOverflow
  else
    match node.pack (node.grid cap) with
    | none => .error .layoutOverflow
    | some pages =>
      if pages.any fun page => 8 * 1024 * 1024 < sizes page.sources then .error .byteLimit
      else if 32 * 1024 * 1024 < sizes (uniqueSources pages) then .error .byteLimit
      else .ok (node.finish pages)

/-! What first fit means, over the places of the items already taken. -/

structure Placed where
  item : Item
  rank : ℕ
  page : ℕ
  x : ℕ
  y : ℕ

namespace Placed

def side (p : Placed) : ℕ := p.item.side

def entry (p : Placed) : Item × ℕ := (p.item, p.rank)

def tile (g : Grid) (p : Placed) : Tile := { item := p.item, box := g.box p.side p.x p.y, rank := p.rank }

def Covers (p : Placed) (line column : ℕ) : Prop :=
  p.y ≤ line ∧ line < p.y + p.side ∧ p.x ≤ column ∧ column < p.x + p.side

end Placed

structure Grid.Fits (g : Grid) (placed : List Placed) (k page x y : ℕ) : Prop where
  width : x + k ≤ g.columns
  height : y + k ≤ g.rows
  room : placed.countP (fun p => p.page = page) < 512
  free : ∀ p ∈ placed, p.page = page → ∀ line column, p.Covers line column →
    ¬ (y ≤ line ∧ line < y + k ∧ x ≤ column ∧ column < x + k)

def Earlier (page x y : ℕ) (p : Placed) : Prop :=
  page < p.page ∨ page = p.page ∧ (y < p.y ∨ y = p.y ∧ x < p.x)

inductive Grid.FirstFit (g : Grid) : List Placed → Prop
  | nil : g.FirstFit []
  | place {placed : List Placed} {p : Placed} : g.FirstFit placed → g.Fits placed p.side p.page p.x p.y →
      (∀ page x y, Earlier page x y p → ¬ g.Fits placed p.side page x y) → g.FirstFit (placed ++ [p])

def Box.Apart (a b : Box) : Prop :=
  a.right ≤ b.left ∨ b.right ≤ a.left ∨ a.bottom ≤ b.top ∨ b.bottom ≤ a.top

structure CollagePage.Exact (node : Collage) (cap : Option ℤ) (page : CollagePage) : Prop where
  nonempty : page.tiles ≠ []
  bounded : page.tiles.length ≤ 512
  apart : page.tiles.Pairwise fun a b => a.box.Apart b.box
  square : ∀ tile ∈ page.tiles, tile.box.right - tile.box.left = tile.item.span * node.cellWidth ∧
    tile.box.bottom - tile.box.top = tile.item.span * node.cellHeight
  inside : ∀ tile ∈ page.tiles, 0 ≤ tile.box.left ∧ tile.box.right ≤ page.width ∧ 0 ≤ tile.box.top ∧
    tile.box.bottom ≤ page.height
  width : page.width = node.columns * node.cellWidth
  height : page.height ≤ node.rows cap * node.cellHeight

structure Exact (node : Collage) (cap : Option ℤ) (pages : List CollagePage) (placed : List Placed) : Prop where
  complete : (placed.map Placed.entry).Perm (node.items.zipIdx 1)
  ordered : (placed.map Placed.entry).Pairwise Precedes
  firstFit : (node.grid cap).FirstFit placed
  paged : ∀ p ∈ placed, p.page < pages.length
  tiles : ∀ (i : ℕ) (page : CollagePage), pages[i]? = some page →
    page.tiles = (placed.filter fun p => p.page = i).map (Placed.tile (node.grid cap))
  count : (pages.length : ℤ) ≤ node.maxPages
  pages : ∀ page ∈ pages, page.Exact node cap

section Search

variable {α : Type} {f : ℕ → Option α} {b : α}

theorem findSome?_range {n : ℕ} (h : (List.range n).findSome? f = some b) :
    ∃ i < n, f i = some b ∧ ∀ j < i, f j = none := by
  induction n with
  | zero => cases h
  | succ n ih =>
    rw [List.range_succ, List.findSome?_append, Option.or_eq_some_iff] at h
    obtain h | ⟨hnone, h⟩ := h
    · obtain ⟨i, hi, hrest⟩ := ih h
      exact ⟨i, by omega, hrest⟩
    · refine ⟨n, by omega, ?_, fun j hj => List.findSome?_eq_none_iff.mp hnone j (List.mem_range.mpr hj)⟩
      simpa using h

end Search

theorem testBit_mask (k x column : ℕ) : (mask k x).testBit column = (decide (x ≤ column) && decide (column < x + k)) := by
  unfold mask
  rw [Nat.testBit_shiftLeft, Nat.one_shiftLeft, Nat.testBit_two_pow_sub_one]
  by_cases hx : x ≤ column
  · have hiff : column - x < k ↔ column < x + k := by omega
    simp [hx, hiff]
  · simp [hx]

theorem and_mask_eq_zero {v k x : ℕ} :
    v &&& mask k x = 0 ↔ ∀ column, v.testBit column = true → ¬ (x ≤ column ∧ column < x + k) := by
  constructor
  · intro h column hv hcolumn
    have hbit := congrArg (Nat.testBit · column) h
    simp [testBit_mask, hv, hcolumn.1, hcolumn.2] at hbit
  intro h
  apply Nat.eq_of_testBit_eq
  intro column
  rw [Nat.testBit_and, testBit_mask, Nat.zero_testBit]
  by_cases hv : v.testBit column = true
  · have hout := h column hv
    simpa [hv] using hout
  · simp [hv]

theorem fits_iff {occupied : List ℕ} {k x y : ℕ} :
    fits occupied k x y = true ↔ ∀ line column, (occupied.getD line 0).testBit column = true →
      ¬ (y ≤ line ∧ line < y + k ∧ x ≤ column ∧ column < x + k) := by
  unfold fits
  simp only [List.all_eq_true, List.mem_range'_1, beq_iff_eq, and_mask_eq_zero]
  constructor
  · rintro h line column hbit ⟨hy, hline, hcolumn⟩
    exact h line ⟨hy, hline⟩ column hbit hcolumn
  · rintro h line ⟨hy, hline⟩ column hbit hcolumn
    exact h line column hbit ⟨hy, hline, hcolumn⟩

section Spot

variable {g : Grid} {occupied : List ℕ} {k : ℕ}

theorem Grid.spot_eq_some {x y : ℕ} (hside : k ≤ g.columns) (hrows : k ≤ g.rows)
    (h : g.spot occupied k = some (x, y)) : x + k ≤ g.columns ∧ y + k ≤ g.rows ∧ fits occupied k x y = true ∧
      ∀ x' y', x' + k ≤ g.columns → y' < y ∨ y' = y ∧ x' < x → fits occupied k x' y' = false := by
  obtain ⟨y₀, hy, h, hbelow⟩ := findSome?_range h
  obtain ⟨x₀, hx, h, hleft⟩ := findSome?_range h
  split at h
  · rename_i hfits
    cases h
    refine ⟨by omega, by omega, hfits, fun x' y' hx' hearlier => ?_⟩
    obtain hy' | ⟨rfl, hx'⟩ := hearlier
    · have hnone := List.findSome?_eq_none_iff.mp (hbelow y' hy') x' (List.mem_range.mpr (by omega))
      simpa using hnone
    · simpa using hleft x' hx'
  · cases h

theorem Grid.spot_eq_none (h : g.spot occupied k = none) {x y : ℕ} (hx : x + k ≤ g.columns) (hy : y + k ≤ g.rows) :
    fits occupied k x y = false := by
  have hline := List.findSome?_eq_none_iff.mp h y (List.mem_range.mpr (by omega))
  have hplace := List.findSome?_eq_none_iff.mp hline x (List.mem_range.mpr (by omega))
  simpa using hplace

end Spot

section Lines

variable {occupied : List ℕ} {m : ℕ} (lines : List ℕ)

theorem length_foldl_modify :
    (lines.foldl (fun rows line => rows.modify line (· ||| m)) occupied).length = occupied.length := by
  induction lines generalizing occupied with
  | nil => rfl
  | cons line lines ih => rw [List.foldl_cons, ih, List.length_modify]

theorem testBit_foldl_modify {line : ℕ} (hline : line < occupied.length) (column : ℕ) :
    ((lines.foldl (fun rows line => rows.modify line (· ||| m)) occupied).getD line 0).testBit column =
      ((occupied.getD line 0).testBit column || (decide (line ∈ lines) && m.testBit column)) := by
  induction lines generalizing occupied with
  | nil => simp
  | cons first lines ih =>
    rw [List.foldl_cons, ih (by rw [List.length_modify]; exact hline)]
    have hmodify : (occupied.modify first (· ||| m)).getD line 0 =
        if first = line then occupied.getD line 0 ||| m else occupied.getD line 0 := by
      rw [List.getD_eq_getElem?_getD, List.getD_eq_getElem?_getD, List.getElem?_modify, List.getElem?_eq_getElem hline]
      split
      · rfl
      · rfl
    rw [hmodify]
    by_cases hfirst : first = line
    · simp only [hfirst, if_true, Nat.testBit_or, List.mem_cons, true_or, decide_true, Bool.true_and]
      cases m.testBit column <;> simp
    · simp [hfirst, Ne.symm hfirst]

end Lines

structure Page.Holds (g : Grid) (i : ℕ) (placed : List Placed) (page : Page) : Prop where
  tiles : page.tiles = (placed.filter fun p => p.page = i).map (Placed.tile g)
  lines : page.occupied.length = g.rows
  cells : ∀ line column, (page.occupied.getD line 0).testBit column = true ↔
    line < g.rows ∧ ∃ p ∈ placed, p.page = i ∧ p.Covers line column

section Holds

variable {g : Grid} {i : ℕ} {placed : List Placed} {page : Page}

theorem Grid.emptyPage_holds (h : ∀ p ∈ placed, p.page ≠ i) : g.emptyPage.Holds g i placed where
  tiles := by
    rw [List.filter_eq_nil_iff.mpr fun p hp => by simpa using h p hp]
    rfl
  lines := List.length_replicate
  cells := by
    intro line column
    have hzero : (List.replicate g.rows 0).getD line 0 = 0 := by
      rw [List.getD_eq_getElem?_getD, List.getElem?_replicate]
      split
      · rfl
      · rfl
    change ((List.replicate g.rows 0).getD line 0).testBit column = true ↔ _
    rw [hzero, Nat.zero_testBit]
    constructor
    · rintro ⟨⟩
    · rintro ⟨-, p, hp, hpage, -⟩
      exact absurd hpage (h p hp)

section

variable (h : page.Holds g i placed)
include h

theorem Page.Holds.length_tiles :
    page.tiles.length = placed.countP fun p => p.page = i := by
  rw [h.tiles, List.length_map, List.countP_eq_length_filter]

theorem Page.Holds.fits_iff {k x y : ℕ} (hx : x + k ≤ g.columns) (hy : y + k ≤ g.rows)
    (hroom : page.tiles.length < 512) : fits page.occupied k x y = true ↔ g.Fits placed k i x y := by
  rw [Dense.fits_iff]
  constructor
  · intro hfits
    refine ⟨hx, hy, by rw [← h.length_tiles]; exact hroom, fun p hp hpage line column hcovers hin => ?_⟩
    exact hfits line column ((h.cells line column).mpr ⟨by omega, p, hp, hpage, hcovers⟩) hin
  intro hfits line column hbit hin
  obtain ⟨-, p, hp, hpage, hcovers⟩ := (h.cells line column).mp hbit
  exact hfits.free p hp hpage line column hcovers hin

theorem Page.Holds.other {p : Placed} (hp : p.page ≠ i) : page.Holds g i (placed ++ [p]) where
  tiles := by
    rw [h.tiles, List.filter_append, List.filter_singleton, decide_eq_false hp]
    simp
  lines := h.lines
  cells := by
    intro line column
    rw [h.cells]
    simp only [List.mem_append, List.mem_singleton]
    constructor
    · rintro ⟨hline, q, hq, hrest⟩
      exact ⟨hline, q, .inl hq, hrest⟩
    rintro ⟨hline, q, hq | rfl, hpage, hcovers⟩
    · exact ⟨hline, q, hq, hpage, hcovers⟩
    · exact absurd hpage hp

theorem Page.Holds.put {p : Placed} (hp : p.page = i) :
    (page.put g p.item p.rank p.x p.y).Holds g i (placed ++ [p]) where
  tiles := by
    change page.tiles ++ [p.tile g] = _
    rw [h.tiles, List.filter_append, List.filter_singleton, decide_eq_true hp]
    simp
  lines := (length_foldl_modify _).trans h.lines
  cells := by
    intro line column
    by_cases hline : line < g.rows
    · have hbit := testBit_foldl_modify (m := mask p.item.side p.x) (List.range' p.y p.item.side)
        (h.lines.symm ▸ hline) column
      change (List.getD (List.foldl _ page.occupied _) line 0).testBit column = true ↔ _
      rw [hbit, Bool.or_eq_true, h.cells, testBit_mask]
      simp only [List.mem_range'_1, Bool.and_eq_true, decide_eq_true_eq, List.mem_append, List.mem_singleton]
      constructor
      · rintro (⟨-, q, hq, hrest⟩ | ⟨⟨hy, hside⟩, hx, hcolumn⟩)
        · exact ⟨hline, q, .inl hq, hrest⟩
        · exact ⟨hline, p, .inr rfl, hp, hy, hside, hx, hcolumn⟩
      rintro ⟨-, q, hq | rfl, hpage, hcovers⟩
      · exact .inl ⟨hline, q, hq, hpage, hcovers⟩
      · exact .inr ⟨⟨hcovers.1, hcovers.2.1⟩, hcovers.2.2⟩
    · have hout : (page.put g p.item p.rank p.x p.y).occupied.length ≤ line := by
        have hlength : (page.put g p.item p.rank p.x p.y).occupied.length = g.rows :=
          (length_foldl_modify _).trans h.lines
        omega
      rw [List.getD_eq_getElem?_getD, List.getElem?_eq_none hout, Option.getD_none, Nat.zero_testBit]
      constructor
      · rintro ⟨⟩
      · rintro ⟨hin, -⟩
        exact absurd hin hline

end

theorem Page.Holds.tryPut_eq_some {item : Item} {rank : ℕ} {page' : Page} (h : page.Holds g i placed)
    (hside : item.side ≤ g.columns) (hrows : item.side ≤ g.rows) (hput : page.tryPut g item rank = some page') :
    ∃ x y, page' = page.put g item rank x y ∧ g.Fits placed item.side i x y ∧
      ∀ x' y', y' < y ∨ y' = y ∧ x' < x → ¬ g.Fits placed item.side i x' y' := by
  unfold Page.tryPut at hput
  split at hput
  · cases hput
  rename_i hroom
  obtain ⟨⟨x, y⟩, hspot, rfl⟩ := Option.map_eq_some_iff.mp hput
  obtain ⟨hx, hy, hfits, hbefore⟩ := Grid.spot_eq_some hside hrows hspot
  refine ⟨x, y, rfl, (h.fits_iff hx hy (not_le.mp hroom)).mp hfits, fun x' y' hearlier hfits' => ?_⟩
  have hfree := (h.fits_iff hfits'.width hfits'.height (not_le.mp hroom)).mpr hfits'
  rw [hbefore x' y' hfits'.width hearlier] at hfree
  cases hfree

theorem Page.Holds.tryPut_eq_none {item : Item} {rank : ℕ} (h : page.Holds g i placed)
    (hput : page.tryPut g item rank = none) (x y : ℕ) : ¬ g.Fits placed item.side i x y := by
  intro hfits
  unfold Page.tryPut at hput
  split at hput
  · rename_i hfull
    have hroom := hfits.room
    rw [← h.length_tiles] at hroom
    exact absurd hfull (not_le.mpr hroom)
  rename_i hroom
  have hfree := (h.fits_iff hfits.width hfits.height (not_le.mp hroom)).mpr hfits
  rw [Grid.spot_eq_none (Option.map_eq_none_iff.mp hput) hfits.width hfits.height] at hfree
  cases hfree

end Holds

structure Pages (g : Grid) (i : ℕ) (placed : List Placed) (pages : List Page) : Prop where
  holds : ∀ (j : ℕ) (page : Page), pages[j]? = some page → page.Holds g (i + j) placed
  paged : ∀ p ∈ placed, p.page < i + pages.length

namespace Pages

variable {g : Grid} {i : ℕ} {placed : List Placed} {page : Page} {rest pages : List Page}

theorem head (h : Pages g i placed (page :: rest)) : page.Holds g i placed := h.holds 0 page rfl

theorem tail (h : Pages g i placed (page :: rest)) : Pages g (i + 1) placed rest where
  holds := by
    intro j page' hpage
    have hholds := h.holds (j + 1) page' (by rw [List.getElem?_cons_succ]; exact hpage)
    rw [show i + 1 + j = i + (j + 1) by omega]
    exact hholds
  paged := by
    intro p hp
    have hpaged := h.paged p hp
    rw [List.length_cons] at hpaged
    omega

theorem cons (hpage : page.Holds g i placed) (h : Pages g (i + 1) placed rest) : Pages g i placed (page :: rest) where
  holds := by
    intro j page' hget
    cases j with
    | zero =>
      cases hget
      exact hpage
    | succ j =>
      rw [show i + (j + 1) = i + 1 + j by omega]
      exact h.holds j page' (by rw [← hget, List.getElem?_cons_succ])
  paged := by
    intro p hp
    have hpaged := h.paged p hp
    rw [List.length_cons]
    omega

theorem nil (h : ∀ p ∈ placed, p.page < i) : Pages g i placed [] where
  holds := by
    intro j page hpage
    cases hpage
  paged := h

theorem other (h : Pages g i placed pages) {p : Placed} (hp : p.page < i) : Pages g i (placed ++ [p]) pages where
  holds := fun j page hpage => (h.holds j page hpage).other (by omega)
  paged := by
    intro q hq
    rcases List.mem_append.mp hq with hq | hq
    · exact h.paged q hq
    · rw [List.mem_singleton.mp hq]
      omega

theorem placeItem_cons (item : Item) (rank left : ℕ) : placeItem g item rank left (page :: rest) =
    match page.tryPut g item rank with
    | some page' => some (page' :: rest)
    | none => (placeItem g item rank (left - 1) rest).map fun rest' => page :: rest' := by
  cases left with
  | zero => rfl
  | succ left => rfl

theorem placeItem_eq_some {item : Item} {rank left : ℕ} {pages' : List Page} (h : Pages g i placed pages)
    (hside : item.side ≤ g.columns) (hrows : item.side ≤ g.rows)
    (hplace : placeItem g item rank left pages = some pages') : ∃ p : Placed, p.entry = (item, rank) ∧ i ≤ p.page ∧
      Pages g i (placed ++ [p]) pages' ∧ g.Fits placed p.side p.page p.x p.y ∧
      (pages'.length ≤ max pages.length left ∧ pages'.length ≤ pages.length + 1 ∧
        pages'.length ≤ max pages.length (p.page - i + 1)) ∧
      ∀ page x y, i ≤ page → Earlier page x y p → ¬ g.Fits placed p.side page x y := by
  induction pages generalizing i left pages' with
  | nil =>
    cases left with
    | zero => cases hplace
    | succ left =>
      obtain ⟨page, hput, rfl⟩ := Option.map_eq_some_iff.mp hplace
      have hempty : g.emptyPage.Holds g i placed := Grid.emptyPage_holds fun p hp => (h.paged p hp).ne
      obtain ⟨x, y, rfl, hfits, hbefore⟩ := hempty.tryPut_eq_some hside hrows hput
      refine ⟨{ item, rank, page := i, x, y }, rfl, le_rfl, cons (hempty.put rfl) (nil fun p hp => ?_), hfits, ?_, ?_⟩
      · rcases List.mem_append.mp hp with hp | hp
        · exact Nat.lt_succ_of_lt (h.paged p hp)
        · rw [List.mem_singleton.mp hp]
          exact Nat.lt_succ_self i
      · exact ⟨by simp, by simp, by simp⟩
      rintro page x' y' hpage (hlt | ⟨rfl, hearlier⟩)
      · exact absurd hlt (not_lt.mpr hpage)
      · exact hbefore x' y' hearlier
  | cons page rest ih =>
    rw [placeItem_cons] at hplace
    split at hplace
    · rename_i page' hput
      cases hplace
      obtain ⟨x, y, rfl, hfits, hbefore⟩ := h.head.tryPut_eq_some hside hrows hput
      refine ⟨{ item, rank, page := i, x, y }, rfl, le_rfl, cons (h.head.put rfl) (h.tail.other (Nat.lt_succ_self i)),
        hfits, ⟨le_max_left _ _, Nat.le_succ _, le_max_left _ _⟩, ?_⟩
      rintro page x' y' hpage (hlt | ⟨rfl, hearlier⟩)
      · exact absurd hlt (not_lt.mpr hpage)
      · exact hbefore x' y' hearlier
    · rename_i hnone
      obtain ⟨rest', hrest, rfl⟩ := Option.map_eq_some_iff.mp hplace
      obtain ⟨p, hentry, hpage, hpages, hfits, hlength, hbefore⟩ := ih h.tail hrest
      refine ⟨p, hentry, by omega, cons (h.head.other (by omega)) hpages, hfits, ?_, ?_⟩
      · rw [List.length_cons, List.length_cons]
        exact ⟨by omega, by omega, by omega⟩
      intro page' x y hpage' hearlier
      rcases hpage'.eq_or_lt with rfl | hlt
      · have hsize : p.side = item.side := congrArg (fun e : Item × ℕ => e.1.side) hentry
        rw [hsize]
        exact h.head.tryPut_eq_none hnone x y
      · exact hbefore page' x y hlt hearlier

theorem placeItem_eq_none {item : Item} {rank left : ℕ} (h : Pages g i placed pages)
    (hplace : placeItem g item rank left pages = none) {page x y : ℕ} (hpage : i ≤ page)
    (hlt : page < i + max pages.length left) : ¬ g.Fits placed item.side page x y := by
  induction pages generalizing i left with
  | nil =>
    cases left with
    | zero => exact absurd hlt (by simpa using hpage)
    | succ left =>
      intro hfits
      -- A square that fits on a page behind the last one fits on the first of them.
      have hempty : g.emptyPage.Holds g i placed := Grid.emptyPage_holds fun p hp => (h.paged p hp).ne
      refine hempty.tryPut_eq_none (Option.map_eq_none_iff.mp hplace) x y ⟨hfits.width, hfits.height, ?_, ?_⟩
      · rw [List.countP_eq_zero.mpr fun p hp => by simpa using (h.paged p hp).ne]
        decide
      · intro p hp hi
        exact absurd hi (h.paged p hp).ne
  | cons first rest ih =>
    rw [placeItem_cons] at hplace
    split at hplace
    · cases hplace
    rename_i hnone
    rw [List.length_cons] at hlt
    rcases hpage.eq_or_lt with rfl | hpage
    · exact h.head.tryPut_eq_none hnone x y
    · exact ih h.tail (Option.map_eq_none_iff.mp hplace) hpage (by omega)

end Pages

namespace Grid.FirstFit

variable {g : Grid} {placed : List Placed}

theorem room (h : g.FirstFit placed) (i : ℕ) : (placed.filter fun p => p.page = i).length ≤ 512 := by
  induction h with
  | nil => exact Nat.zero_le 512
  | @place placed p _ hfits _ ih =>
    rw [List.filter_append, List.length_append, List.filter_singleton]
    by_cases hp : p.page = i
    · have hroom := hfits.room
      rw [List.countP_eq_length_filter, hp] at hroom
      rw [decide_eq_true hp]
      exact hroom
    · rw [decide_eq_false hp]
      exact ih

theorem within (h : g.FirstFit placed) : ∀ p ∈ placed, p.x + p.side ≤ g.columns ∧ p.y + p.side ≤ g.rows := by
  induction h with
  | nil =>
    intro p hp
    cases hp
  | place _ hfits _ ih =>
    intro q hq
    rcases List.mem_append.mp hq with hq | hq
    · exact ih q hq
    · rw [List.mem_singleton.mp hq]
      exact ⟨hfits.width, hfits.height⟩

theorem disjoint (h : g.FirstFit placed) : placed.Pairwise fun p q => p.page = q.page →
    ∀ line column, p.Covers line column → ¬ q.Covers line column := by
  induction h with
  | nil => exact .nil
  | place _ hfits _ ih =>
    rw [List.pairwise_append]
    refine ⟨ih, List.pairwise_singleton _ _, fun p hp q hq hpage line column hcovers hq' => ?_⟩
    rw [List.mem_singleton.mp hq] at hpage hq'
    exact hfits.free p hp hpage line column hcovers hq'

end Grid.FirstFit

theorem apart_tile {g : Grid} {p q : Placed} (hw : 0 < g.cellWidth) (hh : 0 < g.cellHeight) (hp : 0 < p.side)
    (hq : 0 < q.side) (h : ∀ line column, p.Covers line column → ¬ q.Covers line column) :
    (p.tile g).box.Apart (q.tile g).box := by
  have hscale : ∀ {a b : ℕ} {c : ℤ}, 0 < c → a ≤ b → (a : ℤ) * c ≤ b * c := by
    intro a b c hc hab
    exact mul_le_mul_of_nonneg_right (Int.ofNat_le.mpr hab) hc.le
  by_contra hnot
  simp only [Box.Apart, not_or] at hnot
  obtain ⟨hleft, hright, htop, hbottom⟩ := hnot
  have hpx : q.x < p.x + p.side := by
    by_contra hle
    exact hleft (by simpa [Placed.tile, Grid.box] using hscale hw (not_lt.mp hle))
  have hqx : p.x < q.x + q.side := by
    by_contra hle
    exact hright (by simpa [Placed.tile, Grid.box] using hscale hw (not_lt.mp hle))
  have hpy : q.y < p.y + p.side := by
    by_contra hle
    exact htop (by simpa [Placed.tile, Grid.box] using hscale hh (not_lt.mp hle))
  have hqy : p.y < q.y + q.side := by
    by_contra hle
    exact hbottom (by simpa [Placed.tile, Grid.box] using hscale hh (not_lt.mp hle))
  apply h (max p.y q.y) (max p.x q.x)
  · exact ⟨le_max_left _ _, by omega, le_max_left _ _, by omega⟩
  · exact ⟨le_max_right _ _, by omega, le_max_right _ _, by omega⟩

structure Packed (g : Grid) (left : ℕ) (placed : List Placed) (pages : List Page) : Prop where
  firstFit : g.FirstFit placed
  held : Pages g 0 placed pages
  count : pages.length ≤ left
  inhabited : ∀ i < pages.length, ∃ p ∈ placed, p.page = i

namespace Packed

variable {g : Grid} {left rank : ℕ} {placed : List Placed} {pages : List Page} {item : Item}

theorem start : Packed g left [] [] where
  firstFit := .nil
  held := .nil fun p hp => by cases hp
  count := Nat.zero_le left
  inhabited := fun i hi => absurd hi (Nat.not_lt_zero i)

theorem step (h : Packed g left placed pages) (hside : item.side ≤ g.columns) (hrows : item.side ≤ g.rows)
    {pages' : List Page} (hplace : placeItem g item rank left pages = some pages') :
    ∃ p : Placed, p.entry = (item, rank) ∧ Packed g left (placed ++ [p]) pages' := by
  obtain ⟨p, hentry, -, hpages, hfits, ⟨hleft, hone, hlength⟩, hbefore⟩ := h.held.placeItem_eq_some hside hrows hplace
  refine ⟨p, hentry, h.firstFit.place hfits fun page x y => hbefore page x y (Nat.zero_le page), hpages, ?_, ?_⟩
  · exact hleft.trans (max_le h.count le_rfl)
  · intro i hi
    by_cases hp : i < pages.length
    · obtain ⟨q, hq, hpage⟩ := h.inhabited i hp
      exact ⟨q, List.mem_append_left _ hq, hpage⟩
    · have hpage := hpages.paged p (List.mem_append_right _ List.mem_cons_self)
      exact ⟨p, List.mem_append_right _ List.mem_cons_self, by omega⟩

theorem refused (h : Packed g left placed pages) (hside : item.side ≤ g.columns) (hrows : item.side ≤ g.rows)
    (hplace : placeItem g item rank left pages = none) :
    ∃ p : Placed, p.entry = (item, rank) ∧ p.page = left ∧ g.FirstFit (placed ++ [p]) := by
  refine ⟨{ item, rank, page := left, x := 0, y := 0 }, rfl, rfl, h.firstFit.place ⟨?_, ?_, ?_, ?_⟩ ?_⟩
  · simpa [Placed.side] using hside
  · simpa [Placed.side] using hrows
  · rw [List.countP_eq_zero.mpr fun p hp => ?_]
    · decide
    have hpage := h.held.paged p hp
    have hcount := h.count
    simp only [decide_eq_true_eq]
    omega
  · intro p hp hpage
    have hpaged := h.held.paged p hp
    have hcount := h.count
    change p.page = left at hpage
    omega
  · rintro page x y (hlt | ⟨-, hy | ⟨-, hx⟩⟩)
    · exact h.held.placeItem_eq_none hplace (Nat.zero_le page) (by simp only at hlt; omega)
    · exact absurd hy (Nat.not_lt_zero y)
    · exact absurd hx (Nat.not_lt_zero x)

section Run

variable {entries : List (Item × ℕ)} (hsides : ∀ e ∈ entries, e.1.side ≤ g.columns ∧ e.1.side ≤ g.rows)
include hsides

theorem run (h : Packed g left placed pages) {pages' : List Page}
    (hrun : entries.foldlM (fun pages entry => placeItem g entry.1 entry.2 left pages) pages = some pages') :
    ∃ more : List Placed, more.map Placed.entry = entries ∧ Packed g left (placed ++ more) pages' := by
  induction entries generalizing placed pages with
  | nil =>
    cases hrun
    exact ⟨[], rfl, by rwa [List.append_nil]⟩
  | cons e entries ih =>
    obtain ⟨hside, hrows⟩ := hsides e List.mem_cons_self
    rw [List.foldlM_cons] at hrun
    obtain ⟨middle, hplace, hrun⟩ := Option.bind_eq_some_iff.mp hrun
    obtain ⟨p, hentry, hp⟩ := h.step hside hrows hplace
    obtain ⟨more, hmore, hpacked⟩ := ih (fun e' he' => hsides e' (List.mem_cons_of_mem _ he')) hp hrun
    refine ⟨p :: more, by rw [List.map_cons, hentry, hmore], ?_⟩
    rwa [List.append_assoc] at hpacked

theorem run_refused (h : Packed g left placed pages)
    (hrun : entries.foldlM (fun pages entry => placeItem g entry.1 entry.2 left pages) pages = none) :
    ∃ more : List Placed, more.map Placed.entry <+: entries ∧ g.FirstFit (placed ++ more) ∧
      ∃ p ∈ more, p.page = left := by
  induction entries generalizing placed pages with
  | nil => cases hrun
  | cons e entries ih =>
    obtain ⟨hside, hrows⟩ := hsides e List.mem_cons_self
    rw [List.foldlM_cons] at hrun
    cases hplace : placeItem g e.1 e.2 left pages with
    | none =>
      obtain ⟨p, hentry, hpage, hfirst⟩ := h.refused hside hrows hplace
      exact ⟨[p], by simp [hentry], hfirst, p, List.mem_cons_self, hpage⟩
    | some middle =>
      rw [hplace] at hrun
      obtain ⟨p, hentry, hp⟩ := h.step hside hrows hplace
      obtain ⟨more, hmore, hfirst, q, hq, hpage⟩ := ih (fun e' he' => hsides e' (List.mem_cons_of_mem _ he')) hp hrun
      refine ⟨p :: more, ?_, ?_, q, List.mem_cons_of_mem _ hq, hpage⟩
      · rw [List.map_cons, hentry]
        exact (List.prefix_cons_inj _).mpr hmore
      · rwa [List.append_assoc] at hfirst

end Run

end Packed

theorem Collage.valid_columns {node : Collage} (h : node.valid = true) : 0 < node.columns ∧ 0 < node.cellWidth ∧
    0 < node.cellHeight ∧ 0 ≤ node.maxPages ∧ ∀ item ∈ node.items, 1 ≤ item.span ∧ item.span ≤ node.columns := by
  simp only [Collage.valid, Item.valid, Bool.and_eq_true, decide_eq_true_eq, List.all_eq_true] at h
  refine ⟨by omega, by omega, by omega, by omega, fun item hitem => ?_⟩
  have hspan := h.1.2 item hitem
  omega

theorem Collage.order_perm (node : Collage) : node.order.Perm (node.items.zipIdx 1) := List.perm_insertionSort _ _

theorem Collage.order_pairwise (node : Collage) : node.order.Pairwise Precedes := by
  have htotal : Std.Total Precedes := ⟨fun a b => by
    unfold Precedes
    omega⟩
  have htrans : IsTrans _ Precedes := ⟨fun a b c hab hbc => by
    unfold Precedes at *
    omega⟩
  exact List.pairwise_insertionSort _ _

theorem Collage.item_of_order {node : Collage} {e : Item × ℕ} (h : e ∈ node.order) : e.1 ∈ node.items := by
  have hmem : e.1 ∈ (node.items.zipIdx 1).map Prod.fst := List.mem_map_of_mem (node.order_perm.mem_iff.mp h)
  rwa [List.zipIdx_map_fst] at hmem

section Plan

variable {node : Collage} {cap : Option ℤ}

theorem Collage.spans (hvalid : node.valid = true)
    (hrows : ¬ (node.items.any fun item => node.rows cap < item.span) = true) {item : Item} (h : item ∈ node.items) :
    0 < item.side ∧ item.side ≤ (node.grid cap).columns ∧ item.side ≤ (node.grid cap).rows := by
  have hspan := (Collage.valid_columns hvalid).2.2.2.2 item h
  have hrow : item.span ≤ node.rows cap := by
    by_contra hlt
    exact hrows (List.any_eq_true.mpr ⟨item, h, by simpa using hlt⟩)
  unfold Item.side Collage.grid
  dsimp only
  omega

theorem le_max? {l : List ℤ} {a : ℤ} (h : a ∈ l) : a ≤ l.max?.getD 0 := by
  cases hmax : l.max? with
  | none => rw [List.max?_eq_none_iff.mp hmax] at h; cases h
  | some m => exact (List.max?_le_iff hmax).mp le_rfl a h

theorem max?_mem_of_ne_nil {l : List ℤ} (h : l ≠ []) : l.max?.getD 0 ∈ l := by
  cases hmax : l.max? with
  | none => exact absurd (List.max?_eq_none_iff.mp hmax) h
  | some m => exact List.max?_mem hmax

theorem finish_exact (hvalid : node.valid = true) {placed : List Placed} {pages : List Page}
    (hpacked : Packed (node.grid cap) node.maxPages.toNat placed pages)
    (hside : ∀ p ∈ placed, 0 < p.side ∧ (p.side : ℤ) = p.item.span) {i : ℕ} {page : CollagePage}
    (hpage : (node.finish pages)[i]? = some page) : page.Exact node cap ∧
      page.tiles = (placed.filter fun p => p.page = i).map (Placed.tile (node.grid cap)) := by
  obtain ⟨hcolumns, hw, hh, -, -⟩ := Collage.valid_columns hvalid
  unfold Collage.finish at hpage
  rw [List.getElem?_map, List.getElem?_zipIdx] at hpage
  obtain ⟨⟨held, index⟩, hheld, rfl⟩ := Option.map_eq_some_iff.mp hpage
  obtain ⟨held', hheld', heq⟩ := Option.map_eq_some_iff.mp hheld
  cases heq
  have hholds := hpacked.held.holds i held hheld'
  rw [Nat.zero_add] at hholds
  have htile : ∀ tile ∈ held.tiles, ∃ p ∈ placed, p.tile (node.grid cap) = tile := by
    intro tile htile
    rw [hholds.tiles] at htile
    obtain ⟨p, hp, rfl⟩ := List.mem_map.mp htile
    exact ⟨p, (List.mem_filter.mp hp).1, rfl⟩
  have hnonempty : held.tiles ≠ [] := by
    obtain ⟨p, hp, hat⟩ := hpacked.inhabited i (List.getElem?_eq_some_iff.mp hheld').1
    rw [hholds.tiles]
    exact List.ne_nil_of_mem (List.mem_map_of_mem (List.mem_filter.mpr ⟨hp, by simpa using hat⟩))
  refine ⟨⟨hnonempty, ?_, ?_, ?_, ?_, rfl, ?_⟩, hholds.tiles⟩
  · change held.tiles.length ≤ 512
    rw [hholds.tiles, List.length_map]
    exact hpacked.firstFit.room i
  · change held.tiles.Pairwise _
    rw [hholds.tiles, List.pairwise_map]
    refine ((hpacked.firstFit.disjoint.sublist List.filter_sublist).imp_of_mem ?_)
    intro p q hp hq h
    obtain ⟨hp, hpi⟩ := List.mem_filter.mp hp
    obtain ⟨hq, hqi⟩ := List.mem_filter.mp hq
    have hpage : p.page = q.page := (of_decide_eq_true hpi).trans (of_decide_eq_true hqi).symm
    exact apart_tile hw hh (hside p hp).1 (hside q hq).1 (h hpage)
  · intro tile h
    obtain ⟨p, hp, rfl⟩ := htile tile h
    simp only [Placed.tile, Grid.box, ← (hside p hp).2, ← sub_mul, add_sub_cancel_left]
    exact ⟨rfl, rfl⟩
  · intro tile h
    have hbottom : tile.box.bottom ≤ (held.tiles.map fun tile => tile.box.bottom).max?.getD 0 :=
      le_max? (List.mem_map_of_mem h)
    obtain ⟨p, hp, rfl⟩ := htile tile h
    have hwidth := (hpacked.firstFit.within p hp).1
    refine ⟨mul_nonneg (Int.natCast_nonneg _) hw.le, ?_, mul_nonneg (Int.natCast_nonneg _) hh.le, hbottom⟩
    have hle : ((p.x : ℤ) + p.side) ≤ node.columns := by
      have hcast : (p.x + p.side : ℕ) ≤ node.columns.toNat := hwidth
      omega
    exact mul_le_mul_of_nonneg_right hle hw.le
  · obtain ⟨tile, h, hbottom⟩ := List.mem_map.mp (max?_mem_of_ne_nil (mt List.map_eq_nil_iff.mp hnonempty))
    change (held.tiles.map fun tile => tile.box.bottom).max?.getD 0 ≤ _
    rw [← hbottom]
    obtain ⟨p, hp, rfl⟩ := htile tile h
    have hheight := (hpacked.firstFit.within p hp).2
    have hle : ((p.y : ℤ) + p.side) ≤ node.rows cap := by
      have hcast : (p.y + p.side : ℕ) ≤ (node.rows cap).toNat := hheight
      have hpos := (hside p hp).1
      omega
    exact mul_le_mul_of_nonneg_right hle hh.le

/-- Dense planning returns the first-fit placement, and refuses a layout only where first fit has no room for it. -/
theorem planDense_exact (node : Collage) (cap : Option ℤ) :
    (∀ pages, planDense node cap = .ok pages → ∃ placed, Exact node cap pages placed) ∧
      (planDense node cap = .error .layoutOverflow →
        (∃ item ∈ node.items, node.rows cap < item.span) ∨
        ∃ placed rest, (node.grid cap).FirstFit placed ∧ (placed.map Placed.entry ++ rest).Perm (node.items.zipIdx 1) ∧
          (placed.map Placed.entry ++ rest).Pairwise Precedes ∧ ∃ p ∈ placed, node.maxPages ≤ p.page) := by
  generalize hresult : planDense node cap = result
  unfold planDense at hresult
  split at hresult
  · subst hresult
    exact ⟨nofun, nofun⟩
  rename_i hvalid
  have hvalid : node.valid = true := by simpa using hvalid
  obtain ⟨-, -, -, hmax, hspan⟩ := Collage.valid_columns hvalid
  split at hresult
  · rename_i hrows
    subst hresult
    obtain ⟨item, hitem, hlt⟩ := List.any_eq_true.mp hrows
    exact ⟨nofun, fun _ => .inl ⟨item, hitem, of_decide_eq_true hlt⟩⟩
  rename_i hrows
  have hsides : ∀ e ∈ node.order, e.1.side ≤ (node.grid cap).columns ∧ e.1.side ≤ (node.grid cap).rows :=
    fun e he => (Collage.spans hvalid hrows (Collage.item_of_order he)).2
  split at hresult
  · rename_i hnone
    subst hresult
    refine ⟨nofun, fun _ => .inr ?_⟩
    obtain ⟨placed, ⟨rest, hrest⟩, hfirst, p, hp, hpage⟩ := Packed.start.run_refused hsides hnone
    refine ⟨placed, rest, hfirst, ?_, ?_, p, hp, by omega⟩
    · rw [hrest]
      exact node.order_perm
    · rw [hrest]
      exact node.order_pairwise
  · rename_i pages hsome
    obtain ⟨placed, hplaced, hpacked⟩ := Packed.start.run hsides hsome
    rw [List.nil_append] at hpacked
    split at hresult
    · subst hresult
      exact ⟨nofun, nofun⟩
    split at hresult
    · subst hresult
      exact ⟨nofun, nofun⟩
    subst hresult
    refine ⟨fun result h => ?_, nofun⟩
    cases h
    have hside : ∀ p ∈ placed, 0 < p.side ∧ (p.side : ℤ) = p.item.span := by
      intro p hp
      have hitem : p.item ∈ node.items := Collage.item_of_order (hplaced ▸ List.mem_map_of_mem (f := Placed.entry) hp)
      refine ⟨(Collage.spans hvalid hrows hitem).1, Int.toNat_of_nonneg ?_⟩
      exact le_trans zero_le_one (hspan p.item hitem).1
    have hlength : (node.finish pages).length = pages.length := by simp [Collage.finish]
    refine ⟨placed, ⟨?_, ?_, hpacked.firstFit, ?_, ?_, ?_, ?_⟩⟩
    · rw [hplaced]
      exact node.order_perm
    · rw [hplaced]
      exact node.order_pairwise
    · intro p hp
      have hpaged := hpacked.held.paged p hp
      omega
    · intro i page hpage
      exact (finish_exact hvalid hpacked hside hpage).2
    · have hcount := hpacked.count
      omega
    · intro page hpage
      obtain ⟨i, hi, rfl⟩ := List.getElem_of_mem hpage
      exact (finish_exact hvalid hpacked hside (List.getElem?_eq_getElem hi)).1

def sampleCollage : Collage :=
  { items := [⟨"a", 1, .missing⟩, ⟨"b", 2, .asset 7 100⟩, ⟨"c", 1, .resource⟩], columns := 8, cellWidth := 50,
    cellHeight := 50, maxHeight := 150, maxPages := 2, fit := "cover" }

def samplePages : List CollagePage :=
  [{ index := 1, count := 1, width := 400, height := 100, totalItems := 3,
     tiles := [⟨⟨"b", 2, .asset 7 100⟩, ⟨0, 0, 100, 100⟩, 2⟩, ⟨⟨"a", 1, .missing⟩, ⟨100, 0, 150, 50⟩, 1⟩,
       ⟨⟨"c", 1, .resource⟩, ⟨150, 0, 200, 50⟩, 3⟩] }]

def samplePlan : {pages : List CollagePage // (planDense sampleCollage none).toOption = some pages} :=
  ⟨samplePages, by decide +kernel⟩

theorem planDense_exact_sample : ∃ placed, Exact sampleCollage none samplePages placed := by
  apply (planDense_exact sampleCollage none).1
  have h : (planDense sampleCollage none).toOption = some samplePages := samplePlan.property
  revert h
  cases planDense sampleCollage none with
  | error e => exact nofun
  | ok pages =>
    intro h
    rw [Option.some.inj h]

end Plan

end GameLink.Presentation.Dense

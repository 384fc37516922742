import Highlighting.Task
import Highlighting.Token

/-!
# Categories of characters

Scoring and rendering work on the characters of a source. A cell holds the category of one
character, or nothing if the character has none. Marked spans are laid over the cells in order: a
later span covers an earlier one, a span that covers nothing or begins behind the end is passed
over, and what lies behind the end is cut off.

Filling cells can go wrong in two ways: a text without characters has no last cell to cut a span off
at, and a slice of cells may reach past the end. `Cells.project?` has no result then. The spans that
are passed over are those for which this would happen, so it always has one, and `Cells.project` is
that result.

## Main definitions

* `Cells`, `Cells.get?`
* `Cells.Slice`, `Cells.paint?`: filling cells that have to be there
* `Cells.project`: the cells that marked spans give to a source of some length
* `Cells.coarsen`: the cells as a task sees them
-/

namespace Highlighting

/-- The categories of the characters of a text. -/
structure Cells where
  /-- The category of each character that has one. -/
  cells : Array (Option Category)
  deriving DecidableEq, Repr, Inhabited

namespace Cells

/-- The category of the character at an offset; none past the end. -/
def get? (x : Cells) (n : Nat) : Option Category :=
  x.cells[n]?.join

/-- The number of cells. -/
def size (x : Cells) : Nat :=
  x.cells.size

/-- Cells without categories. -/
def blank (length : Nat) : Cells :=
  ⟨Array.replicate length none⟩

/-! ### Filling -/

/-- The offset before another one; there is none before the first. -/
def before? : Nat → Option Nat
  | 0 => none
  | n + 1 => some n

/-- Cells of a text that lie next to each other. -/
structure Slice (x : Cells) where
  /-- The offset of the first cell. -/
  start : Nat
  /-- The number of cells. -/
  count : Nat
  /-- All of the cells are there. -/
  le_size : start + count ≤ x.size

/-- The cells from one offset to another, both included, if they are there. -/
def slice? (x : Cells) (start stop : Nat) : Option x.Slice :=
  if h : start ≤ stop + 1 ∧ stop < x.size then some ⟨start, stop + 1 - start, by omega⟩ else none

/-- Gives a category to `count` cells from `start` on. -/
def fill (category : Category) (start count : Nat) (cells : Array (Option Category))
    (h : start + count ≤ cells.size) : Array (Option Category) :=
  match count with
  | 0 => cells
  | count + 1 =>
    fill category (start + 1) count (cells.set start (some category)) (by simp; omega)

/-- Gives a category to the cells of a slice. -/
def Slice.fill {x : Cells} (slice : x.Slice) (category : Category) : Cells :=
  ⟨Cells.fill category slice.start slice.count x.cells slice.le_size⟩

/-- Lays a marked span over the cells of a text of some length. -/
def paint? (length : Nat) (x : Cells) (s : Span × Category) : Option Cells :=
  if s.1.isEmpty || s.1.start ≥ length then
    some x
  else do
    let last ← before? length
    let slice ← x.slice? s.1.start (min s.1.stop last)
    return slice.fill s.2

/-- The cells of a text of some length over which marked spans are laid in order, provided that only
cells are filled that are there. -/
def project? (spans : List (Span × Category)) (length : Nat) : Option Cells :=
  spans.foldlM (paint? length) (blank length)

/-! ### Filling succeeds -/

theorem size_fill (category : Category) (start count : Nat) (cells : Array (Option Category))
    (h : start + count ≤ cells.size) : (fill category start count cells h).size = cells.size := by
  fun_induction fill category start count cells h with
  | case1 => rfl
  | case2 start cells count h ih => rw [ih, Array.size_set]

/-- **A span can be laid over all the cells of a text**, and there are as many cells afterwards. -/
theorem exists_paint? {length : Nat} {x : Cells} (hx : x.size = length) (s : Span × Category) :
    ∃ y, paint? length x s = some y ∧ y.size = length := by
  unfold paint?
  split
  · exact ⟨x, rfl, hx⟩
  next hguard =>
  rw [Bool.or_eq_true, decide_eq_true_eq, Span.isEmpty, beq_iff_eq, Span.length] at hguard
  cases length with
  | zero => omega
  | succ last =>
    have hslice : s.1.start ≤ min s.1.stop last + 1 ∧ min s.1.stop last < x.size := by omega
    rw [before?, Option.bind_eq_bind, Option.bind_some, slice?, dif_pos hslice]
    exact ⟨_, rfl, (size_fill _ _ _ _ _).trans hx⟩

theorem exists_foldlM_paint? {length : Nat} {x : Cells} (hx : x.size = length)
    (spans : List (Span × Category)) : ∃ y, spans.foldlM (paint? length) x = some y := by
  induction spans generalizing x with
  | nil => exact ⟨x, rfl⟩
  | cons s spans ih =>
    obtain ⟨y, hy, hsize⟩ := exists_paint? hx s
    rw [List.foldlM_cons, hy]
    exact ih hsize

theorem isSome_project? (spans : List (Span × Category)) (length : Nat) :
    (project? spans length).isSome :=
  Option.isSome_iff_exists.mpr (exists_foldlM_paint? Array.size_replicate spans)

/-- The cells of a text of some length over which marked spans are laid in order. -/
def project (spans : List (Span × Category)) (length : Nat) : Cells :=
  (project? spans length).get (isSome_project? spans length)

/-- The cells as a task sees them. -/
def coarsen (task : Task) (x : Cells) : Cells :=
  ⟨x.cells.map (·.map task.coarsen)⟩

end Cells

end Highlighting

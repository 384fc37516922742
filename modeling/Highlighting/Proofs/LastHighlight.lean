import Mathlib.Data.List.Basic
import Highlighting.Highlight
import Highlighting.Proofs.Projection

/-!
# The highlight that shows

Highlights come from data files, and nothing is promised of their offsets: they may be negative, in
the wrong order, out of the source, and they may overlap as they like. Still the cells that they
give to a source are fixed by a rule that says nothing of loops, clipping or spans: a character
shows the last highlight in the list that marks it, where a highlight marks the offsets from the one
of its record to the other, provided that neither is negative.

`Cells.get?_project` is the part of this about spans that have been sorted out already, and
`Cells.project?_eq_some` says that filling their cells never goes past the end. Here the sorting out
is added (`Highlight.lastOver_spans`). Since categories do not decide which highlight shows, they
can be coarsened before or after.

## Main definitions

* `Highlight.Marks`: a highlight marks an offset
* `Highlight.coarsen`: a highlight as a task sees it

## Main results

* `Highlight.lastOver_spans`: the last span that covers an offset is that of the last highlight
* `Cells.coarsen_project`: spans may be coarsened before they are laid over the cells
* `project_shows_last_highlight`: all of this for every list of highlights
-/

namespace Highlighting

namespace Highlight

/-- The highlight marks an offset: its record has a place, and the offset lies in it. -/
def Marks (h : Highlight) (n : Nat) : Prop :=
  0 ≤ h.record.start ∧ 0 ≤ h.record.stop ∧ h.record.start ≤ h.record.stop ∧
    h.record.start ≤ n ∧ n ≤ h.record.stop

instance (h : Highlight) (n : Nat) : Decidable (h.Marks n) :=
  inferInstanceAs (Decidable (_ ∧ _ ∧ _ ∧ _ ∧ _))

/-- The highlight as a task sees it. -/
def coarsen (task : Task) (h : Highlight) : Highlight :=
  { h with category := task.coarsen h.category }

/-! ### From records to spans -/

theorem span?_eq_some_iff {r : TokenRecord} {s : Span} :
    r.span? = some s ↔ r.start = s.start ∧ r.stop = s.stop := by
  obtain ⟨start, stop⟩ := s
  unfold TokenRecord.span?
  split
  · next m n hstart hstop =>
    rw [hstart, hstop, Option.some.injEq, Span.mk.injEq]
    constructor
    · rintro ⟨rfl, rfl⟩
      exact ⟨rfl, rfl⟩
    · rintro ⟨hm, hn⟩
      exact ⟨Int.ofNat.inj hm, Int.ofNat.inj hn⟩
  · next hplace =>
    constructor
    · intro h
      contradiction
    · rintro ⟨hstart, hstop⟩
      exact absurd hstop (hplace start stop hstart)

theorem marks_iff {h : Highlight} {n : Nat} :
    h.Marks n ↔ h.record.span?.any fun s => s.Covers n := by
  cases hs : h.record.span? with
  | some s =>
    obtain ⟨hstart, hstop⟩ := span?_eq_some_iff.mp hs
    rw [Marks, hstart, hstop, Option.any_some, decide_eq_true_eq, Span.Covers]
    omega
  | none =>
    simp only [Option.any_none, Bool.false_eq_true, iff_false]
    rintro ⟨hstart, hstop, -⟩
    obtain ⟨start, hstart⟩ := Int.eq_ofNat_of_zero_le hstart
    obtain ⟨stop, hstop⟩ := Int.eq_ofNat_of_zero_le hstop
    have hplace : h.record.span? = some ⟨start, stop⟩ := span?_eq_some_iff.mpr ⟨hstart, hstop⟩
    rw [hs] at hplace
    contradiction

/-- **The last span that covers an offset is that of the last highlight that marks it.** -/
theorem lastOver_spans (hs : List Highlight) (n : Nat) :
    lastOver n (spans hs) = (hs.findRev? fun h => h.Marks n).map (·.category) := by
  have htest : (fun h : Highlight => (h.record.span?.map (·, h.category)).any fun s => s.1.Covers n)
      = fun h => decide (h.Marks n) := by
    funext h
    rw [Option.any_map, Bool.eq_iff_iff, decide_eq_true_eq, marks_iff]
  rw [lastOver, List.findRev?_eq_find?_reverse, List.findRev?_eq_find?_reverse, spans,
    ← List.filterMap_reverse, List.find?_filterMap, htest]
  cases hfind : hs.reverse.find? fun h => decide (h.Marks n) with
  | none => rfl
  | some h =>
    -- A highlight that marks an offset has a span.
    have hmarks : h.Marks n := by simpa using List.find?_some hfind
    obtain ⟨s, hspan, -⟩ := (Option.any_eq_true _ _).mp (marks_iff.mp hmarks)
    rw [Option.bind_some, hspan, Option.map_some, Option.map_some, Option.map_some]

theorem spans_map_coarsen (task : Task) (hs : List Highlight) :
    spans (hs.map (coarsen task)) = (spans hs).map fun s => (s.1, task.coarsen s.2) := by
  rw [spans, spans, List.filterMap_map, List.map_filterMap]
  refine List.filterMap_congr fun h _ => ?_
  simp [coarsen, Function.comp_def]

end Highlight

namespace Cells

/-- **Spans may be coarsened before they are laid over the cells.** -/
theorem coarsen_project (task : Task) (spans : List (Span × Category)) (length : Nat) :
    (project spans length).coarsen task
      = project (spans.map fun s => (s.1, task.coarsen s.2)) length := by
  rw [← toList_inj, coarsen, Array.toList_map, toList_cells_project, toList_cells_project,
    List.map_map]
  exact List.map_congr_left fun n _ => (lastOver_map n task.coarsen spans).symm

end Cells

/-- **A character shows the last highlight that marks it.** Whatever the offsets of the highlights
are, laying them over the cells of a source never asks for the last cell of an empty source or for
cells past the end. It gives one cell for each character, and the cell holds the category of the
last highlight in the list that marks the offset, or none if no highlight does. It makes no
difference whether categories are coarsened to a task before or afterwards. -/
theorem project_shows_last_highlight (hs : List Highlight) (source : String) :
    let shown := Cells.project (Highlight.spans hs) source.length
    Cells.project? (Highlight.spans hs) source.length = some shown ∧
      shown.size = source.length ∧
      shown.cells.toList = (List.range source.length).map (fun n =>
        (hs.findRev? fun h => h.Marks n).map (·.category)) ∧
      ∀ task : Task, shown.coarsen task
        = Cells.project (Highlight.spans (hs.map (Highlight.coarsen task))) source.length := by
  intro shown
  refine ⟨Cells.project?_eq_some _ _, Cells.size_project _ _, ?_, fun task => ?_⟩
  · rw [Cells.toList_cells_project]
    exact List.map_congr_left fun n _ => Highlight.lastOver_spans hs n
  · rw [Highlight.spans_map_coarsen]
    exact Cells.coarsen_project task _ _

-- Of four highlights, one is empty, one has no place, one is cut off and one lies behind the end.
example :
    Cells.project (Highlight.spans [⟨⟨3, 2, "", 1, none, ""⟩, .keyword⟩,
        ⟨⟨-1, -1, "<EOF>", 65535, none, ""⟩, .comment⟩, ⟨⟨2, 9, "xyz", 1, none, ""⟩, .literal⟩,
        ⟨⟨7, 8, "zz", 1, none, ""⟩, .comment⟩]) 4
      = ⟨#[none, none, some .literal, some .literal]⟩ := by
  decide

end Highlighting

import Mathlib.Algebra.Order.BigOperators.Group.List
import Mathlib.Algebra.Order.Field.Basic
import Mathlib.Tactic.Linarith
import Highlighting.Proofs.Deficit
import Highlighting.Proofs.LastHighlight

/-!
# Scores at different granularities

One prediction is scored for several tasks, and the scores are read side by side. That makes sense
if the tasks form a tower: what a coarser task sees of a category has to be a function of what a
finer one sees, `Task.coarsen_coarsen`. Then a cell that agrees to the finer task agrees to the
coarser one too, whatever the two categories are, and a prediction can be stored as a fine task sees
it and still be scored for every coarser one.

Everything else that goes into a score is the same for all tasks. In particular it does not matter
how the tokens of the reference lie: each of them is counted on its own, so they may overlap, reach
past the end or have no place. Nor does a cell without a category matter, since it agrees with
nothing at any granularity.

## Main results

* `Score.agreeing_le`: cells that agree to a task agree to a coarser one
* `Score.overChars_coarsen_predicted`, `Score.overChars_coarsen_reference`: either side may be
  coarsened to a finer task first
* `coarser_tasks_match_more`: the tallies of one prediction for all tasks
-/

namespace Highlighting

namespace Score

variable {coarse fine : Task}

/-- **Cells that agree to a task agree to a coarser one.** -/
theorem agreeing_le (h : coarse.rank ≤ fine.rank) (predicted : Cells) (category : Category)
    (span : Span) :
    agreeing predicted fine (fine.coarsen category) span
      ≤ agreeing predicted coarse (coarse.coarsen category) span := by
  refine Array.countP_mono_left fun cell _ hagree => ?_
  cases cell with
  | none => contradiction
  | some c =>
    have hfine : fine.coarsen c = fine.coarsen category := by simpa using hagree
    have hcoarse : coarse.coarsen c = coarse.coarsen category := by
      rw [← Task.coarsen_coarsen h c, hfine, Task.coarsen_coarsen h]
    simp [hcoarse]

theorem agreeing_coarsen (h : coarse.rank ≤ fine.rank) (predicted : Cells) (target : Category)
    (span : Span) :
    agreeing (predicted.coarsen fine) coarse target span
      = agreeing predicted coarse target span := by
  rw [agreeing, agreeing, Cells.coarsen, ← Array.map_extract, Array.countP_map]
  congr 1
  funext cell
  cases cell with
  | none => rfl
  | some c => simp [Task.coarsen_coarsen h]

/-- The prediction may be coarsened to a finer task first. -/
theorem overChars_coarsen_predicted (h : coarse.rank ≤ fine.rank) (predicted : Cells)
    (reference : List Highlight) (source : String) :
    overChars (predicted.coarsen fine) reference source coarse
      = overChars predicted reference source coarse := by
  simp only [overChars, agreeing_coarsen h]

/-- So may the reference. -/
theorem overChars_coarsen_reference (h : coarse.rank ≤ fine.rank) (predicted : Cells)
    (reference : List Highlight) (source : String) :
    overChars predicted (reference.map (Highlight.coarsen fine)) source coarse
      = overChars predicted reference source coarse := by
  have hlength : lengthOf (reference.map (Highlight.coarsen fine)) source
      = lengthOf reference source := by
    rw [lengthOf, lengthOf, List.isEmpty_map]
  simp only [overChars, hlength, Highlight.spans_map_coarsen, List.foldl_map,
    Task.coarsen_coarsen h]

end Score

/-- **A coarser task matches more.** A prediction is tallied against a reference for every task, as
long as there is something to score. What is covered and how many characters there are does not
depend on the task, and of the four tasks each one matches at least what the next finer one does; so
the exact score does not fall either. If the prediction, the reference or both are first coarsened
to some task, the tallies for that task and for every coarser one stay as they are. -/
theorem coarser_tasks_match_more (predicted : Cells) {reference : List Highlight} {source : String}
    (hreference : reference ≠ []) (hsource : source ≠ "") :
    ∃ (covered : Nat) (matched : Task → Nat),
      let score (task : Task) : ℚ :=
        ((matched task : ℚ) + source.length - covered) / source.length
      (∀ task, Score.overChars predicted reference source task
        = .ok ⟨matched task, covered, source.length⟩) ∧
      (matched .full ≤ matched .identifiers ∧ matched .identifiers ≤ matched .declarators ∧
        matched .declarators ≤ matched .lexical) ∧
      (score .full ≤ score .identifiers ∧ score .identifiers ≤ score .declarators ∧
        score .declarators ≤ score .lexical) ∧
      ∀ coarse fine : Task, coarse.rank ≤ fine.rank →
        let tally := Score.overChars predicted reference source coarse
        Score.overChars (predicted.coarsen fine) reference source coarse = tally ∧
          Score.overChars predicted (reference.map (Highlight.coarsen fine)) source coarse = tally ∧
          Score.overChars (predicted.coarsen fine) (reference.map (Highlight.coarsen fine)) source
            coarse = tally := by
  have htally := Score.overChars_eq hreference hsource predicted
  set covered := ((Highlight.spans reference).map fun s => s.1.length).sum
  set matched : Task → Nat := fun task => ((Highlight.spans reference).map fun s =>
    Score.agreeing predicted task (task.coarsen s.2) s.1).sum
  have hmatched : ∀ coarse fine : Task, coarse.rank ≤ fine.rank →
      matched fine ≤ matched coarse := by
    intro coarse fine h
    exact List.sum_le_sum fun s _ => Score.agreeing_le h predicted s.2 s.1
  have hscore : ∀ coarse fine : Task, coarse.rank ≤ fine.rank →
      ((matched fine : ℚ) + source.length - covered) / source.length
        ≤ (matched coarse + source.length - covered) / source.length := by
    intro coarse fine h
    have hle : (matched fine : ℚ) ≤ matched coarse := Nat.cast_le.mpr (hmatched coarse fine h)
    exact div_le_div_of_nonneg_right (by linarith) (Nat.cast_nonneg _)
  refine ⟨covered, matched, htally, ?_, ?_, fun coarse fine h => ⟨?_, ?_, ?_⟩⟩
  · exact ⟨hmatched _ _ (by decide), hmatched _ _ (by decide), hmatched _ _ (by decide)⟩
  · exact ⟨hscore _ _ (by decide), hscore _ _ (by decide), hscore _ _ (by decide)⟩
  · exact Score.overChars_coarsen_predicted h predicted reference source
  · exact Score.overChars_coarsen_reference h predicted reference source
  · rw [Score.overChars_coarsen_predicted h, Score.overChars_coarsen_reference h]

/-- The theorem at a reference whose tokens overlap, with one that has no place and one that reaches
past the end. The prediction is wrong about a type and a field in ways that only finer tasks notice,
and says nothing of the last character. -/
theorem coarser_tasks_match_more_overlap :
    let reference : List Highlight :=
      [⟨⟨0, 2, "int", 1, none, ""⟩, .typeIdentifier⟩, ⟨⟨2, 3, "tx", 2, none, ""⟩, .fieldIdentifier⟩,
        ⟨⟨-1, -1, "<EOF>", 65535, none, ""⟩, .any⟩, ⟨⟨4, 9, ";", 3, none, ""⟩, .keyword⟩]
    let predicted : Cells := ⟨#[some .typeIdentifier, some .functionIdentifier,
      some .fieldIdentifier, some .variableDeclarator, none]⟩
    reference ≠ [] ∧ "intx;" ≠ "" ∧
      Task.all.map (Score.overChars predicted reference "intx;")
        = [.ok ⟨5, 11, 5⟩, .ok ⟨4, 11, 5⟩, .ok ⟨2, 11, 5⟩, .ok ⟨2, 11, 5⟩] ∧
      (∃ (covered : Nat) (matched : Task → Nat),
        (∀ task, Score.overChars predicted reference "intx;" task
          = .ok ⟨matched task, covered, 5⟩) ∧
        matched .full ≤ matched .identifiers ∧ matched .identifiers ≤ matched .declarators ∧
          matched .declarators ≤ matched .lexical) ∧
      Score.overChars (predicted.coarsen .identifiers)
          (reference.map (Highlight.coarsen .identifiers)) "intx;" .declarators
        = Score.overChars predicted reference "intx;" .declarators := by
  intro reference predicted
  have hreference : reference ≠ [] := List.cons_ne_nil _ _
  obtain ⟨covered, matched, htally, hmatched, -, hcoarsen⟩ :=
    coarser_tasks_match_more predicted hreference (by decide : "intx;" ≠ "")
  exact ⟨hreference, by decide, rfl, ⟨covered, matched, htally, hmatched⟩,
    (hcoarsen .declarators .identifiers (by decide)).2.2⟩

end Highlighting

import Highlighting.Cells
import Highlighting.Highlight

/-!
# Scores

A prediction is scored by the characters of the source. A character that a reference token covers
is right if the prediction agrees with the reference at the granularity of the task; a character
that no reference token covers counts as right. So blanks neither help nor harm a prediction, and
the score of a prediction that is wrong everywhere is the share of the uncovered characters.

## Main definitions

* `Score.Tally`: the counts behind a score, and `Score.Tally.ratio`
* `Score.overChars`: the tally of a prediction for each character
* `Score.overTokens`: the tally of a prediction for each reference token
-/

namespace Highlighting

namespace Score

/-- Why a prediction cannot be scored. -/
inductive Error where
  /-- The source has no characters. -/
  | emptySource
  /-- The reference has no tokens. -/
  | emptyReference
  /-- There are not as many predictions as reference tokens. -/
  | lengthMismatch (predicted reference : Nat)
  deriving DecidableEq, Repr, Inhabited

/-- The wording of an error. -/
def Error.message : Error → String
  | emptySource => "source is empty"
  | emptyReference => "reference has no tokens"
  | lengthMismatch predicted reference =>
    s!"{predicted} predictions for {reference} reference tokens"

/-- The counts behind a score. -/
structure Tally where
  /-- Characters of reference tokens on which the prediction agrees. -/
  matched : Nat
  /-- Characters of reference tokens. They may be more than there are in the source if tokens
  overlap or reach past its end. -/
  covered : Nat
  /-- Characters of the source. -/
  chars : Nat
  deriving DecidableEq, Repr, Inhabited

/-- The share of the characters that are right. -/
def Tally.ratio (t : Tally) : Float :=
  (Float.ofNat t.matched + Float.ofNat t.chars - Float.ofNat t.covered) / Float.ofNat t.chars

/-- Counts another token. -/
def Tally.add (t : Tally) (covered matched : Nat) : Tally :=
  { t with covered := t.covered + covered, matched := t.matched + matched }

/-- The number of characters of the source, if there is something to score. -/
def lengthOf (reference : List Highlight) (source : String) : Except Error Nat :=
  if source.isEmpty then .error .emptySource
  else if reference.isEmpty then .error .emptyReference
  else .ok source.length

/-- The number of cells of a span whose category is `target` to a task. -/
def agreeing (predicted : Cells) (task : Task) (target : Category) (span : Span) : Nat :=
  (predicted.cells.extract span.start (span.stop + 1)).countP fun cell =>
    cell.map task.coarsen == some target

/-- The tally of a prediction for each character of the source. Both sides are coarsened to the
task. A cell without a category agrees with nothing, and so does a missing one. -/
def overChars (predicted : Cells) (reference : List Highlight) (source : String) (task : Task) :
    Except Error Tally := do
  let chars ← lengthOf reference source
  .ok <| (Highlight.spans reference).foldl
    (fun tally (span, category) =>
      tally.add span.length (agreeing predicted task (task.coarsen category) span))
    ⟨0, 0, chars⟩

/-- The tally of a prediction for each reference token. A prediction is expected at the granularity
of the task; only the reference is coarsened. A token counts with the length of its text. -/
def overTokens (predicted : List Category) (reference : List Highlight) (source : String)
    (task : Task) : Except Error Tally := do
  let chars ← lengthOf reference source
  if predicted.length ≠ reference.length then
    .error (.lengthMismatch predicted.length reference.length)
  .ok <| (predicted.zip reference).foldl
    (fun tally (category, h) =>
      let length := h.record.length
      tally.add length (if category = task.coarsen h.category then length else 0))
    ⟨0, 0, chars⟩

end Score

end Highlighting

import Highlighting.Predictor
import Highlighting.Task.Json

/-!
# Evaluation

A predictor is evaluated on a batch of oracle records, one after the other. A failure belongs to
the record on which it happens: it is reported there, it ends nothing, and it is no score of zero.
Records with nothing to score may be left out; how many were is part of the report. While a batch
is under way, the mean score so far is noted at regular intervals.

## Main definitions

* `Evaluation.Outcome`, `Evaluation.Report`
* `Evaluation.Report.mean`: the mean score of the records that have one
* `Evaluation.Batch`: a batch that is under way, with its notes of `Evaluation.Progress`
* `Evaluation.Evaluator.run`: the report on a batch
* `Evaluation.Report.merge`: the report on two batches
-/

namespace Highlighting

namespace Evaluation

/-- How a record fared. -/
structure Outcome where
  /-- The name of the record. -/
  id : String
  /-- Whether the record is a snippet rather than a file. -/
  isSnippet : Bool
  /-- The tally of the record, or why there is none. -/
  result : Except Predictor.Error Score.Tally

/-- The score of a record that has one. -/
def Outcome.score? (o : Outcome) : Option Float :=
  match o.result with
  | .ok tally => some tally.ratio
  | .error _ => none

/-- How a batch of records fared. -/
structure Report where
  /-- The name of the predictor. -/
  predictor : String
  /-- The task. -/
  task : Task
  /-- The outcomes in the order of the records. -/
  outcomes : Array Outcome
  /-- The number of records that were left out. -/
  skipped : Nat

namespace Report

/-- The scores of the records that have one. -/
def scores (r : Report) : Array Float :=
  r.outcomes.filterMap Outcome.score?

/-- The number of records with a score. -/
def scored (r : Report) : Nat :=
  r.scores.size

/-- The number of records that failed. -/
def failed (r : Report) : Nat :=
  r.outcomes.size - r.scored

/-- The mean score of the records that have one. -/
def mean (r : Report) : Option Float :=
  if r.scores.isEmpty then none
  else some (r.scores.foldl (· + ·) 0 / Float.ofNat r.scored)

/-- The report on this batch and another one after it. -/
def merge (r s : Report) : Report :=
  { r with outcomes := r.outcomes ++ s.outcomes, skipped := r.skipped + s.skipped }

end Report

/-! ### Batches -/

/-- How far a batch has come. -/
structure Progress where
  /-- The number of outcomes. -/
  done : Nat
  /-- The mean score of the records that have one. -/
  mean : Float

/-- A batch that is under way. -/
structure Batch where
  /-- The report so far. -/
  report : Report
  /-- The predictor, as the records so far have left it. -/
  predictor : Predictor
  /-- The sum of the scores so far. -/
  total : Float := 0
  /-- The number of scores so far. -/
  scored : Nat := 0
  /-- The progress that has been noted. -/
  notes : Array Progress := #[]

namespace Batch

/-- Counts a record that is left out. -/
def skip (b : Batch) : Batch :=
  { b with report := { b.report with skipped := b.report.skipped + 1 } }

/-- Adds an outcome to the report, and its score, if there is one, to the sum. -/
def add (b : Batch) (o : Outcome) : Batch :=
  let b := { b with report := { b.report with outcomes := b.report.outcomes.push o } }
  match o.score? with
  | some score => { b with total := b.total + score, scored := b.scored + 1 }
  | none => b

/-- Notes the progress after each full interval, once there is a score. -/
def note (b : Batch) (interval : Nat) : Batch :=
  let done := b.report.outcomes.size
  if interval > 0 && done % interval == 0 && b.scored > 0 then
    { b with notes := b.notes.push ⟨done, b.total / Float.ofNat b.scored⟩ }
  else
    b

end Batch

/-- How to evaluate. -/
structure Evaluator where
  /-- The task. -/
  task : Task
  /-- Whether records with nothing to score are left out rather than reported as failures. -/
  skipDegenerate : Bool := true
  /-- The number of outcomes after which progress is noted; zero for never. -/
  progressEvery : Nat := 100
  deriving DecidableEq, Repr, Inhabited

namespace Evaluator

/-- A batch before its first record. -/
def start (e : Evaluator) (predictor : Predictor) : Batch :=
  { report := ⟨predictor.name, e.task, #[], 0⟩, predictor }

/-- Goes on to the next record of a batch. -/
def step (e : Evaluator) (isSnippet : Bool) (b : Batch) (r : Oracle.Record) : Batch :=
  if e.skipDegenerate && r.isDegenerate then
    b.skip
  else
    let (result, predictor) := b.predictor.score r e.task
    ({ b with predictor }.add ⟨r.id, isSnippet, result⟩).note e.progressEvery

/-- The report on a batch of records, and the predictor that is left. -/
def run (e : Evaluator) (isSnippet : Bool) (predictor : Predictor) (records : List Oracle.Record) :
    Report × Predictor :=
  let b := records.foldl (e.step isSnippet) (e.start predictor)
  (b.report, b.predictor)

/-- The report on files and, if there are any, on snippets after them. -/
def runAll (e : Evaluator) (predictor : Predictor) (files : List Oracle.Record)
    (snippets : Option (List Oracle.Record)) : Report × Predictor :=
  let (report, predictor) := e.run false predictor files
  match snippets with
  | none => (report, predictor)
  | some snippets =>
    let (other, predictor) := e.run true predictor snippets
    (report.merge other, predictor)

end Evaluator

/-! ### Reports as JSON -/

/-- An outcome as an object. -/
def Outcome.toJson (o : Outcome) : Json :=
  let common := [("fileId", .str o.id), ("isSnippet", .bool o.isSnippet)]
  match o.result with
  | .ok tally => .obj (("acc", .float tally.ratio) :: common)
  | .error e => .obj (("error", .str e.message) :: common)

namespace Report

/-- The figures of a report. -/
def summaryJson (r : Report) : Json :=
  .obj
    [("failed", .int r.failed), ("mean", r.mean.elim .null .float),
      ("predictor", .str r.predictor), ("scored", .int r.scored), ("skipped", .int r.skipped),
      ("task", r.task.toJson)]

/-- A report as an object. -/
def toJson (r : Report) : Json :=
  .obj [("files", .arr (r.outcomes.toList.map Outcome.toJson)), ("summary", r.summaryJson)]

end Report

end Evaluation

end Highlighting

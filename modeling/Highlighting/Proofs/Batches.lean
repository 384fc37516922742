import Highlighting.Evaluation
import Highlighting.Proofs.Engine

/-!
# Batches are sums of their records

A highlighter is carried from record to record of a batch together with its engine, and records
may fail between scored ones: the source may be empty or have no parse, an answer may be missing,
malformed or of the wrong length. None of this reaches another record. What a predictor answers
depends on its *fresh* form alone, the form that it had before its first record, and scoring a
record keeps the fresh form.

A step of a batch therefore merges the report on a single record into the report so far, and by
induction a run merges the reports on all of them. That report is `Evaluator.recordwise`, in which
no predictor is carried along.

## Main definitions

* `Highlighter.fresh`, `Predictor.fresh`: what is left when the history is forgotten
* `Evaluator.recordwise`: the report on records that are scored one by one, by one predictor

## Main results

* `Predictor.score_fresh`, `Predictor.fresh_score`: scores do not depend on the history
* `Evaluator.recordwise_append`: records give reports that merge
* `Evaluator.run_eq_recordwise`: a batch is evaluated record by record
-/

namespace Highlighting

/-! ### Fresh predictors -/

namespace Highlighter

variable (h : Highlighter)

/-- The highlighter with a new engine. -/
def fresh : Highlighter :=
  { h with engine := { catalog := h.engine.catalog } }

/-- Classifying begins by emptying the buffer of the engine and leaves it empty. -/
theorem classify_eq_fresh (p : Parse) : h.classify p = ((h.fresh.classify p).1, h.fresh) := by
  have hwalk (e : Engine) : e.reset.walk p.root = ((e.walk p.root).1, e.reset) := by
    rw [Engine.walk_eq, Engine.walk_eq]
    rfl
  simp only [classify, hwalk]
  rfl

theorem classifySource_fresh (parser : Parser) (source : String) :
    (h.fresh.classifySource parser source).1 = (h.classifySource parser source).1 := by
  unfold classifySource
  split
  · rfl
  · cases parser source with
    | error reason => rfl
    | ok p =>
      show Except.ok (h.fresh.classify p).1 = Except.ok (h.classify p).1
      rw [h.classify_eq_fresh]

/-- Whether a source has a parse or not, the fresh form stays. -/
theorem fresh_classifySource (parser : Parser) (source : String) :
    (h.classifySource parser source).2.fresh = h.fresh := by
  unfold classifySource
  split
  · rfl
  · cases parser source with
    | error reason => rfl
    | ok p =>
      show (h.classify p).2.fresh = h.fresh
      rw [h.classify_eq_fresh]
      rfl

end Highlighter

namespace Predictor

/-- The predictor as it was before its first record. Stored answers have no history. -/
def fresh : Predictor → Predictor
  | engine highlighter parser => engine highlighter.fresh parser
  | model answers => model answers
  | baseline payloads => baseline payloads

variable (p : Predictor) (r : Oracle.Record) (task : Task)

@[simp] theorem name_fresh : p.fresh.name = p.name := by
  cases p <;> rfl

theorem fresh_fresh : p.fresh.fresh = p.fresh := by
  cases p <;> rfl

/-- The two parts of the answer of an engine. -/
theorem score_engine (h : Highlighter) (parser : Parser) :
    (engine h parser).score r task =
      (match (h.classifySource parser r.source).1 with
        | .error e => .error (.highlighting e)
        | .ok highlights => scoreSpans (Highlight.spans highlights) r task,
      engine (h.classifySource parser r.source).2 parser) := by
  unfold score
  dsimp only
  rcases h.classifySource parser r.source with ⟨_ | _, _⟩ <;> rfl

theorem score_model_snd (answers : Std.HashMap String (List Category)) :
    ((model answers).score r task).2 = model answers := by
  unfold score
  dsimp only
  split <;> rfl

theorem score_baseline_snd (payloads : Std.HashMap String String) :
    ((baseline payloads).score r task).2 = baseline payloads := by
  unfold score
  dsimp only
  split
  · rfl
  · split <;> rfl

/-- A fresh predictor gives the same answer. -/
theorem score_fresh : (p.fresh.score r task).1 = (p.score r task).1 := by
  cases p with
  | engine h parser => simp only [fresh, score_engine, h.classifySource_fresh]
  | model answers => rfl
  | baseline payloads => rfl

/-- Scoring a record, whether it fails or not, leaves no trace in the fresh form. -/
theorem fresh_score : (p.score r task).2.fresh = p.fresh := by
  cases p with
  | engine h parser => simp only [fresh, score_engine, h.fresh_classifySource]
  | model answers => rw [score_model_snd]
  | baseline payloads => rw [score_baseline_snd]

end Predictor

namespace Evaluation

/-! ### One step -/

namespace Report

theorem merge_assoc (r s t : Report) : (r.merge s).merge t = r.merge (s.merge t) := by
  simp only [merge, Array.append_assoc, Nat.add_assoc]

/-- The mean is computed from the scores. -/
theorem mean_congr {r s : Report} (h : r.scores = s.scores) : r.mean = s.mean := by
  simp only [mean, scored, h]

theorem scored_le (r : Report) : r.scored ≤ r.outcomes.size :=
  Array.size_filterMap_le

end Report

namespace Batch

variable (b : Batch) (o : Outcome) (interval : Nat)

@[simp] theorem report_add :
    (b.add o).report = { b.report with outcomes := b.report.outcomes.push o } := by
  unfold add
  split <;> rfl

@[simp] theorem predictor_add : (b.add o).predictor = b.predictor := by
  unfold add
  split <;> rfl

/-- Notes are beside the report. -/
@[simp] theorem report_note : (b.note interval).report = b.report := by
  unfold note
  dsimp only
  split <;> rfl

@[simp] theorem predictor_note : (b.note interval).predictor = b.predictor := by
  unfold note
  dsimp only
  split <;> rfl

end Batch

namespace Evaluator

variable (e : Evaluator) (isSnippet : Bool) (p : Predictor)

/-- Whether a record is left out. -/
def skips (r : Oracle.Record) : Bool :=
  e.skipDegenerate && r.isDegenerate

/-- How a record fares on its own. -/
def outcome (r : Oracle.Record) : Outcome :=
  ⟨r.id, isSnippet, (p.score r e.task).1⟩

/-- The report on records that are scored one by one, each of them by the same predictor. -/
def recordwise (rs : List Oracle.Record) : Report :=
  { predictor := p.name
    task := e.task
    outcomes := ((rs.filter fun r => !e.skips r).map (e.outcome isSnippet p)).toArray
    skipped := rs.countP e.skips }

theorem recordwise_append (rs rs' : List Oracle.Record) :
    e.recordwise isSnippet p (rs ++ rs') =
      (e.recordwise isSnippet p rs).merge (e.recordwise isSnippet p rs') := by
  simp only [recordwise, Report.merge, List.filter_append, List.map_append, List.countP_append,
    List.append_toArray]

theorem step_eq (b : Batch) (r : Oracle.Record) :
    e.step isSnippet b r =
      if e.skips r then b.skip
      else
        ({ b with predictor := (b.predictor.score r e.task).2 }.add
          (e.outcome isSnippet b.predictor r)).note e.progressEvery := rfl

/-- A step merges the report on its record, as a fresh predictor would give it. -/
theorem report_step (b : Batch) (r : Oracle.Record) :
    (e.step isSnippet b r).report =
      b.report.merge (e.recordwise isSnippet b.predictor.fresh [r]) := by
  rw [step_eq]
  by_cases hskip : e.skips r = true
  · rw [if_pos hskip]
    simp [recordwise, Report.merge, Batch.skip, hskip]
  · rw [if_neg hskip]
    simp [recordwise, Report.merge, outcome, Predictor.score_fresh, hskip]

theorem fresh_predictor_step (b : Batch) (r : Oracle.Record) :
    (e.step isSnippet b r).predictor.fresh = b.predictor.fresh := by
  rw [step_eq]
  split
  · rfl
  · simp only [Batch.predictor_note, Batch.predictor_add, Predictor.fresh_score]

/-! ### A run -/

theorem fresh_predictor_foldl (rs : List Oracle.Record) (b : Batch) :
    (rs.foldl (e.step isSnippet) b).predictor.fresh = b.predictor.fresh := by
  induction rs generalizing b with
  | nil => rfl
  | cons r rs ih => rw [List.foldl_cons, ih, fresh_predictor_step]

/-- A run merges the reports on its records. The fresh form of the predictor is what the steps
keep, so all of the reports are by one predictor. -/
theorem report_foldl (rs : List Oracle.Record) (b : Batch) :
    (rs.foldl (e.step isSnippet) b).report =
      b.report.merge (e.recordwise isSnippet b.predictor.fresh rs) := by
  induction rs generalizing b with
  | nil => simp [recordwise, Report.merge]
  | cons r rs ih =>
    rw [List.foldl_cons, ih, report_step, fresh_predictor_step, Report.merge_assoc,
      ← recordwise_append, List.singleton_append]

theorem run_eq_recordwise (rs : List Oracle.Record) :
    (e.run isSnippet p rs).1 = e.recordwise isSnippet p.fresh rs := by
  have hrun := e.report_foldl isSnippet rs (e.start p)
  simpa [run, start, Report.merge, recordwise] using hrun

theorem fresh_run (rs : List Oracle.Record) : (e.run isSnippet p rs).2.fresh = p.fresh :=
  e.fresh_predictor_foldl isSnippet rs (e.start p)

/-! ### Figures of a report -/

theorem accounts_recordwise (rs : List Oracle.Record) :
    let report := e.recordwise isSnippet p rs
    report.scored + report.failed + report.skipped = rs.length := by
  intro report
  have hle := report.scored_le
  have hsize : report.outcomes.size = rs.countP fun r => !e.skips r := by
    simp [report, recordwise, List.countP_eq_length_filter]
  have hlength := List.length_eq_countP_add_countP e.skips (l := rs)
  have hskipped : report.skipped = rs.countP e.skips := rfl
  simp only [Bool.not_eq_true, Bool.decide_eq_false] at hlength
  unfold Report.failed
  omega

/-- The score of a record that is not left out and does not fail. -/
def score? (r : Oracle.Record) : Option Float :=
  if e.skips r then none else (e.outcome isSnippet p r).score?

theorem scores_recordwise (rs : List Oracle.Record) :
    (e.recordwise isSnippet p rs).scores = (rs.filterMap (e.score? isSnippet p)).toArray := by
  have hscore : e.score? isSnippet p =
      fun r => if !e.skips r then (e.outcome isSnippet p r).score? else none := by
    funext r
    cases hskip : e.skips r <;> simp [score?, hskip]
  rw [hscore, ← List.filterMap_filter]
  simp [Report.scores, recordwise, List.filterMap_map]

/-- Whether a record gets a score. -/
def answers (r : Oracle.Record) : Bool :=
  !e.skips r && (p.score r e.task).1.isOk

theorem answers_eq_isSome (r : Oracle.Record) :
    e.answers p r = (e.score? isSnippet p r).isSome := by
  unfold answers score? outcome Outcome.score?
  cases e.skips r <;> rcases (p.score r e.task).1 with _ | _ <;> rfl

/-- Records without a score can be removed. -/
theorem scores_recordwise_filter (rs : List Oracle.Record) :
    (e.recordwise isSnippet p (rs.filter (e.answers p))).scores =
      (e.recordwise isSnippet p rs).scores := by
  rw [scores_recordwise, scores_recordwise, List.filterMap_filter]
  congr 2
  funext r
  rw [e.answers_eq_isSome isSnippet]
  cases e.score? isSnippet p r <;> rfl

end Evaluator

/-- **Batches are sums of their records.** The report on two batches in one run merges the reports
on each of them, whether the predictor of the second run is the one that the first has left or a
fresh one. Every record that is not left out fares as it does with a fresh predictor and no other
record. Each record is scored, failed or left out, and the mean is that of the batch without the
records that failed or were left out. -/
theorem run_is_recordwise (e : Evaluator) (isSnippet : Bool) (p : Predictor)
    (a b : List Oracle.Record) :
    let first := e.run isSnippet p a
    let whole := (e.run isSnippet p (a ++ b)).1
    whole = first.1.merge (e.run isSnippet first.2 b).1 ∧
    whole = first.1.merge (e.run isSnippet p.fresh b).1 ∧
    whole.outcomes.toList = ((a ++ b).filter fun r => !e.skips r).map (fun r =>
      ⟨r.id, isSnippet, (p.fresh.score r e.task).1⟩) ∧
    whole.scored + whole.failed + whole.skipped = (a ++ b).length ∧
    whole.mean = (e.run isSnippet p ((a ++ b).filter (e.answers p.fresh))).1.mean := by
  intro first whole
  have hfirst : first.1 = e.recordwise isSnippet p.fresh a := e.run_eq_recordwise isSnippet p a
  have hwhole : whole = e.recordwise isSnippet p.fresh (a ++ b) :=
    e.run_eq_recordwise isSnippet p (a ++ b)
  have hsecond (q : Predictor) (hq : q.fresh = p.fresh) :
      whole = first.1.merge (e.run isSnippet q b).1 := by
    rw [hwhole, hfirst, e.run_eq_recordwise, hq, e.recordwise_append]
  refine ⟨hsecond first.2 (e.fresh_run isSnippet p a), hsecond p.fresh p.fresh_fresh, ?_, ?_, ?_⟩
  · rw [hwhole]
    rfl
  · rw [hwhole]
    exact e.accounts_recordwise isSnippet p.fresh (a ++ b)
  · rw [hwhole, e.run_eq_recordwise]
    exact Report.mean_congr (e.scores_recordwise_filter isSnippet p.fresh (a ++ b)).symm

end Evaluation

end Highlighting

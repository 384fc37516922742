import Highlighting.Baseline
import Highlighting.Highlighter
import Highlighting.Oracle
import Highlighting.Score
import Std.Data.HashMap

/-!
# Predictors

A predictor answers an oracle record with a classification of its source, which is scored against
the reference of the record. There are three of them: the highlighter of this library, the stored
answers of a learned model, one category for each reference token, and the stored payloads of a
baseline tool. A payload is decoded when its record is scored, so a malformed one fails no other
record.

## Main definitions

* `Predictor`, `Predictor.name`
* `Predictor.model?`, `Predictor.baseline?`: predictors from files of stored answers
* `Predictor.score`: the tally of a record, and the predictor that is left
-/

namespace Highlighting

/-- What answers oracle records. -/
inductive Predictor where
  /-- Classifies sources. -/
  | engine (highlighter : Highlighter) (parser : Parser)
  /-- The categories that a model gives to the reference tokens of records, by name. -/
  | model (answers : Std.HashMap String (List Category))
  /-- The payloads of a baseline tool, by the name of the record. -/
  | baseline (payloads : Std.HashMap String String)

namespace Predictor

/-- The name of a predictor in reports. -/
def name : Predictor → String
  | engine .. => "engine"
  | model _ => "model"
  | baseline _ => "baseline"

/-! ### Stored answers -/

/-- An answer under the name of its record. -/
def answer? {α : Type} (field : String) (decode : Json → Option α) (v : Json) :
    Option (String × α) := do
  let [id, answer] ← v.fields? ["fileId", field] | none
  some (← id.bind Json.str?, ← answer.bind decode)

/-- The answers of a file by the names of their records. The last of several with one name
counts. -/
def answers? {α : Type} (field : String) (decode : Json → Option α) (text : String) :
    Option (Std.HashMap String α) :=
  ((Json.read? text).bind (Json.list? (answer? field decode))).map fun answers =>
    answers.foldl (fun known (id, answer) => known.insert id answer) ∅

/-- A model from a file of answers. -/
def model? (text : String) : Option Predictor :=
  (answers? "ps" (Json.list? Category.ofJson?) text).map model

/-- A baseline tool from a file of payloads. -/
def baseline? (text : String) : Option Predictor :=
  (answers? "resJson" Json.str? text).map baseline

/-! ### Scores of records -/

/-- Why a record has no score. -/
inductive Error where
  /-- Its source could not be highlighted. -/
  | highlighting (cause : Highlighter.Error)
  /-- The answer cannot be compared with the reference. -/
  | scoring (cause : Score.Error)
  /-- The payload cannot be decoded. -/
  | payload (cause : Baseline.Error)
  /-- There is no answer for the record. -/
  | missing (id : String)

/-- The wording of an error. -/
def Error.message : Error → String
  | highlighting cause => cause.message
  | scoring cause => cause.message
  | payload cause => cause.message
  | missing id => s!"no prediction for file {id}"

/-- The tally of marked spans as the answer to a record. -/
def scoreSpans (spans : List (Span × Category)) (r : Oracle.Record) (task : Task) :
    Except Error Score.Tally :=
  (Score.overChars (.project spans r.source.length) r.highlights r.source task).mapError .scoring

/-- The tally of the answer to a record. -/
def score (p : Predictor) (r : Oracle.Record) (task : Task) :
    Except Error Score.Tally × Predictor :=
  match p with
  | engine highlighter parser =>
    match highlighter.classifySource parser r.source with
    | (.error e, highlighter) => (.error (.highlighting e), engine highlighter parser)
    | (.ok highlights, highlighter) =>
      (scoreSpans (Highlight.spans highlights) r task, engine highlighter parser)
  | model answers =>
    match answers[r.id]? with
    | none => (.error (.missing r.id), p)
    | some answer =>
      ((Score.overTokens answer r.highlights r.source task).mapError .scoring, p)
  | baseline payloads =>
    match payloads[r.id]? with
    | none => (.error (.missing r.id), p)
    | some payload =>
      match Baseline.decode payload with
      | .error e => (.error (.payload e), p)
      | .ok tokens => (scoreSpans (Baseline.spans tokens) r task, p)

end Predictor

end Highlighting

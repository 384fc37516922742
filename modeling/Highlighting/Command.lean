import Highlighting.Command.Invocation
import Highlighting.Evaluation
import Highlighting.Html
import Highlighting.Oracle.Survey
import Highlighting.Settings

/-!
# The command-line tool

What the tool does for a command line. It reads files and answers with a JSON value or a text; it
writes nothing else. How a file is read is left to the caller, so that the tool can be run on real
files and on files in memory alike.

## Main definitions

* `Command.Output`: what is written to standard output
* `Command.Failure`: why there is no output
* `Command.run`: the output for some words
-/

namespace Highlighting

namespace Command

/-- What is written to standard output. -/
inductive Output where
  /-- A JSON value, over several lines. -/
  | json (v : Json)
  /-- A text. -/
  | text (s : String)

/-- What is written to standard output, as it is written. -/
def Output.toText : Output → String
  | json v => v.indented "" ++ "\n"
  | text s => s ++ "\n"

/-- Why there is no output. -/
inductive Failure where
  /-- The words make no sense. -/
  | usage
  /-- The settings cannot be loaded. -/
  | settings (cause : Settings.Error)
  /-- A code in the settings belongs to no task. -/
  | taskCode (code : Nat)
  /-- A file cannot be read. -/
  | reading (path : String)
  /-- An oracle file cannot be loaded. -/
  | loading (path : String) (cause : Option Oracle.Error)
  /-- A file of payloads cannot be decoded. -/
  | payloads
  /-- A file of model answers cannot be decoded. -/
  | predictions
  /-- There is no record with a number. -/
  | record (number count : Nat)

namespace Failure

/-- What is said about a failure. -/
def message : Failure → String
  | usage => "Usage: semhl [OPTIONS] <COMMAND>"
  | settings cause => "Configuration error: " ++ cause.message
  | taskCode code => "Configuration error: " ++ Task.unknownMessage code
  | reading path => s!"Error reading {path}: cannot be read"
  | loading path none => s!"Error loading {path}: cannot be read"
  | loading path (some cause) => s!"Error loading {path}: " ++ cause.message
  | payloads => "Error loading payloads: malformed predictions"
  | predictions => "Error loading predictions: malformed predictions"
  | record number count => s!"Invalid record: {number} out of {count} records"

/-- The exit code of a failure. -/
def code : Failure → Nat
  | usage => 2
  | _ => 1

end Failure

/-- The path of a settings file whose extension was left out. The extension belongs to the last name
of the path; slashes and single dots behind it do not count. -/
def withExtension? (path : String) : Option String :=
  match (path.splitOn "/").reverse.dropWhile fun step => step == "" || step == "." with
  | [] | ".." :: _ => none
  | name :: steps => some (String.intercalate "/" ((name ++ ".toml") :: steps).reverse)

section

variable {m : Type → Type} [Monad m] (read : String → m (Option String))

/-- A file that has to be there. -/
def readFile (path : String) : ExceptT Failure m String := do
  match ← read path with
  | some text => return text
  | none => throw (.reading path)

/-- The records of an oracle file. -/
def readOracle (path : String) : ExceptT Failure m (List Oracle.Record) := do
  match ← read path with
  | none => throw (.loading path none)
  | some text =>
    match Oracle.parse text with
    | .ok records => return records
    | .error e => throw (.loading path (some e))

/-- A settings file. It may be named without its extension. -/
def readSettingsFile (path : String) : m (Option String) := do
  match ← read path, withExtension? path with
  | none, some path => read path
  | file, _ => return file

/-- The place and the value of a single setting, with an equals sign between them. -/
def assignment (text : String) : Except Settings.Error (String × Settings.Value) :=
  match text.toList.dropWhile (· != '=') with
  | [] => .error (.badAssignment text)
  | _ :: value =>
    .ok (String.ofList (text.toList.takeWhile (· != '=')), .str (String.ofList value))

/-- The settings that a command line chooses. -/
def loadSettings (i : Invocation) : ExceptT Failure m Settings := do
  let places ← ExceptT.mk (pure ((i.assignments.mapM assignment).mapError .settings))
  let files ← i.config.toList.mapM fun path => ExceptT.lift (readSettingsFile read path)
  ExceptT.mk (pure ((Settings.load files places).mapError .settings))

/-- The report on a predictor for a task. -/
def report (s : Settings) (batch : Batch) (predictor : Predictor) (task : Task) :
    ExceptT Failure m Json := do
  let files ← readOracle read batch.oracle
  let snippets ← batch.snippets.mapM (readOracle read)
  let evaluator : Evaluation.Evaluator :=
    { task, skipDegenerate := s.skipDegenerate, progressEvery := s.progressEvery }
  return (evaluator.runAll predictor files snippets).1.toJson

/-- Scores the payloads of a baseline tool, for the tasks of the settings if none is chosen. -/
def scoreBaseline (s : Settings) (payloads : String) (batch : Batch) (tasks : List Task) :
    ExceptT Failure m Json := do
  let some predictor := Predictor.baseline? (← readFile read payloads) | throw .payloads
  let tasks ← match tasks, s.tasks with
    | [], .error code => throw (.taskCode code)
    | [], .ok tasks => pure tasks
    | tasks, _ => pure tasks
  return .arr (← tasks.mapM (report read s batch predictor))

/-- Scores the answers of a model. -/
def scoreModel (s : Settings) (predictions : String) (batch : Batch) (task : Task) :
    ExceptT Failure m Json := do
  let some predictor := Predictor.model? (← readFile read predictions) | throw .predictions
  report read s batch predictor task

/-- The tasks with the categories that they tell apart. -/
def tasksJson : Json :=
  .arr (Task.all.map fun t => .obj
    [("categories", .arr (t.categories.map fun c => .str c.name)), ("code", t.toJson)])

/-- The reference of a record in HTML. -/
def render (oracle : String) (number : Nat) (task : Option Task) : ExceptT Failure m String := do
  let records ← readOracle read oracle
  let some r := records[number]? | throw (.record number records.length)
  let cells := Cells.project (Highlight.spans r.highlights) r.source.length
  return Html.render r.source (task.elim cells cells.coarsen)

/-- Does what a command line asks for. -/
def execute (i : Invocation) : ExceptT Failure m Output := do
  let s ← loadSettings read i
  match i.action with
  | .scoreBaseline payloads batch tasks =>
    return .json (← scoreBaseline read s payloads batch tasks)
  | .scoreModel predictions batch task =>
    return .json (← scoreModel read s predictions batch task)
  | .sizes oracle => return .json (.arr ((Oracle.sizes (← readOracle read oracle)).map (·.toJson)))
  | .index oracle => return .json (.arr ((Oracle.index (← readOracle read oracle)).map (·.toJson)))
  | .tasks => return .json tasksJson
  | .render oracle number task => return .text (← render read oracle number task)

/-- What is said about the tool. -/
def helpText : String :=
  "Usage: semhl [OPTIONS] <COMMAND>\n\nCommands: "
    ++ String.intercalate ", " (Verb.all.map Verb.name)

/-- The output for some words. -/
def run (words : List String) : m (Except Failure Output) := ExceptT.run do
  match Invocation.parse words with
  | .ok i => execute read i
  | .error .usage => throw .usage
  | .error .help => return .text helpText
  | .error .version => return .text "semhl 0.1.0"

end

end Command

end Highlighting

import Highlighting.Decimal.Nearest
import Highlighting.Language
import Highlighting.Settings.Path
import Highlighting.Settings.Toml
import Highlighting.Task

/-!
# Settings

What can be chosen about a run: the mode of the lexical stage for each language, the tasks to
score, how records are treated, and what is logged. Settings files are laid over the settings that
are built in, one after the other, and single places are set last.

Values are taken leniently, because a place that is set on the command line is always a string: a
string that says a number or a truth value is as good as one. Names are taken letter case aside. A
name at the top of a file may be a place as well, written in quotes if it has dots.

## Main definitions

* `Settings`, `Settings.modeFor`, `Settings.tasks`
* `Settings.Value.bool?`, `Settings.Value.nat?` and the like: values of one sort
* `Settings.load`: settings from files and single places
-/

namespace Highlighting

/-- The choices for a run. -/
structure Settings where
  /-- The mode for C++. -/
  cpp : Mode
  /-- The mode for C#. -/
  csharp : Mode
  /-- The mode for JavaScript. -/
  javascript : Mode
  /-- The codes of the tasks to score when none is chosen. -/
  taskCodes : List Nat
  /-- The number of records after which progress is logged; zero for never. -/
  progressEvery : Nat
  /-- Whether records with nothing to score are left out. -/
  skipDegenerate : Bool
  /-- What is logged. -/
  filter : String
  deriving DecidableEq, Repr, Inhabited

namespace Settings

/-- The mode for a language. -/
def modeFor (s : Settings) : Language → Mode
  | .cpp => s.cpp
  | .csharp => s.csharp
  | .javascript => s.javascript

/-- The tasks to score, or the first code that belongs to none. -/
def tasks (s : Settings) : Except Nat (List Task) :=
  s.taskCodes.mapM fun n => (Task.ofCode? n).elim (.error n) .ok

/-! ### Values of one sort -/

namespace Value

/-- The truth value that a word means, letter case aside. -/
def truthWord? (s : String) : Option Bool :=
  let s := s.toLower
  if ["true", "on", "yes"].contains s then some true
  else if ["false", "off", "no"].contains s then some false
  else none

/-- A truth value. A number is true unless it is zero. -/
def bool? : Value → Option Bool
  | bool b => some b
  | int n => some (n != 0)
  | float x => some (x != 0)
  | str "1" => some true
  | str "0" => some false
  | str s => truthWord? s
  | _ => none

/-- The number of 64 bits that is nearest to a double. What is no number counts as zero. -/
def rounded (x : Float) : Nat :=
  if x.isNaN then 0 else x.round.toUInt64.toNat

/-- A number up to `max`. A truth value is one or zero. -/
def nat? (max : Nat) (v : Value) : Option Nat :=
  let n : Option Nat :=
    match v with
    | bool b => some b.toNat
    | int (.ofNat n) => some n
    | float x => some (rounded x)
    | str s => ((truthWord? s).map Bool.toNat).or (Text.natural? s.toList)
    | _ => none
  n.filter (· ≤ max)

/-- A double as a text, with the fewest digits that identify it and without an exponent. -/
def floatText (x : Float) : String :=
  let bits := x.toBits
  let sign := if bits >>> 63 == 1 then "-" else ""
  if x.isNaN then "NaN"
  else if x.isInf then sign ++ "inf"
  else
    let magnitude := Decimal.Binary.ofBits bits
    if magnitude.mantissa = 0 then sign ++ "0"
    else sign ++ (magnitude.shortest.stripZeros 20).positional

/-- A text. -/
def str? : Value → Option String
  | bool b => some (toString b)
  | int n => some (toString n)
  | float x => some (floatText x)
  | str s => some s
  | _ => none

/-- A mode by its name, letter case aside. A table whose only entry has that name will do. -/
def mode? (v : Value) : Option Mode :=
  match v with
  | str s | table [(s, _)] => Mode.ofName? s.toLower
  | _ => none

/-- The values of a record: the entries of a table with the given names, or as many items of an
array. -/
def fields? (names : List String) : Value → Option (List Value)
  | v@(table _) => names.mapM v.get?
  | arr items => if names.length ≤ items.length then some (items.take names.length) else none
  | _ => none

end Value

/-! ### Loading -/

/-- The settings that are built in. -/
def builtIn : Value :=
  .table
    [("engine", .table (Language.all.map fun l => (l.name, .str l.defaultMode.name))),
      ("evaluation", .table
        [("tasks", .arr (Task.all.map fun t => .int t.code)), ("progress_every", .int 100),
          ("skip_degenerate", .bool true)]),
      ("logging", .table [("filter", .str "info")])]

/-- The largest number of 64 bits. -/
def maxCount : Nat := Nat.pow 2 64 - 1

/-- The settings that a value means. -/
def ofValue? (v : Value) : Option Settings := do
  let [engine, evaluation, logging] ← v.fields? ["engine", "evaluation", "logging"] | none
  let [cpp, csharp, javascript] ← engine.fields? ["cpp", "csharp", "javascript"] | none
  let [tasks, progressEvery, skipDegenerate] ←
      evaluation.fields? ["tasks", "progress_every", "skip_degenerate"]
    | none
  let [filter] ← logging.fields? ["filter"] | none
  let .arr tasks := tasks | none
  some
    { cpp := ← cpp.mode?
      csharp := ← csharp.mode?
      javascript := ← javascript.mode?
      taskCodes := ← tasks.mapM (Value.nat? Task.maxCode)
      progressEvery := ← progressEvery.nat? maxCount
      skipDegenerate := ← skipDegenerate.bool?
      filter := ← filter.str? }

/-- Why there are no settings. -/
inductive Error where
  /-- A file does not exist. -/
  | missingFile
  /-- A file cannot be read. -/
  | malformedFile
  /-- A text names no place. -/
  | badPlace (text : String)
  /-- A text does not say which place is set. -/
  | badAssignment (text : String)
  /-- A value is missing or of the wrong sort. -/
  | badValue
  deriving DecidableEq, Repr, Inhabited

/-- The wording of an error. -/
def Error.message : Error → String
  | missingFile => "configuration file not found"
  | malformedFile => "malformed configuration file"
  | badPlace text => s!"invalid key '{text}'"
  | badAssignment text => s!"expected KEY=VALUE, got '{text}'"
  | badValue => "invalid value"

/-- A value with the table of a file laid over it. A name at the top of the file that can be read as
a place is one. -/
def withFile (base : Value) (file : Value) : Value :=
  file.entries.foldl
    (fun base (name, v) => base.set ((Path.parse? name).getD [.name name]) v) base

/-- Settings from files, of which the later ones win, and from single places, which win over
files. -/
def load (files : List (Option String)) (places : List (String × Value)) :
    Except Error Settings := do
  let places ← places.mapM fun (text, v) =>
    (Path.parse? text).elim (.error (Error.badPlace text)) fun path => .ok (path, v)
  let files ← files.mapM fun file =>
    file.elim (.error .missingFile) fun text =>
      (Toml.parse? text).elim (.error .malformedFile) .ok
  let value := files.foldl withFile builtIn
  let value := places.foldl (fun value (path, v) => value.set path v) value
  (ofValue? value).elim (.error .badValue) .ok

end Settings

end Highlighting

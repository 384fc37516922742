import Highlighting.Task
import Highlighting.Text.Numeral

/-!
# Command lines

A command line is a verb with an operand and options. An option takes a value, which follows it as
the next word, after an equals sign, or, for an option of one letter, directly. Two hyphens end
the options. The options that choose settings may stand before the verb or after it; those after
it win. Every other option belongs to some verbs only, and most may be given only once.

Words are read one after the other, and the first one that is wrong ends the reading.

## Main definitions

* `Command.Verb`, `Command.Flag`: the vocabulary
* `Command.Reader`: a command line, word by word
* `Command.Invocation`, `Command.Invocation.parse`: what a command line asks for
* `Command.Stop`: why there is nothing to run
-/

namespace Highlighting

namespace Command

/-- What to do. -/
inductive Verb where
  | scoreBaseline
  | scoreModel
  | sizes
  | index
  | tasks
  | render
  deriving DecidableEq, Repr, Inhabited

namespace Verb

/-- Every verb. -/
def all : List Verb := [scoreBaseline, scoreModel, sizes, index, tasks, render]

/-- The word for a verb. -/
def name : Verb → String
  | scoreBaseline => "score-baseline"
  | scoreModel => "score-model"
  | sizes => "sizes"
  | index => "index"
  | tasks => "tasks"
  | render => "render"

/-- The verb for a word. -/
def ofName? (s : String) : Option Verb :=
  all.find? fun v => v.name == s

/-- Whether a verb needs an oracle file as its operand. -/
def needsOracle (v : Verb) : Bool :=
  v != tasks

end Verb

/-- An option with a value. -/
inductive Flag where
  /-- A settings file. -/
  | config
  /-- A single setting. -/
  | set
  /-- A file of baseline payloads. -/
  | payloads
  /-- A file of model answers. -/
  | predictions
  /-- An oracle file of snippets. -/
  | snippets
  /-- A task. -/
  | task
  /-- The number of a record. -/
  | record
  deriving DecidableEq, Repr, Inhabited

/-- The largest number that a record may be asked for by. -/
def maxRecord : Nat := Nat.pow 2 64 - 1

/-- The number of a record. -/
def recordNumber? (s : String) : Option Nat :=
  (Text.natural? s.toList).filter (· ≤ maxRecord)

namespace Flag

/-- The word for an option, without its hyphens. -/
def long : Flag → String
  | config => "config"
  | set => "set"
  | payloads => "payloads"
  | predictions => "predictions"
  | snippets => "snippets"
  | task => "task"
  | record => "record"

/-- The letter for an option. -/
def short? : Flag → Option Char
  | config => some 'c'
  | task => some 't'
  | record => some 'r'
  | _ => none

/-- The options of a verb, or those that may stand before any verb. -/
def available : Option Verb → List Flag
  | none | some .sizes | some .index | some .tasks => [config, set]
  | some .scoreBaseline => [config, set, payloads, snippets, task]
  | some .scoreModel => [config, set, predictions, snippets, task]
  | some .render => [config, set, record, task]

/-- Whether an option may be given more than once. -/
def mayRepeat (verb : Option Verb) (f : Flag) : Bool :=
  f == set || (f == task && verb == some .scoreBaseline)

/-- Whether a text is a value of an option. -/
def accepts (f : Flag) (value : String) : Bool :=
  match f with
  | task => (Task.parse value).toOption.isSome
  | record => (recordNumber? value).isSome
  | _ => true

end Flag

/-- Why there is nothing to run. -/
inductive Stop where
  /-- The words make no sense. -/
  | usage
  /-- Help was asked for. -/
  | help
  /-- The version was asked for. -/
  | version
  deriving DecidableEq, Repr, Inhabited

/-! ### Reading words -/

/-- Options with their values, in order. -/
abbrev Given := List (Flag × String)

/-- The values of an option. -/
def Given.values (given : Given) (f : Flag) : List String :=
  (given.filter fun g => g.1 == f).map (·.2)

/-- What may come next. -/
inductive Phase where
  /-- Any word. -/
  | word
  /-- The value of an option. -/
  | value (f : Flag)
  /-- An operand, whatever it looks like. -/
  | operand
  /-- The verb that help is asked for, if any. -/
  | help
  /-- Nothing more, because help is asked for a verb. -/
  | helpEnd
  deriving DecidableEq, Repr, Inhabited

/-- A reader of command lines. -/
structure Reader where
  /-- The verb, once it has been read. -/
  verb : Option Verb := none
  /-- The options before the verb. -/
  outer : Given := []
  /-- The options on this side of the verb. -/
  given : Given := []
  /-- The operand, once it has been read. -/
  operand : Option String := none
  /-- What may come next. -/
  phase : Phase := .word
  deriving Repr, Inhabited

namespace Reader

/-- Takes the value of an option. -/
def take (s : Reader) (f : Flag) (value : String) : Except Stop Reader :=
  if !f.accepts value || (!f.mayRepeat s.verb && !(s.given.values f).isEmpty) then .error .usage
  else .ok { s with given := s.given ++ [(f, value)], phase := .word }

/-- Takes an option with the value that is written with it, if any. -/
def takeFlag (s : Reader) (f : Flag) (value : Option String) : Except Stop Reader :=
  match value with
  | none => .ok { s with phase := .value f }
  | some value => s.take f value

/-- Takes an option by its word. -/
def takeLong (s : Reader) (name : String) (value : Option String) : Except Stop Reader :=
  match (Flag.available s.verb).find? (·.long == name), name, value with
  | some f, _, _ => s.takeFlag f value
  | none, "help", none => .error .help
  | none, "version", none => .error (if s.verb.isNone then .version else .usage)
  | none, _, _ => .error .usage

/-- Takes an option by its letter. An equals sign between the letter and the value is dropped. -/
def takeShort (s : Reader) (letter : Char) (rest : List Char) : Except Stop Reader :=
  let value := match rest with
    | [] => none
    | '=' :: cs => some (String.ofList cs)
    | cs => some (String.ofList cs)
  match (Flag.available s.verb).find? (·.short? == some letter), letter with
  | some f, _ => s.takeFlag f value
  | none, 'h' => .error .help
  | none, 'V' => .error (if s.verb.isNone then .version else .usage)
  | none, _ => .error .usage

/-- Takes an operand. There is at most one, and none before the verb. -/
def takeOperand (s : Reader) (word : String) : Except Stop Reader :=
  if s.operand.isNone && s.verb.any Verb.needsOracle then .ok { s with operand := some word }
  else .error .usage

/-- Takes a word that is neither the value of an option nor forced to be an operand. -/
def takeWord (s : Reader) (word : String) : Except Stop Reader :=
  match s.verb, Verb.ofName? word with
  | none, some verb => .ok { s with verb := some verb, outer := s.given, given := [] }
  | verb, _ =>
    if verb.isNone && word == "help" then .ok { s with phase := .help }
    else
      match word.toList with
      | ['-', '-'] => .ok { s with phase := .operand }
      | '-' :: '-' :: cs =>
        let value := match cs.dropWhile (· != '=') with
          | [] => none
          | _ :: value => some (String.ofList value)
        s.takeLong (String.ofList (cs.takeWhile (· != '='))) value
      | '-' :: letter :: rest => s.takeShort letter rest
      | _ => s.takeOperand word

/-- Whether a word looks like an option, so that it cannot be the value of one. -/
def looksLikeFlag (word : String) : Bool :=
  match word.toList with
  | '-' :: _ :: _ => true
  | _ => false

/-- What a word does to the reader. -/
def step (s : Reader) (word : String) : Except Stop Reader :=
  match s.phase with
  | .word => s.takeWord word
  | .value f => if looksLikeFlag word then .error .usage else s.take f word
  | .operand => s.takeOperand word
  | .help =>
    if word == "help" || (Verb.ofName? word).isSome then .ok { s with phase := .helpEnd }
    else .error .usage
  | .helpEnd => .error .usage

end Reader

/-! ### Whole command lines -/

/-- The oracle files that a predictor is evaluated on. -/
structure Batch where
  /-- An oracle file of whole files. -/
  oracle : String
  /-- An oracle file of snippets. -/
  snippets : Option String
  deriving DecidableEq, Repr, Inhabited

/-- What a command line asks for. Files are given by their paths. -/
inductive Action where
  /-- Scores payloads of a baseline tool; without tasks, those of the settings are meant. -/
  | scoreBaseline (payloads : String) (batch : Batch) (tasks : List Task)
  /-- Scores answers of a model. -/
  | scoreModel (predictions : String) (batch : Batch) (task : Task)
  /-- Tells how large the records of an oracle file are. -/
  | sizes (oracle : String)
  /-- Lists the sources of an oracle file. -/
  | index (oracle : String)
  /-- Lists the tasks. -/
  | tasks
  /-- Shows the reference of a record, as a task sees it if one is chosen. -/
  | render (oracle : String) (number : Nat) (task : Option Task)
  deriving Repr, Inhabited

/-- A command line that makes sense. -/
structure Invocation where
  /-- The settings file. -/
  config : Option String
  /-- The single settings. -/
  assignments : List String
  /-- What to do. -/
  action : Action
  deriving Repr, Inhabited

namespace Reader

/-- The value of an option that is given at most once. -/
def value? (s : Reader) (f : Flag) : Option String :=
  (s.given.values f).head?

/-- The tasks that are chosen. -/
def tasks (s : Reader) : List Task :=
  (s.given.values .task).filterMap fun value => (Task.parse value).toOption

/-- The values of an option that may stand on either side of the verb. -/
def oneSided (s : Reader) (f : Flag) : List String :=
  let inner := s.given.values f
  if inner.isEmpty then s.outer.values f else inner

/-- The oracle files. -/
def batch? (s : Reader) : Option Batch :=
  s.operand.map fun oracle => ⟨oracle, s.value? .snippets⟩

/-- What is asked for, unless something is missing. -/
def action? (s : Reader) : Verb → Option Action
  | .scoreBaseline => do some (.scoreBaseline (← s.value? .payloads) (← s.batch?) s.tasks)
  | .scoreModel => do
    some (.scoreModel (← s.value? .predictions) (← s.batch?) (← s.tasks.head?))
  | .sizes => s.operand.map .sizes
  | .index => s.operand.map .index
  | .tasks => some .tasks
  | .render => do
    let number := ((s.value? .record).bind recordNumber?).getD 0
    some (.render (← s.operand) number s.tasks.head?)

/-- The command line that has been read when the words are over. -/
def finish (s : Reader) : Except Stop Invocation :=
  match s.phase, s.verb.bind s.action? with
  | .help, _ | .helpEnd, _ => .error .help
  | .value _, _ | _, none => .error .usage
  | _, some action => .ok ⟨(s.oneSided .config).head?, s.oneSided .set, action⟩

end Reader

/-- The command line that some words mean. -/
def Invocation.parse (words : List String) : Except Stop Invocation := do
  (← words.foldlM Reader.step {}).finish

end Command

end Highlighting

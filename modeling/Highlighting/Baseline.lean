import Highlighting.Highlight.Json
import Highlighting.Json.Printer
import Highlighting.Json.Reader
import Highlighting.Text.Blank
import Highlighting.Text.Numeral

/-!
# Baseline payloads

A baseline tool answers with a JSON array of triples of a text, a label of its own and the ordinal
of a category, a number or a numeral. The texts cover the source from its beginning, blanks
included. A payload is decoded as a whole: one bad triple spoils it, and the first one is reported.

## Main definitions

* `Baseline.Token`, `Baseline.Error`
* `Baseline.Triple`, `Baseline.triples?`, `Baseline.ofTriples`: the two steps of decoding
* `Baseline.decode`: the tokens of a payload
* `Baseline.spans`: the places of the tokens, laid end to end
-/

namespace Highlighting

namespace Baseline

/-- A token as a baseline tool classifies it. -/
structure Token where
  /-- The text. -/
  text : String
  /-- The label that the tool uses. -/
  label : Json
  /-- The category. -/
  category : Category
  deriving Inhabited

/-- Why a payload cannot be decoded. -/
inductive Error where
  /-- It is no array of triples. -/
  | malformed
  /-- The category of a triple is no integer. -/
  | badCategory (index : Nat) (value : Json)
  /-- The category of a triple is no ordinal. -/
  | unknownCategory (index : Nat) (ordinal : Int)
  deriving Inhabited

/-- The wording of an error. -/
def Error.message : Error → String
  | malformed => "malformed baseline payload"
  | badCategory index value =>
    s!"triple {index}: category " ++ value.compact ++ " is not an integer"
  | unknownCategory index ordinal => s!"triple {index}: " ++ Category.unknownMessage ordinal

/-- A triple of a payload. -/
structure Triple where
  /-- The text. -/
  text : String
  /-- The label. -/
  label : Json
  /-- What should be the ordinal of a category. -/
  category : Json
  deriving Inhabited

/-- A triple. Label and category may be any value; with the two arrays around it, it may not be
nested too deeply. -/
def Triple.ofJson? : Json → Option Triple
  | .arr [text, label, category] => do
    let depth := Json.maxDepth - 2
    some ⟨← text.str?, ← label.canonical? depth, ← category.canonical? depth⟩
  | _ => none

/-- The triples of a payload. -/
def triples? (payload : String) : Option (List Triple) :=
  (Json.read? payload).bind (Json.list? Triple.ofJson?)

/-- The integer that a category is given by: a number, or a numeral with blanks around it. -/
def ordinal? : Json → Option Int
  | .int n => (Json.int n).int?
  | .str s => (Text.integer? (Text.trim s.toList)).bind fun n => (Json.int n).int?
  | _ => none

/-- The token that the triple at a position is. -/
def tokenAt (index : Nat) (t : Triple) : Except Error Token :=
  match ordinal? t.category with
  | none => .error (.badCategory index t.category)
  | some n =>
    match Category.ofOrdinal? n with
    | none => .error (.unknownCategory index n)
    | some category => .ok ⟨t.text, t.label, category⟩

/-- The tokens of a list of triples, or what is wrong with the first bad one. -/
def ofTriples (triples : List Triple) : Except Error (List Token) :=
  triples.zipIdx.mapM fun (t, index) => tokenAt index t

/-- The tokens of a payload. -/
def decode (payload : String) : Except Error (List Token) :=
  match triples? payload with
  | none => .error .malformed
  | some triples => ofTriples triples

/-- The places of tokens that are laid end to end from an offset on. An empty text has none. -/
def spansFrom : Nat → List Token → List (Span × Category)
  | _, [] => []
  | offset, t :: ts =>
    let next := offset + t.text.length
    if t.text.isEmpty then spansFrom next ts
    else (⟨offset, next - 1⟩, t.category) :: spansFrom next ts

/-- The places of tokens that cover a source from its beginning. -/
def spans (ts : List Token) : List (Span × Category) :=
  spansFrom 0 ts

end Baseline

end Highlighting

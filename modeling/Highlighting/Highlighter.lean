import Highlighting.Highlight
import Highlighting.Language
import Highlighting.Parse

/-!
# Highlighting a file

A highlighter classifies every token of a parse, hidden ones included. The lexicon of the language
gives each token a category, and the overrides that the catalog of the language marks in the tree
are applied on top. The engine that holds the marks is kept from file to file.

## Main definitions

* `Highlighter`, `Highlighter.ofLanguage`
* `Highlighter.records`, `Highlighter.lexical`: the tokens of a parse, without and with the category
  that the lexicon gives them
* `Highlighter.classify`: both stages, for a parse
* `Highlighter.classifySource`: both stages, for a source text and a parser
-/

namespace Highlighting

/-- A parser makes a parse of a source text, or says why it cannot. -/
abbrev Parser := String → Except String Parse

/-- What highlights the files of one language. -/
structure Highlighter where
  /-- The language. -/
  language : Language
  /-- The mode of the lexical stage. -/
  mode : Mode
  /-- What applies the grammar rules. -/
  engine : Engine
  deriving Inhabited

namespace Highlighter

/-- Why a source text cannot be highlighted. -/
inductive Error where
  /-- There is nothing to highlight. -/
  | emptySource
  /-- The parser has failed. -/
  | parse (reason : String)
  deriving DecidableEq, Repr, Inhabited

/-- The wording of an error. -/
def Error.message : Error → String
  | emptySource => "source is empty"
  | parse reason => "failed to parse source: " ++ reason

/-- A highlighter for a language, in the mode of the language unless one is chosen. -/
def ofLanguage (language : Language) (mode : Option Mode := none) : Highlighter :=
  { language
    mode := mode.getD language.defaultMode
    engine := { catalog := language.catalog } }

/-- The record of a token of the stream. A kind without a name is named by its number. -/
def record (language : Language) (t : StreamToken) : TokenRecord :=
  { start := t.token.span.start
    stop := t.token.span.stop
    text := t.token.text
    kind := t.token.kind
    parent := t.parent
    name := (language.vocabulary.kindName? t.token.kind).getD (toString t.token.kind.toNat) }

/-- The records of all tokens of a parse, in source order. -/
def records (language : Language) (p : Parse) : List TokenRecord :=
  p.stream.map (record language)

/-- The lexical stage alone. -/
def lexical (h : Highlighter) (p : Parse) : List Highlight :=
  (records h.language p).map fun r =>
    ⟨r, h.language.lexicon.classify h.mode r.kind r.parent⟩

/-- Classifies the tokens of a parse. -/
def classify (h : Highlighter) (p : Parse) : List Highlight × Highlighter :=
  let (overrides, engine) := h.engine.reset.walk p.root
  (overrides.resolve (h.lexical p), { h with engine })

/-- Parses and classifies a source text. -/
def classifySource (h : Highlighter) (parser : Parser) (source : String) :
    Except Error (List Highlight) × Highlighter :=
  if source.isEmpty then
    (.error .emptySource, h)
  else
    match parser source with
    | .error reason => (.error (.parse reason), h)
    | .ok p =>
      let (highlights, h) := h.classify p
      (.ok highlights, h)

end Highlighter

end Highlighting

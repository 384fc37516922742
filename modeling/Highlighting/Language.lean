import Highlighting.Language.CSharp.Catalog
import Highlighting.Language.CSharp.Kind
import Highlighting.Language.Cpp.Catalog
import Highlighting.Language.JavaScript.Catalog

/-!
# Languages

The languages that can be highlighted. Each has a vocabulary, a lexicon, a catalog of grammar rules
and a mode of its own for the lexical stage.
-/

namespace Highlighting

/-- A language that can be highlighted. -/
inductive Language where
  | cpp
  | csharp
  | javascript
  deriving DecidableEq, Repr, Inhabited

namespace Language

/-- Every language. -/
def all : List Language := [cpp, csharp, javascript]

/-- The name of a language in settings and reports. -/
def name : Language → String
  | cpp => "cpp"
  | csharp => "csharp"
  | javascript => "javascript"

/-- The language with exactly the given name. -/
def ofName? (s : String) : Option Language :=
  all.find? fun l => l.name == s

/-- The language that a text names, letter case aside, or what is said if there is none. -/
def parse (s : String) : Except String Language :=
  let s := s.toLower
  match s with
  | "c++" => .ok cpp
  | "c#" => .ok csharp
  | "js" => .ok javascript
  | _ =>
    (ofName? s).elim (.error s!"unsupported language '{s}', expected cpp, csharp or javascript") .ok

/-- The mode of the lexical stage when none is chosen. -/
def defaultMode : Language → Mode
  | cpp => .plain
  | csharp => .preprocessing
  | javascript => .semiLexical

/-- The names of token kinds and productions. -/
def vocabulary : Language → Vocabulary
  | cpp => ⟨Cpp.Kind.names, Cpp.Rule.names⟩
  | csharp => ⟨CSharp.Kind.names, CSharp.Rule.names⟩
  | javascript => ⟨JavaScript.Kind.names, JavaScript.Rule.names⟩

/-- The categories of the token kinds. -/
def lexicon : Language → Lexicon
  | cpp => Cpp.lexicon
  | csharp => CSharp.lexicon
  | javascript => JavaScript.lexicon

/-- The grammar rules. -/
def catalog : Language → Catalog
  | cpp => Cpp.catalog
  | csharp => CSharp.catalog
  | javascript => JavaScript.catalog

end Language

end Highlighting

import Std.Data.HashMap
import Std.Data.HashSet
import Highlighting.Category
import Highlighting.Token

/-!
# Lexicons

The first stage of highlighting looks at each token alone. A lexicon gives a category to token
kinds; a kind that it does not list is `any`. Two refinements depend on the mode. A soft keyword
keeps the category of its kind only where the grammar took it for an identifier and is a keyword
everywhere else, and a directive token is highlighted in a way of its own.

A lexicon is assembled from entries. A kind that several buckets list keeps the category of the
first of them; a kind that several directive entries list takes the category of the last.

## Main definitions

* `Mode`: which refinements are in use
* `Lexicon`, `Lexicon.Entry`, `Lexicon.ofEntries`
* `Lexicon.lookup`, `Lexicon.classify`: the category of a kind alone, and of a token in a mode
-/

namespace Highlighting

/-- Which refinements the lexical stage uses. -/
inductive Mode where
  /-- None. -/
  | plain
  /-- Soft keywords. -/
  | semiLexical
  /-- Soft keywords and directives. -/
  | preprocessing
  deriving DecidableEq, Repr, Inhabited

namespace Mode

/-- Every mode. -/
def all : List Mode := [plain, semiLexical, preprocessing]

/-- The name of a mode in settings and reports. -/
def name : Mode → String
  | plain => "plain"
  | semiLexical => "semi-lexical"
  | preprocessing => "preprocessing"

/-- The mode with exactly the given name. -/
def ofName? (s : String) : Option Mode :=
  all.find? fun m => m.name == s

/-- The mode with exactly the given name, or what is said if there is none. -/
def parse (s : String) : Except String Mode :=
  (ofName? s).elim
    (.error s!"unknown lexical mode '{s}', expected plain, semi-lexical or preprocessing") .ok

end Mode

/-- The categories of the token kinds of a language. -/
structure Lexicon where
  /-- The category of a kind. -/
  categories : Std.HashMap TokenKind Category := ∅
  /-- The production under which a soft keyword is an identifier. -/
  identifierRule : Option RuleId := none
  /-- The kinds that are keywords unless they stand for an identifier. -/
  softKeywords : Std.HashSet TokenKind := ∅
  /-- The category of a directive kind. -/
  directives : Std.HashMap TokenKind Category := ∅
  deriving Inhabited

namespace Lexicon

/-- A line of a lexicon. -/
inductive Entry where
  /-- Kinds of one category. -/
  | bucket (category : Category) (kinds : List TokenKind)
  /-- Kinds that are keywords unless they stand right under a production of `identifierRule`. -/
  | softKeywords (identifierRule : RuleId) (kinds : List TokenKind)
  /-- Kinds of directive tokens, and the category that they have in the mode `preprocessing`. -/
  | directives (category : Category) (kinds : List TokenKind)
  deriving DecidableEq, Repr, Inhabited

/-- Adds an entry: a category given earlier stays, a directive given later replaces, and the
identifier production is the one of the last entry for soft keywords. -/
def add (x : Lexicon) : Entry → Lexicon
  | .bucket category kinds =>
    { x with categories := kinds.foldl (fun m k => m.insertIfNew k category) x.categories }
  | .softKeywords identifierRule kinds =>
    { x with
      identifierRule := some identifierRule
      softKeywords := x.softKeywords.insertMany kinds }
  | .directives category kinds =>
    { x with directives := kinds.foldl (fun m k => m.insert k category) x.directives }

/-- The lexicon with the given entries. -/
def ofEntries (entries : List Entry) : Lexicon :=
  entries.foldl add {}

/-- The category of a kind alone. -/
def lookup (x : Lexicon) (kind : TokenKind) : Category :=
  x.categories.getD kind .any

/-- The category of a kind under a production, soft keywords taken into account. -/
def lookupUnder (x : Lexicon) (kind : TokenKind) (parent : Option RuleId) : Category :=
  if x.softKeywords.contains kind && parent != x.identifierRule then .keyword else x.lookup kind

/-- The category of a token of the given kind that stands right under the given production. -/
def classify (x : Lexicon) (mode : Mode) (kind : TokenKind) (parent : Option RuleId) : Category :=
  match mode with
  | .plain => x.lookup kind
  | .semiLexical => x.lookupUnder kind parent
  | .preprocessing => x.directives[kind]?.getD (x.lookupUnder kind parent)

end Lexicon

end Highlighting

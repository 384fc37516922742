import Highlighting.Category
import Highlighting.Override

/-!
# Highlights

A token record is a token as data files hold it, with its grammatical context. Its offsets are
signed, because some tokens have no place in the source (the end of a file, tokens that a parser
makes up) and are recorded with negative offsets. A highlight is a token record with a category.

## Main definitions

* `TokenRecord`, `TokenRecord.span?`
* `Highlight`, `Highlight.spans`: the places that highlights mark
* `OverrideSet.resolve`: highlights with the overrides of a set applied
-/

namespace Highlighting

/-- A token as data files hold it. -/
structure TokenRecord where
  /-- The first offset, negative if the token has no place. -/
  start : Int
  /-- The last offset, negative if the token has no place. -/
  stop : Int
  /-- The text of the token. -/
  text : String
  /-- What the lexer took it for. -/
  kind : TokenKind
  /-- The innermost production around it. -/
  parent : Option RuleId
  /-- The name of its kind. -/
  name : String
  deriving DecidableEq, Repr, Inhabited

namespace TokenRecord

/-- Where the token stands, if it has a place. -/
def span? (r : TokenRecord) : Option Span :=
  match r.start, r.stop with
  | .ofNat start, .ofNat stop => some ⟨start, stop⟩
  | _, _ => none

/-- The number of characters of the text. -/
def length (r : TokenRecord) : Nat :=
  r.text.length

end TokenRecord

/-- A token record with a category. -/
structure Highlight where
  /-- The token. -/
  record : TokenRecord
  /-- What it is highlighted as. -/
  category : Category
  deriving DecidableEq, Repr, Inhabited

/-- The places that highlights mark, and with what. -/
def Highlight.spans (hs : List Highlight) : List (Span × Category) :=
  hs.filterMap fun h => h.record.span?.map (·, h.category)

/-- Gives each token whose start offset has an override the category of that override. -/
def OverrideSet.resolve (s : OverrideSet) (hs : List Highlight) : List Highlight :=
  hs.map fun h =>
    match h.record.span?.bind fun span => s.get? span.start with
    | none => h
    | some o => { h with category := o.category }

end Highlighting

import Highlighting.Token

/-!
# Vocabularies

Lexers and parsers number token kinds and productions. A vocabulary lists the names that go with
the numbers, from zero on.

## Main definitions

* `Vocabulary.position?`: the number of a name in a listing
* `Vocabulary`, with `kindName?`, `ruleName?` and the two ways back
-/

namespace Highlighting

/-- The names of the token kinds and of the productions of a language, in the order of their
numbers. -/
structure Vocabulary where
  /-- Names of token kinds. -/
  kinds : Array String
  /-- Names of productions. -/
  rules : Array String
  deriving Inhabited

namespace Vocabulary

/-- The number of a name in a listing. -/
def position? (names : Array String) (name : String) : Option UInt16 :=
  (names.findIdx? (· == name)).map Nat.toUInt16

/-- The name of a token kind. -/
def kindName? (v : Vocabulary) (kind : TokenKind) : Option String :=
  v.kinds[kind.toNat]?

/-- The name of a production. -/
def ruleName? (v : Vocabulary) (rule : RuleId) : Option String :=
  v.rules[rule.toNat]?

/-- The token kind with a name. -/
def kind? (v : Vocabulary) (name : String) : Option TokenKind :=
  position? v.kinds name

/-- The production with a name. -/
def rule? (v : Vocabulary) (name : String) : Option RuleId :=
  position? v.rules name

end Vocabulary

end Highlighting

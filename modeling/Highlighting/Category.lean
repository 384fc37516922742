/-!
# Highlight categories

Every token, and through it every character, is given one of twelve categories. A category has
an ordinal, which is how it is written in data files, an upper-case name and, apart from `any`,
a display colour.

## Main definitions

* `Category`: the twelve categories, `any` first
* `Category.ordinal`, `Category.ofOrdinal?`: their numbers, and back
* `Category.name`, `Category.color`: how they are shown
-/

namespace Highlighting

/-- What a piece of source text is highlighted as. `any` stands for text without a category of
its own. -/
inductive Category where
  | any
  | keyword
  | literal
  | charStringLiteral
  | comment
  | classDeclarator
  | functionDeclarator
  | variableDeclarator
  | typeIdentifier
  | functionIdentifier
  | fieldIdentifier
  | annotationDeclarator
  deriving DecidableEq, Repr, Inhabited

namespace Category

/-- Every category, in the order of the ordinals. -/
def all : List Category :=
  [any, keyword, literal, charStringLiteral, comment, classDeclarator, functionDeclarator,
    variableDeclarator, typeIdentifier, functionIdentifier, fieldIdentifier, annotationDeclarator]

/-- The number of a category in data files, from `0` to `11`. -/
def ordinal : Category → Nat
  | any => 0
  | keyword => 1
  | literal => 2
  | charStringLiteral => 3
  | comment => 4
  | classDeclarator => 5
  | functionDeclarator => 6
  | variableDeclarator => 7
  | typeIdentifier => 8
  | functionIdentifier => 9
  | fieldIdentifier => 10
  | annotationDeclarator => 11

/-- The category with the given ordinal, if there is one. -/
def ofOrdinal? : Int → Option Category
  | .ofNat n => all[n]?
  | .negSucc _ => none

@[simp] theorem ofOrdinal?_ordinal (c : Category) : ofOrdinal? c.ordinal = some c := by
  cases c <;> rfl

theorem ordinal_lt (c : Category) : c.ordinal < 12 := by
  cases c <;> decide

theorem ordinal_injective {c d : Category} (h : c.ordinal = d.ordinal) : c = d := by
  have := ofOrdinal?_ordinal c
  rw [h, ofOrdinal?_ordinal] at this
  exact (Option.some.inj this).symm

/-- What is said of a number that is no ordinal. -/
def unknownMessage (n : Int) : String :=
  s!"unknown highlight code ordinal {n}"

/-- The name of a category in reports. -/
def name : Category → String
  | any => "ANY"
  | keyword => "KEYWORD"
  | literal => "LITERAL"
  | charStringLiteral => "CHAR_STRING_LITERAL"
  | comment => "COMMENT"
  | classDeclarator => "CLASS_DECLARATOR"
  | functionDeclarator => "FUNCTION_DECLARATOR"
  | variableDeclarator => "VARIABLE_DECLARATOR"
  | typeIdentifier => "TYPE_IDENTIFIER"
  | functionIdentifier => "FUNCTION_IDENTIFIER"
  | fieldIdentifier => "FIELD_IDENTIFIER"
  | annotationDeclarator => "ANNOTATION_DECLARATOR"

/-- The display colour. Nothing but presentation depends on it. -/
def color : Category → Option String
  | any => none
  | keyword => some "#cc7832"
  | literal => some "#6897bb"
  | charStringLiteral => some "#6a8759"
  | comment => some "#808080"
  | classDeclarator => some "#a9b7c6"
  | functionDeclarator => some "#ffc66d"
  | variableDeclarator => some "#9876aa"
  | typeIdentifier => some "#4e9a06"
  | functionIdentifier => some "#e8bf6a"
  | fieldIdentifier => some "#b389c5"
  | annotationDeclarator => some "#bbb529"

end Category

end Highlighting

import Highlighting.Lexicon
import Highlighting.Language.JavaScript.Rule
import Highlighting.Language.Vocabulary

/-!
# Token kinds of JavaScript

The kinds that the lexer for JavaScript tells apart, numbered in the order of their listing, and the
lexicon that gives them categories. The assignment sign counts as a keyword.
-/

namespace Highlighting

namespace JavaScript

namespace Kind

/-- The names of the token kinds, in the order of their numbers. -/
def names : Array String :=
  #[
    "HashBangLine", "MultiLineComment", "SingleLineComment", "RegularExpressionLiteral",
    "OpenBracket", "CloseBracket", "OpenParen", "CloseParen", "OpenBrace", "TemplateCloseBrace",
    "CloseBrace", "SemiColon", "Comma", "Assign", "QuestionMark", "QuestionMarkDot", "Colon",
    "Ellipsis", "Dot", "PlusPlus", "MinusMinus", "Plus", "Minus", "BitNot", "Not", "Multiply",
    "Divide", "Modulus", "Power", "NullCoalesce", "Hashtag", "RightShiftArithmetic",
    "LeftShiftArithmetic", "RightShiftLogical", "LessThan", "MoreThan", "LessThanEquals",
    "GreaterThanEquals", "Equals", "NotEquals", "IdentityEquals", "IdentityNotEquals", "BitAnd",
    "BitXOr", "BitOr", "And", "Or", "MultiplyAssign", "DivideAssign", "ModulusAssign",
    "PlusAssign", "MinusAssign", "LeftShiftArithmeticAssign", "RightShiftArithmeticAssign",
    "RightShiftLogicalAssign", "BitAndAssign", "BitXorAssign", "BitOrAssign", "PowerAssign",
    "Arrow", "NullLiteral", "BooleanLiteral", "DecimalLiteral", "HexIntegerLiteral",
    "OctalIntegerLiteral", "OctalIntegerLiteral2", "BinaryIntegerLiteral", "BigHexIntegerLiteral",
    "BigOctalIntegerLiteral", "BigBinaryIntegerLiteral", "BigDecimalIntegerLiteral", "Break",
    "Do", "Instanceof", "Typeof", "Case", "Else", "New", "Var", "Catch", "Finally", "Return",
    "Void", "Continue", "For", "Switch", "While", "Debugger", "Function", "This", "With",
    "Default", "If", "Throw", "Delete", "In", "Try", "As", "From", "Class", "Enum", "Extends",
    "Super", "Const", "Export", "Import", "Async", "Await", "Yield", "Implements", "StrictLet",
    "NonStrictLet", "Private", "Public", "Interface", "Package", "Protected", "Static",
    "Identifier", "StringLiteral", "BackTick", "WhiteSpaces", "LineTerminator", "HtmlComment",
    "CDataComment", "UnexpectedCharacter", "TemplateStringStartExpression", "TemplateStringAtom"]

/-- The kind Identifier. -/
def identifier : TokenKind := 118

/-- The kind Function. -/
def function : TokenKind := 88

end Kind

example : Kind.names[Kind.identifier.toNat]? = some "Identifier" := by decide +kernel

example : Kind.names[Kind.function.toNat]? = some "Function" := by decide +kernel

/-- The numbers of the token kinds with the given names. -/
def named (names : List String) : List TokenKind :=
  names.filterMap (Vocabulary.position? Kind.names)

/-- The categories of the token kinds. -/
def lexicon : Lexicon :=
  .ofEntries [
    .bucket .keyword (named [
      "Assign", "Break", "Do", "Instanceof", "Typeof", "Case", "Else", "New", "Var", "Catch",
      "Finally", "Return", "Void", "Continue", "For", "Switch", "While", "Debugger", "Function",
      "This", "With", "Default", "If", "Throw", "Delete", "In", "Try", "Class", "Enum", "Extends",
      "Super", "Const", "Export", "Import", "Async", "Await", "Yield", "Implements", "StrictLet",
      "NonStrictLet", "Private", "Public", "Interface", "Package", "Protected", "Static"]),
    .bucket .literal (named [
      "NullLiteral", "BooleanLiteral", "DecimalLiteral", "HexIntegerLiteral",
      "OctalIntegerLiteral", "OctalIntegerLiteral2", "BinaryIntegerLiteral",
      "BigHexIntegerLiteral", "BigOctalIntegerLiteral", "BigBinaryIntegerLiteral",
      "BigDecimalIntegerLiteral"]),
    .bucket .charStringLiteral (named [
      "StringLiteral", "TemplateStringAtom"]),
    .bucket .comment (named [
      "CDataComment", "HtmlComment", "MultiLineComment", "SingleLineComment"]),
    .softKeywords Rule.identifier (named ["Async", "Yield", "NonStrictLet"])]

end JavaScript

end Highlighting

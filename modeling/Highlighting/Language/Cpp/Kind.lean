import Highlighting.Lexicon
import Highlighting.Language.Vocabulary

/-!
# Token kinds of C++

The kinds that the lexer for C++ tells apart, numbered in the order of their listing, and the
lexicon that gives them categories. White space counts as a keyword and the null pointer as a
literal.
-/

namespace Highlighting

namespace Cpp

namespace Kind

/-- The names of the token kinds, in the order of their numbers. -/
def names : Array String :=
  #[
    "IntegerLiteral", "CharacterLiteral", "FloatingLiteral", "StringLiteral", "BooleanLiteral",
    "PointerLiteral", "UserDefinedLiteral", "MultiLineMacro", "Directive", "Alignas", "Alignof",
    "Asm", "Auto", "Bool", "Break", "Case", "Catch", "Char", "Char16", "Char32", "Class", "Const",
    "Constexpr", "ConstCast", "Continue", "Decltype", "Default", "Delete", "Do", "Double",
    "DynamicCast", "Else", "Enum", "Explicit", "Export", "Extern", "False", "Final", "Float",
    "For", "Friend", "Goto", "If", "Inline", "Int", "Long", "Mutable", "Namespace", "New",
    "Noexcept", "Nullptr", "Operator", "Override", "Private", "Protected", "Public", "Register",
    "ReinterpretCast", "Return", "Short", "Signed", "Sizeof", "Static", "StaticAssert",
    "StaticCast", "Struct", "Switch", "Template", "This", "ThreadLocal", "Throw", "True", "Try",
    "Typedef", "Typeid", "Typename", "Union", "Unsigned", "Using", "Virtual", "Void", "Volatile",
    "Wchar", "While", "LeftParen", "RightParen", "LeftBracket", "RightBracket", "LeftBrace",
    "RightBrace", "Plus", "Minus", "Star", "Div", "Mod", "Caret", "And", "Or", "Tilde", "Not",
    "Assign", "Less", "Greater", "PlusAssign", "MinusAssign", "StarAssign", "DivAssign",
    "ModAssign", "XorAssign", "AndAssign", "OrAssign", "LeftShiftAssign", "RightShiftAssign",
    "Equal", "NotEqual", "LessEqual", "GreaterEqual", "AndAnd", "OrOr", "PlusPlus", "MinusMinus",
    "Comma", "ArrowStar", "Arrow", "Question", "Colon", "Doublecolon", "Semi", "Dot", "DotStar",
    "Ellipsis", "Identifier", "DecimalLiteral", "OctalLiteral", "HexadecimalLiteral",
    "BinaryLiteral", "Integersuffix", "UserDefinedIntegerLiteral", "UserDefinedFloatingLiteral",
    "UserDefinedStringLiteral", "UserDefinedCharacterLiteral", "Whitespace", "Newline",
    "BlockComment", "LineComment"]

/-- The kind Identifier. -/
def identifier : TokenKind := 131

end Kind

example : Kind.names[Kind.identifier.toNat]? = some "Identifier" := by decide +kernel

/-- The numbers of the token kinds with the given names. -/
def named (names : List String) : List TokenKind :=
  names.filterMap (Vocabulary.position? Kind.names)

/-- The categories of the token kinds. -/
def lexicon : Lexicon :=
  .ofEntries [
    .bucket .keyword (named [
      "Alignas", "Alignof", "Asm", "Auto", "Bool", "Break", "Case", "Catch", "Char", "Char16",
      "Char32", "Class", "Const", "Constexpr", "ConstCast", "Continue", "Decltype", "Default",
      "Delete", "Do", "Double", "DynamicCast", "Else", "Enum", "Explicit", "Export", "Extern",
      "False", "Final", "Float", "For", "Friend", "Goto", "If", "Inline", "Int", "Long",
      "Mutable", "Namespace", "New", "Noexcept", "Operator", "Override", "Private", "Protected",
      "Public", "Register", "ReinterpretCast", "Return", "Short", "Signed", "Sizeof", "Static",
      "StaticAssert", "StaticCast", "Struct", "Switch", "Template", "This", "ThreadLocal",
      "Throw", "True", "Try", "Typedef", "Typeid", "Typename", "Union", "Unsigned", "Using",
      "Virtual", "Void", "Volatile", "Wchar", "While", "Question", "Ellipsis", "Integersuffix",
      "Whitespace", "Newline"]),
    .bucket .literal (named [
      "IntegerLiteral", "BooleanLiteral", "PointerLiteral", "FloatingLiteral", "Nullptr",
      "UserDefinedLiteral", "UserDefinedFloatingLiteral", "UserDefinedIntegerLiteral",
      "DecimalLiteral", "OctalLiteral", "HexadecimalLiteral", "BinaryLiteral"]),
    .bucket .charStringLiteral (named [
      "StringLiteral", "CharacterLiteral", "UserDefinedCharacterLiteral",
      "UserDefinedStringLiteral"]),
    .bucket .comment (named [
      "LineComment", "BlockComment", "Directive", "MultiLineMacro"])]

end Cpp

end Highlighting

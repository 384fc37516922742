import Highlighting.Lexicon
import Highlighting.Language.CSharp.Rule
import Highlighting.Language.Vocabulary

/-!
# Token kinds of C#

The kinds that the lexer for C# tells apart, numbered in the order of their listing, and the
lexicon that gives them categories. `false` and `string` are listed twice, and the first listing
decides.
-/

namespace Highlighting

namespace CSharp

namespace Kind

/-- The names of the token kinds, in the order of their numbers. -/
def names : Array String :=
  #[
    "ByteOrderMark", "SingleLineDocComment", "EmptyDelimitedDocComment", "DelimitedDocComment",
    "SingleLineComment", "DelimitedComment", "Whitespaces", "Sharp", "Abstract", "Add", "Alias",
    "Arglist", "As", "Ascending", "Async", "Await", "Base", "Bool", "Break", "By", "Byte", "Case",
    "Catch", "Char", "Checked", "Class", "Const", "Continue", "Decimal", "Default", "Delegate",
    "Descending", "Do", "Double", "Dynamic", "Else", "Enum", "Equals", "Event", "Explicit",
    "Extern", "False", "Finally", "Fixed", "Float", "For", "Foreach", "From", "Get", "Goto",
    "Group", "If", "Implicit", "In", "Int", "Interface", "Internal", "Into", "Is", "Join", "Let",
    "Lock", "Long", "Nameof", "Namespace", "New", "Null", "Object", "On", "Operator", "Orderby",
    "Out", "Override", "Params", "Partial", "Private", "Protected", "Public", "Readonly", "Ref",
    "Remove", "Return", "Sbyte", "Sealed", "Select", "Set", "Short", "Sizeof", "Stackalloc",
    "Static", "String", "Struct", "Switch", "This", "Throw", "True", "Try", "Typeof", "Uint",
    "Ulong", "Unchecked", "Unmanaged", "Unsafe", "Ushort", "Using", "Var", "Virtual", "Void",
    "Volatile", "When", "Where", "While", "Yield", "Identifier", "LiteralAccess",
    "IntegerLiteral", "HexIntegerLiteral", "BinIntegerLiteral", "RealLiteral", "CharacterLiteral",
    "RegularString", "VerbatiumString", "InterpolatedRegularStringStart",
    "InterpolatedVerbatiumStringStart", "OpenBrace", "CloseBrace", "OpenBracket", "CloseBracket",
    "OpenParens", "CloseParens", "Dot", "Comma", "Colon", "Semicolon", "Plus", "Minus", "Star",
    "Div", "Percent", "Amp", "BitwiseOr", "Caret", "Bang", "Tilde", "Assignment", "Lt", "Gt",
    "Interr", "DoubleColon", "OpCoalescing", "OpInc", "OpDec", "OpAnd", "OpOr", "OpPtr", "OpEq",
    "OpNe", "OpLe", "OpGe", "OpAddAssignment", "OpSubAssignment", "OpMultAssignment",
    "OpDivAssignment", "OpModAssignment", "OpAndAssignment", "OpOrAssignment", "OpXorAssignment",
    "OpLeftShift", "OpLeftShiftAssignment", "OpCoalescingAssignment", "OpRange",
    "DoubleCurlyInside", "OpenBraceInside", "RegularCharInside", "VerbatiumDoubleQuoteInside",
    "DoubleQuoteInside", "RegularStringInside", "VerbatiumInsideString", "CloseBraceInside",
    "FormatString", "DirectiveWhitespaces", "Digits", "Define", "Undef", "Elif", "Endif", "Line",
    "Error", "Warning", "Region", "Endregion", "Pragma", "Nullable", "DirectiveHidden",
    "ConditionalSymbol", "DirectiveNewLine", "TextNewLine", "DirectiveSingleLineComment",
    "DirectiveSrc", "InterpolationString"]

end Kind

/-- The numbers of the token kinds with the given names. -/
def named (names : List String) : List TokenKind :=
  names.filterMap (Vocabulary.position? Kind.names)

/-- The categories of the token kinds. -/
def lexicon : Lexicon :=
  .ofEntries [
    .bucket .keyword (named [
      "Abstract", "As", "Base", "Bool", "Break", "Byte", "Case", "Catch", "Char", "Checked",
      "Class", "Const", "Continue", "Decimal", "Default", "Delegate", "Do", "Double", "Else",
      "Enum", "Event", "Explicit", "Extern", "False", "Finally", "Fixed", "Float", "For",
      "Foreach", "Goto", "If", "Implicit", "In", "Int", "Interface", "Internal", "Is", "Lock",
      "Long", "Namespace", "New", "Object", "Operator", "Out", "Override", "Params", "Private",
      "Protected", "Public", "Readonly", "Ref", "Return", "Sbyte", "Sealed", "Short", "Sizeof",
      "Stackalloc", "Static", "String", "Struct", "Switch", "This", "Throw", "Try", "Typeof",
      "Uint", "Ulong", "Unchecked", "Unsafe", "Ushort", "Using", "Virtual", "Void", "Volatile",
      "While"]),
    .bucket .literal (named [
      "LiteralAccess", "IntegerLiteral", "HexIntegerLiteral", "BinIntegerLiteral", "RealLiteral",
      "Null", "True", "False"]),
    .bucket .charStringLiteral (named [
      "String", "CharacterLiteral", "RegularString", "RegularStringInside", "VerbatiumString",
      "VerbatiumInsideString", "InterpolationString", "InterpolatedRegularStringStart",
      "InterpolatedVerbatiumStringStart", "DoubleQuoteInside", "RegularCharInside"]),
    .bucket .comment (named [
      "SingleLineDocComment", "EmptyDelimitedDocComment", "DelimitedDocComment",
      "SingleLineComment", "DelimitedComment"]),
    .softKeywords Rule.identifier (named [
      "Add", "Alias", "Arglist", "Ascending", "Async", "Await", "By", "Descending", "Dynamic",
      "Equals", "From", "Get", "Group", "Into", "Join", "Let", "Nameof", "On", "Orderby",
      "Partial", "Remove", "Select", "Set", "Unmanaged", "Var", "When", "Where", "Yield"]),
    .directives .comment (named ["DirectiveSrc"])]

end CSharp

end Highlighting

import Highlighting.Token

/-!
# Productions of JavaScript

The productions that the rules for JavaScript know, numbered in the order of their listing.
Numbers beyond the list are legal and belong to no production here.
-/

namespace Highlighting

namespace JavaScript

/-- The productions of the JavaScript grammar. The labelled alternatives of an expression are
productions of their own. -/
inductive Rule where
  | program | sourceElement | statement | block | statementList | importStatement
  | exportStatement | variableStatement | variableDeclarationList | variableDeclaration
  | expressionStatement | ifStatement | returnStatement | functionDeclaration | classDeclaration
  | classTail | classElement | methodDefinition | formalParameterList | formalParameterArg
  | functionBody | sourceElements | arrayLiteral | objectLiteral | propertyAssignment
  | propertyExpressionAssignment | propertyShorthand | propertyName | arguments | argument
  | expressionSequence | functionExpression | classExpression | memberIndexExpression
  | memberDotExpression | newExpression | argumentsExpression | importExpression
  | assignmentExpression | thisExpression | identifierExpression | superExpression
  | literalExpression | arrayLiteralExpression | objectLiteralExpression | parenthesizedExpression
  | additiveExpression | multiplicativeExpression | equalityExpression | logicalAndExpression
  | logicalOrExpression | ternaryExpression | unaryMinusExpression | notExpression
  | awaitExpression | yieldExpression | templateStringExpression | assignable | anonymousFunction
  | arrowFunctionParameters | arrowFunctionBody | literal | numericLiteral | identifierName
  | identifier | reservedWord | keyword | getter | setter | eos
  deriving DecidableEq, Repr, Inhabited

namespace Rule

/-- The names of the productions, in the same order. -/
def names : Array String :=
  #[
    "Program", "SourceElement", "Statement", "Block", "StatementList", "ImportStatement",
    "ExportStatement", "VariableStatement", "VariableDeclarationList", "VariableDeclaration",
    "ExpressionStatement", "IfStatement", "ReturnStatement", "FunctionDeclaration",
    "ClassDeclaration", "ClassTail", "ClassElement", "MethodDefinition", "FormalParameterList",
    "FormalParameterArg", "FunctionBody", "SourceElements", "ArrayLiteral", "ObjectLiteral",
    "PropertyAssignment", "PropertyExpressionAssignment", "PropertyShorthand", "PropertyName",
    "Arguments", "Argument", "ExpressionSequence", "FunctionExpression", "ClassExpression",
    "MemberIndexExpression", "MemberDotExpression", "NewExpression", "ArgumentsExpression",
    "ImportExpression", "AssignmentExpression", "ThisExpression", "IdentifierExpression",
    "SuperExpression", "LiteralExpression", "ArrayLiteralExpression", "ObjectLiteralExpression",
    "ParenthesizedExpression", "AdditiveExpression", "MultiplicativeExpression",
    "EqualityExpression", "LogicalAndExpression", "LogicalOrExpression", "TernaryExpression",
    "UnaryMinusExpression", "NotExpression", "AwaitExpression", "YieldExpression",
    "TemplateStringExpression", "Assignable", "AnonymousFunction", "ArrowFunctionParameters",
    "ArrowFunctionBody", "Literal", "NumericLiteral", "IdentifierName", "Identifier",
    "ReservedWord", "Keyword", "Getter", "Setter", "Eos"]

/-- The number of a production. -/
def id (r : Rule) : RuleId :=
  r.ctorIdx.toUInt16

/-- The production with the given number, if there is one. -/
def ofId? (n : RuleId) : Option Rule :=
  if n.toNat < 70 then some (ofNat n.toNat) else none

instance : Coe Rule RuleId := ⟨id⟩

end Rule

end JavaScript

end Highlighting

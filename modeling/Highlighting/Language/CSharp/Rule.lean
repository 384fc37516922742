import Highlighting.Token

/-!
# Productions of C#

The productions that the rules for C# know, numbered in the order of their listing. Numbers beyond
the list are legal and belong to no production here.
-/

namespace Highlighting

namespace CSharp

/-- The productions of the C# grammar. An identifier is a production here and not a bare token. -/
inductive Rule where
  | compilationUnit | namespaceOrTypeName | type | identifier | qualifiedIdentifier
  | qualifiedAliasMember | usingDirective | usingAliasDirective | namespaceDeclaration
  | namespaceBody | namespaceMemberDeclarations | namespaceMemberDeclaration | typeDeclaration
  | classDefinition | structDefinition | interfaceDefinition | enumDefinition | delegateDefinition
  | classBody | classMemberDeclarations | classMemberDeclaration | commonMemberDeclaration
  | typedMemberDeclaration | methodDeclaration | methodMemberName | fieldDeclaration
  | variableDeclarators | variableDeclarator | constantDeclaration | constantDeclarators
  | constantDeclarator | localVariableDeclaration | localVariableDeclarator
  | fixedPointerDeclarators | fixedPointerDeclarator | letClause | queryBody
  | localFunctionDeclaration | localFunctionHeader | constructorDeclaration | destructorDefinition
  | eventDeclaration | memberName | typeParameterList | typeParameter | variantTypeParameterList
  | variantTypeParameter | typeParameterConstraintsClauses | typeParameterConstraintsClause
  | typeArgumentList | labeledStatement | statement | block | statementList | embeddedStatement
  | expression | primaryExpression | primaryExpressionStart | memberAccess | methodInvocation
  | argumentList | argument | formalParameterList | fixedParameter | literal
  | objectCreationExpression
  deriving DecidableEq, Repr, Inhabited

namespace Rule

/-- The names of the productions, in the same order. -/
def names : Array String :=
  #[
    "CompilationUnit", "NamespaceOrTypeName", "Type", "Identifier", "QualifiedIdentifier",
    "QualifiedAliasMember", "UsingDirective", "UsingAliasDirective", "NamespaceDeclaration",
    "NamespaceBody", "NamespaceMemberDeclarations", "NamespaceMemberDeclaration",
    "TypeDeclaration", "ClassDefinition", "StructDefinition", "InterfaceDefinition",
    "EnumDefinition", "DelegateDefinition", "ClassBody", "ClassMemberDeclarations",
    "ClassMemberDeclaration", "CommonMemberDeclaration", "TypedMemberDeclaration",
    "MethodDeclaration", "MethodMemberName", "FieldDeclaration", "VariableDeclarators",
    "VariableDeclarator", "ConstantDeclaration", "ConstantDeclarators", "ConstantDeclarator",
    "LocalVariableDeclaration", "LocalVariableDeclarator", "FixedPointerDeclarators",
    "FixedPointerDeclarator", "LetClause", "QueryBody", "LocalFunctionDeclaration",
    "LocalFunctionHeader", "ConstructorDeclaration", "DestructorDefinition", "EventDeclaration",
    "MemberName", "TypeParameterList", "TypeParameter", "VariantTypeParameterList",
    "VariantTypeParameter", "TypeParameterConstraintsClauses", "TypeParameterConstraintsClause",
    "TypeArgumentList", "LabeledStatement", "Statement", "Block", "StatementList",
    "EmbeddedStatement", "Expression", "PrimaryExpression", "PrimaryExpressionStart",
    "MemberAccess", "MethodInvocation", "ArgumentList", "Argument", "FormalParameterList",
    "FixedParameter", "Literal", "ObjectCreationExpression"]

/-- The number of a production. -/
def id (r : Rule) : RuleId :=
  r.ctorIdx.toUInt16

/-- The production with the given number, if there is one. -/
def ofId? (n : RuleId) : Option Rule :=
  if n.toNat < 66 then some (ofNat n.toNat) else none

instance : Coe Rule RuleId := ⟨id⟩

end Rule

end CSharp

end Highlighting

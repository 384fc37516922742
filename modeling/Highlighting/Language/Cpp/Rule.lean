import Highlighting.Token

/-!
# Productions of C++

The productions that the rules for C++ know, numbered in the order of their listing. Numbers beyond
the list are legal and belong to no production here.
-/

namespace Highlighting

namespace Cpp

/-- The productions of the C++ grammar. -/
inductive Rule where
  | translationUnit | primaryExpression | idExpression | unqualifiedId | qualifiedId
  | nestedNameSpecifier | postfixExpression | expressionList | unaryExpression
  | assignmentExpression | expression | statement | expressionStatement | compoundStatement
  | declarationStatement | declarationseq | declaration | blockDeclaration | simpleDeclaration
  | declSpecifier | declSpecifierSeq | typeSpecifier | trailingTypeSpecifier | simpleTypeSpecifier
  | theTypeName | enumSpecifier | enumHead | namespaceDefinition | initDeclaratorList
  | initDeclarator | declarator | pointerDeclarator | noPointerDeclarator
  | parametersAndQualifiers | declaratorid | theTypeId | parameterDeclarationClause
  | parameterDeclaration | functionDefinition | functionBody | initializer
  | braceOrEqualInitializer | initializerClause | className | classSpecifier | classHead
  | classHeadName | classKey | memberSpecification | memberdeclaration | memberDeclaratorList
  | memberDeclarator | baseClause | baseSpecifierList | baseSpecifier | classOrDeclType
  | baseTypeSpecifier | templateDeclaration | templateparameterList | templateParameter
  | typeParameter | simpleTemplateId | templateId | templateName | templateArgumentList
  | templateArgument | explicitSpecialization | literal
  deriving DecidableEq, Repr, Inhabited

namespace Rule

/-- The names of the productions, in the same order. -/
def names : Array String :=
  #[
    "TranslationUnit", "PrimaryExpression", "IdExpression", "UnqualifiedId", "QualifiedId",
    "NestedNameSpecifier", "PostfixExpression", "ExpressionList", "UnaryExpression",
    "AssignmentExpression", "Expression", "Statement", "ExpressionStatement", "CompoundStatement",
    "DeclarationStatement", "Declarationseq", "Declaration", "BlockDeclaration",
    "SimpleDeclaration", "DeclSpecifier", "DeclSpecifierSeq", "TypeSpecifier",
    "TrailingTypeSpecifier", "SimpleTypeSpecifier", "TheTypeName", "EnumSpecifier", "EnumHead",
    "NamespaceDefinition", "InitDeclaratorList", "InitDeclarator", "Declarator",
    "PointerDeclarator", "NoPointerDeclarator", "ParametersAndQualifiers", "Declaratorid",
    "TheTypeId", "ParameterDeclarationClause", "ParameterDeclaration", "FunctionDefinition",
    "FunctionBody", "Initializer", "BraceOrEqualInitializer", "InitializerClause", "ClassName",
    "ClassSpecifier", "ClassHead", "ClassHeadName", "ClassKey", "MemberSpecification",
    "Memberdeclaration", "MemberDeclaratorList", "MemberDeclarator", "BaseClause",
    "BaseSpecifierList", "BaseSpecifier", "ClassOrDeclType", "BaseTypeSpecifier",
    "TemplateDeclaration", "TemplateparameterList", "TemplateParameter", "TypeParameter",
    "SimpleTemplateId", "TemplateId", "TemplateName", "TemplateArgumentList", "TemplateArgument",
    "ExplicitSpecialization", "Literal"]

/-- The number of a production. -/
def id (r : Rule) : RuleId :=
  r.ctorIdx.toUInt16

/-- The production with the given number, if there is one. -/
def ofId? (n : RuleId) : Option Rule :=
  if n.toNat < 68 then some (ofNat n.toNat) else none

instance : Coe Rule RuleId := ⟨id⟩

end Rule

end Cpp

end Highlighting

import Highlighting.Catalog
import Highlighting.Language.CSharp.Rule
import Highlighting.Scan

/-!
# Rules for C#

What is marked beneath the productions of the C# grammar. Identifiers are productions, so most
rules look for those. A rule that does not find the shape it expects marks nothing.

## Main definitions

* `CSharp.catalog`: the rules, by production
* `CSharp.Chain`, `CSharp.primaryExpressionMarks`: what is called in a chain of accesses and calls
-/

namespace Highlighting

namespace CSharp

/-- Marks every outermost identifier beneath a node. -/
def identifierMarks (origin : Rule) (category : Category) (t : Tree) : List Override :=
  (Scan.production Rule.identifier).marks origin category t

/-- Marks the first identifier beneath a node. -/
def firstIdentifierMarks (origin : Rule) (category : Category) (t : Tree) : List Override :=
  { Scan.production Rule.identifier with firstOnly := true }.marks origin category t

/-- Marks the first identifier among the children of a node. -/
def childIdentifierMarks (origin : Rule) (category : Category) (t : Tree) : List Override :=
  ((t.firstChildOf? Rule.identifier).bind (Override.ofTree? · category origin)).toList

/-- Every segment of the name of a namespace is marked. -/
def namespaceDeclarationMarks (t : Tree) : List Override :=
  (t.firstChildOf? Rule.qualifiedIdentifier).elim []
    (identifierMarks .namespaceDeclaration .classDeclarator)

/-- Every identifier in the name of an event is marked, nested ones included. -/
def eventDeclarationMarks (t : Tree) : List Override :=
  match t.firstChildOf? Rule.memberName with
  | none => []
  | some name =>
    (name.descendantsOf Rule.identifier).filterMap
      (Override.ofTree? · .classDeclarator Rule.eventDeclaration)

/-- The member behind the alias of a qualified name. -/
def qualifiedAliasMemberMarks (t : Tree) : List Override :=
  ((t.nthChildOf? Rule.identifier 1).bind
    (Override.ofTree? · .fieldIdentifier Rule.qualifiedAliasMember)).toList

/-- What is called by an invocation right behind an element of a chain: the element itself, or
the name alone if the element is the start of the chain and has the form `alias::name`. -/
def subject (element : Tree) : Tree :=
  if element.isRule Rule.primaryExpressionStart then
    let alias? := (element.child? 0).filter (·.isRule Rule.qualifiedAliasMember)
    let name? := (alias?.bind (·.child? 2)).filter (·.isRule Rule.identifier)
    name?.getD element
  else
    element

/-- What is marked beneath the subject of an invocation. -/
def subjectMarks (t : Tree) : List Override :=
  if t.isAnyRule [Rule.memberAccess, Rule.qualifiedAliasMember, Rule.primaryExpressionStart] then
    identifierMarks .primaryExpression .functionIdentifier t
  else if t.isRule Rule.identifier then
    (Override.ofTree? t .functionIdentifier Rule.methodInvocation).toList
  else
    []

/-- A chain of accesses and calls up to some element. -/
structure Chain where
  /-- What each element so far gives an invocation right behind it to call. -/
  fringe : Array Tree := #[]
  /-- What has been marked so far. -/
  marks : Array Override := #[]

/-- The next element of a chain. If it is an invocation, it calls the last of the fringe. -/
def Chain.add (chain : Chain) (element : Tree) : Chain where
  fringe := chain.fringe.push (subject element)
  marks :=
    if element.isRule Rule.methodInvocation then
      match chain.fringe.back? with
      | none => chain.marks
      | some last => chain.marks ++ subjectMarks last
    else
      chain.marks

/-- In a chain of accesses and calls, what comes right before each invocation is what is called. -/
def primaryExpressionMarks (t : Tree) : List Override :=
  (t.children.foldl Chain.add {}).marks.toList

/-- The rules for C#. -/
def catalog : Catalog where
  name := "csharp"
  marks s :=
    match s.tree.rule?.bind Rule.ofId? with
    | some .localVariableDeclarator =>
      firstIdentifierMarks .localVariableDeclarator .variableDeclarator s.tree
    | some .variableDeclarator =>
      firstIdentifierMarks .variableDeclarator .variableDeclarator s.tree
    | some .constantDeclarator =>
      firstIdentifierMarks .constantDeclarator .variableDeclarator s.tree
    | some .fixedPointerDeclarator =>
      firstIdentifierMarks .fixedPointerDeclarator .variableDeclarator s.tree
    | some .letClause => firstIdentifierMarks .letClause .variableDeclarator s.tree
    | some .classDefinition => firstIdentifierMarks .classDefinition .classDeclarator s.tree
    | some .structDefinition => firstIdentifierMarks .structDefinition .classDeclarator s.tree
    | some .interfaceDefinition =>
      firstIdentifierMarks .interfaceDefinition .classDeclarator s.tree
    | some .enumDefinition => firstIdentifierMarks .enumDefinition .classDeclarator s.tree
    | some .namespaceDeclaration => namespaceDeclarationMarks s.tree
    | some .delegateDefinition =>
      firstIdentifierMarks .delegateDefinition .functionDeclarator s.tree
    | some .destructorDefinition =>
      firstIdentifierMarks .destructorDefinition .functionDeclarator s.tree
    | some .methodMemberName => firstIdentifierMarks .methodMemberName .functionDeclarator s.tree
    | some .localFunctionHeader =>
      childIdentifierMarks .localFunctionHeader .functionDeclarator s.tree
    | some .constructorDeclaration =>
      childIdentifierMarks .constructorDeclaration .functionDeclarator s.tree
    | some .labeledStatement => childIdentifierMarks .labeledStatement .functionDeclarator s.tree
    | some .eventDeclaration => eventDeclarationMarks s.tree
    | some .namespaceOrTypeName => identifierMarks .namespaceOrTypeName .typeIdentifier s.tree
    | some .variantTypeParameter =>
      firstIdentifierMarks .variantTypeParameter .typeIdentifier s.tree
    | some .typeParameter => firstIdentifierMarks .typeParameter .typeIdentifier s.tree
    | some .typeParameterConstraintsClause =>
      childIdentifierMarks .typeParameterConstraintsClause .typeIdentifier s.tree
    | some .usingAliasDirective =>
      childIdentifierMarks .usingAliasDirective .typeIdentifier s.tree
    | some .primaryExpression => primaryExpressionMarks s.tree
    | some .memberAccess => childIdentifierMarks .memberAccess .fieldIdentifier s.tree
    | some .qualifiedAliasMember => qualifiedAliasMemberMarks s.tree
    | _ => []

end CSharp

end Highlighting

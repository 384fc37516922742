import Highlighting.Catalog
import Highlighting.Language.JavaScript.Kind
import Highlighting.Language.JavaScript.Rule
import Highlighting.Scan

/-!
# Rules for JavaScript

What is marked beneath the productions of the JavaScript grammar. A rule that does not find the
shape it expects marks nothing.

## Main definitions

* `JavaScript.catalog`: the rules, by production
* `JavaScript.classDeclarationMarks`, `JavaScript.memberDotExpressionMarks`: the rules whose scans
  choose the category match by match
-/

namespace Highlighting

namespace JavaScript

/-- The alternatives of an expression. -/
def expressions : List Rule :=
  [.functionExpression, .classExpression, .memberIndexExpression, .memberDotExpression,
    .newExpression, .argumentsExpression, .importExpression, .assignmentExpression,
    .thisExpression, .identifierExpression, .superExpression, .literalExpression,
    .arrayLiteralExpression, .objectLiteralExpression, .parenthesizedExpression,
    .additiveExpression, .multiplicativeExpression, .equalityExpression, .logicalAndExpression,
    .logicalOrExpression, .ternaryExpression, .unaryMinusExpression, .notExpression,
    .awaitExpression, .yieldExpression, .templateStringExpression]

/-- The first identifier of a class declaration names it. It names a function if the word
`function` stands before it. -/
def classDeclarationMarks (t : Tree) : List Override :=
  let scan : Scan :=
    { productions := [Rule.identifier], terminal := some Kind.function, firstOnly := true }
  (scan.run Rule.classDeclaration answer false t).1
where
  /-- The state is whether the word `function` has been passed. -/
  answer (afterFunction : Bool) : Hit → Option Category × Bool
    | .terminal _ => (none, true)
    | .production _ =>
      (some (if afterFunction then .functionDeclarator else .classDeclarator), afterFunction)

/-- Where a member access is called or constructed, the first name or identifier beneath it is
marked: a name for what is done with it, a bare identifier as a type. Elsewhere, an import apart,
every name is a field. -/
def memberDotExpressionMarks (s : Site) : List Override :=
  if s.isUnder Rule.argumentsExpression || s.isUnder Rule.newExpression then
    let scan : Scan :=
      { productions := [Rule.identifierName]
        terminal := some Kind.identifier
        firstOnly := true }
    (scan.run Rule.memberDotExpression answer () s.tree).1
  else if !s.isUnder Rule.importExpression then
    (Scan.production Rule.identifierName).marks Rule.memberDotExpression .fieldIdentifier s.tree
  else
    []
where
  /-- Keeps no state. -/
  answer (_ : Unit) : Hit → Option Category × Unit
    | .terminal _ => (some .typeIdentifier, ())
    | .production _ =>
      (some (if s.isUnder Rule.newExpression then .typeIdentifier else .functionIdentifier), ())

/-- Marks the identifiers of each child that is a bare name. -/
def calleeMarks (category : Category) (t : Tree) : List Override :=
  (t.childrenOf Rule.identifierExpression).flatMap fun expression =>
    match (expression.child? 0).filter (·.isRule Rule.identifier) with
    | none => []
    | some name => (Scan.token Kind.identifier).marks Rule.identifier category name

/-- The rules for JavaScript. -/
def catalog : Catalog where
  name := "javascript"
  marks s :=
    match s.tree.rule?.bind Rule.ofId? with
    | some .classDeclaration => classDeclarationMarks s.tree
    | some .variableDeclaration =>
      { Scan.production Rule.assignable with firstOnly := true }.marks Rule.variableDeclaration
        .variableDeclarator s.tree
    | some .methodDefinition =>
      (Scan.production Rule.propertyName).marks Rule.methodDefinition .functionDeclarator s.tree
    -- Parameters and body are not excepted.
    | some .functionDeclaration =>
      (Scan.production Rule.identifier).marks Rule.functionDeclaration .functionDeclarator s.tree
    | some .classTail =>
      { productions := expressions.map Rule.id : Scan }.marks Rule.classTail .typeIdentifier
        s.tree
    | some .propertyExpressionAssignment =>
      (Scan.production Rule.propertyName).marks Rule.propertyExpressionAssignment
        .fieldIdentifier s.tree
    | some .memberDotExpression => memberDotExpressionMarks s
    | some .argumentsExpression => calleeMarks .functionIdentifier s.tree
    | some .newExpression => calleeMarks .typeIdentifier s.tree
    | _ => []

end JavaScript

end Highlighting

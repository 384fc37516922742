import Highlighting.Catalog
import Highlighting.Language.Cpp.Kind
import Highlighting.Language.Cpp.Rule
import Highlighting.Scan

/-!
# Rules for C++

What is marked beneath the productions of the C++ grammar. A rule that does not find the shape it
expects marks nothing.

## Main definitions

* `Cpp.catalog`: the rules, by production
* `Cpp.postfixExpressionMarks`: callees and accessed members, the one rule with several cases
* `Cpp.templateId?`: the template id that a callee wraps
-/

namespace Highlighting

namespace Cpp

/-- The texts of the member access operators. -/
def accessors : List String := [".", "->"]

/-- A class name is a declarator in the head of a class and a type elsewhere, unless it is a
leading segment of a nested name. -/
def classNameMarks (s : Site) : List Override :=
  if s.isUnder Rule.classHeadName then
    marks .classDeclarator
  else if s.isUnder Rule.theTypeName && !s.isTwoUnder Rule.nestedNameSpecifier then
    marks .typeIdentifier
  else
    []
where
  /-- Marks the first identifier. -/
  marks (category : Category) : List Override :=
    { Scan.token Kind.identifier with firstOnly := true }.marks Rule.className category s.tree

/-- Marks the declarators beneath each of the items of a declarator list, if that is the second
child of the declaration. -/
def declaratorListMarks (origin list item : Rule) (t : Tree) : List Override :=
  match (t.child? 1).filter (·.isRule list) with
  | none => []
  | some declarators =>
    (declarators.childrenOf item).flatMap
      ((Scan.production Rule.declarator).marks origin .variableDeclarator)

/-- Variables are marked in block scope only; a declaration in namespace scope stands two levels
beneath a `declaration`. -/
def simpleDeclarationMarks (s : Site) : List Override :=
  if s.isTwoUnder Rule.declaration || !s.tree.hasChildOf Rule.declSpecifierSeq then []
  else declaratorListMarks .simpleDeclaration .initDeclaratorList .initDeclarator s.tree

/-- A declarator with parameters declares a function. -/
def noPointerDeclaratorMarks (t : Tree) : List Override :=
  if t.hasChildOf Rule.parametersAndQualifiers then
    (Scan.production Rule.noPointerDeclarator).marks Rule.noPointerDeclarator
      .functionDeclarator t
  else
    []

/-- Follows first children, at most `n` of them, to a template id. A token on the way ends the
search. -/
def templateId? : Nat → Option Tree → Option Tree
  | 0, _ => none
  | _, none => none
  | n + 1, some t =>
    if t.isLeaf then none
    else if t.isRule Rule.simpleTemplateId then some t
    else templateId? n (t.child? 0)

/-- How many productions may wrap the template id of a callee. -/
def maxWrappers : Nat := 10

/-- The template id of a callee that is a template. -/
def templatedCallee? (t : Tree) : Option Tree :=
  templateId? maxWrappers (t.child? 0)

/-- Marks productions of `r` beneath a postfix expression. -/
def operandMarks (r : Rule) (category : Category) (t : Tree) : List Override :=
  (Scan.production r).marks Rule.postfixExpression category t

/-- What is marked beneath the callee of a call: the names of the template if it is one, and
otherwise the primary expression and the name. -/
def calleeMarks (t : Tree) : List Override :=
  match templatedCallee? t with
  | some template => operandMarks .templateName .functionIdentifier template
  | none =>
    operandMarks .primaryExpression .functionIdentifier t
      ++ operandMarks .idExpression .functionIdentifier t

/-- What is marked beneath the first operand of a postfix operator, given the enclosing
expression: its second child is the operator and there has to be a third one. -/
def firstOperandMarks (t parent : Tree) : List Override :=
  if parent.isRule Rule.postfixExpression && 3 ≤ parent.children.length then
    match parent.child? 1 with
    | none => []
    | some operator =>
      if operator.isAnyText ["("] then calleeMarks t
      else if operator.isAnyText accessors then operandMarks .idExpression .fieldIdentifier t
      else []
  else
    []

/-- A postfix expression marks the accessed member right under a unary expression, and the callee
or the accessed member where it is the first operand of another postfix expression. -/
def postfixExpressionMarks (s : Site) : List Override :=
  let accessed :=
    if s.isUnder Rule.unaryExpression && (s.tree.child? 1).any (·.isAnyText accessors) then
      operandMarks .idExpression .fieldIdentifier s.tree
    else
      []
  accessed ++ (s.parent?.elim [] fun parent => firstOperandMarks s.tree parent.tree)

/-- The parameter of a template is named by its last identifier. -/
def typeParameterMarks (s : Site) : List Override :=
  if s.isUnder Rule.templateParameter then
    { Scan.token Kind.identifier with reversed := true, firstOnly := true }.marks
      Rule.typeParameter .typeIdentifier s.tree
  else
    []

/-- An enumeration is named by the last identifier of its head. -/
def enumHeadMarks (t : Tree) : List Override :=
  { Scan.token Kind.identifier with reversed := true, firstOnly := true }.marks
    Rule.enumHead .classDeclarator t

/-- What follows the first `::` of a qualified name is a field. -/
def qualifiedIdMarks (t : Tree) : List Override :=
  let scope := (t.child? 0).filter (·.isRule Rule.nestedNameSpecifier)
  if (scope.bind (·.child? 1)).any (·.isAnyText ["::"]) then
    (Scan.production Rule.unqualifiedId).marks Rule.qualifiedId .fieldIdentifier t
  else
    []

/-- The rules for C++. -/
def catalog : Catalog where
  name := "cpp"
  marks s :=
    match s.tree.rule?.bind Rule.ofId? with
    | some .className => classNameMarks s
    | some .memberdeclaration =>
      declaratorListMarks .memberdeclaration .memberDeclaratorList .memberDeclarator s.tree
    | some .simpleDeclaration => simpleDeclarationMarks s
    | some .noPointerDeclarator => noPointerDeclaratorMarks s.tree
    | some .postfixExpression => postfixExpressionMarks s
    | some .baseTypeSpecifier =>
      (Scan.production Rule.classOrDeclType).marks Rule.baseTypeSpecifier .typeIdentifier s.tree
    | some .typeParameter => typeParameterMarks s
    | some .templateName =>
      (Scan.token Kind.identifier).marks Rule.templateName .typeIdentifier s.tree
    | some .enumHead => enumHeadMarks s.tree
    | some .qualifiedId => qualifiedIdMarks s.tree
    | _ => []

end Cpp

end Highlighting

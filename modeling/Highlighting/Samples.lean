import Highlighting.Highlighter

/-!
# Sample files

Two small C++ files with the events that a parser reports for them, and a parser that knows a list
of samples and nothing else. In the second file the name of the class and the name of the template
begin at the same offset, so the rule of the enclosing production has to win.

## Main definitions

* `Sample`, `Sample.parser`
* `Sample.cpp`: the two files
-/

namespace Highlighting

/-- A source text with the events that a parser reports for it. -/
structure Sample where
  /-- The source. -/
  source : String
  /-- The events. -/
  events : List Event
  deriving Inhabited

namespace Sample

/-- Productions nested in one another, the outermost first. -/
def nested (rules : List Cpp.Rule) (inner : List Event) : List Event :=
  rules.foldr (fun (r : Cpp.Rule) events => .enter r :: events ++ [.leave]) inner

/-- A token whose kind is given by name. -/
def word (kind text : String) : List Event :=
  (Cpp.named [kind]).map fun kind => .token { kind, text }

/-- A declaration of a variable in block scope. -/
def intDeclaration : Sample where
  source := "int x = 1;"
  events :=
    nested [.statement, .declarationStatement, .blockDeclaration, .simpleDeclaration]
      (nested
          [.declSpecifierSeq, .declSpecifier, .typeSpecifier, .trailingTypeSpecifier,
            .simpleTypeSpecifier]
          (word "Int" "int")
        ++ nested [.initDeclaratorList, .initDeclarator]
            (nested
                [.declarator, .pointerDeclarator, .noPointerDeclarator, .declaratorid,
                  .idExpression, .unqualifiedId]
                (word "Identifier" "x")
              ++ nested [.initializer, .braceOrEqualInitializer]
                  (word "Assign" "="
                    ++ nested [.initializerClause, .literal] (word "IntegerLiteral" "1")))
        ++ word "Semi" ";")

/-- An explicit specialization of a class template. -/
def classSpecialization : Sample where
  source := "template<> class Foo<int> \x7b\x7d;"
  events :=
    nested [.translationUnit, .declarationseq, .declaration, .explicitSpecialization]
      (word "Template" "template" ++ word "Less" "<" ++ word "Greater" ">"
        ++ nested [.declaration, .blockDeclaration, .simpleDeclaration]
            (nested [.declSpecifierSeq, .declSpecifier, .typeSpecifier, .classSpecifier]
                (nested [.classHead]
                    (nested [.classKey] (word "Class" "class")
                      ++ nested [.classHeadName, .className, .simpleTemplateId]
                          (nested [.templateName] (word "Identifier" "Foo")
                            ++ word "Less" "<"
                            ++ nested [.templateArgumentList, .templateArgument, .theTypeId]
                                (word "Int" "int")
                            ++ word "Greater" ">"))
                  ++ word "LeftBrace" "\x7b" ++ word "RightBrace" "\x7d")
              ++ word "Semi" ";"))

/-- Every sample. -/
def cpp : List Sample := [intDeclaration, classSpecialization]

/-- A parser that knows the given samples. -/
def parser (samples : List Sample) : Parser := fun source =>
  match samples.find? (·.source == source) with
  | none => .error "no fixture for source"
  | some s => (Parse.ofEvents s.source s.events).mapError Parse.Error.message

end Sample

end Highlighting

import Highlighting.Category
import Highlighting.Text.Numeral

/-!
# Evaluation tasks

A task fixes how finely two classifications are compared. Each category belongs to a tier, the
coarsest task that tells it apart; a task keeps the categories of its own tier and of every
coarser one and merges all others into `any`. In data files and on the command line a task is
known by an integer code.

## Main definitions

* `Task`: the four tasks, from the coarsest to the finest
* `Category.tier`: the coarsest task that tells a category apart
* `Task.coarsen`: a category as the task sees it
* `Task.ofCode?`, `Task.parse`: tasks from their codes and names

## Main results

* `Task.coarsen_coarsen`: coarsening twice is coarsening once with the coarser of the two tasks
-/

namespace Highlighting

/-- A granularity of comparison. -/
inductive Task where
  /-- Lexical categories only. -/
  | lexical
  /-- Also class, function and variable declarators. -/
  | declarators
  /-- Also type and function identifiers. -/
  | identifiers
  /-- Every category. -/
  | full
  deriving DecidableEq, Repr, Inhabited

/-- The coarsest task that tells a category apart from `any`, and for `any` itself the coarsest
task there is. -/
def Category.tier : Category → Task
  | .any | .keyword | .literal | .charStringLiteral | .comment => .lexical
  | .classDeclarator | .functionDeclarator | .variableDeclarator => .declarators
  | .typeIdentifier | .functionIdentifier => .identifiers
  | .fieldIdentifier | .annotationDeclarator => .full

namespace Task

/-- Every task, from the coarsest to the finest. -/
def all : List Task :=
  [lexical, declarators, identifiers, full]

/-- How fine a task is: `0` for the coarsest. -/
def rank : Task → Nat
  | lexical => 0
  | declarators => 1
  | identifiers => 2
  | full => 3

/-- A task keeps the categories of its own tier and of every coarser one. -/
def keeps (t : Task) (c : Category) : Bool :=
  c.tier.rank ≤ t.rank

/-- The category as the task sees it: itself if the task keeps it, `any` otherwise. -/
def coarsen (t : Task) (c : Category) : Category :=
  if t.keeps c then c else .any

/-- The categories that a task can tell apart. -/
def categories (t : Task) : List Category :=
  Category.all.filter t.keeps

/-- Coarsening twice is coarsening once, with the coarser of the two tasks. -/
theorem coarsen_coarsen {s t : Task} (h : s.rank ≤ t.rank) (c : Category) :
    s.coarsen (t.coarsen c) = s.coarsen c := by
  revert h
  cases s <;> cases t <;> cases c <;> decide

/-! ### Codes and names -/

/-- The integer code of a task. -/
def code : Task → Nat
  | lexical => 28
  | declarators => 37
  | identifiers => 55
  | full => 66

/-- The task with the given code, if there is one. -/
def ofCode? (n : Nat) : Option Task :=
  all.find? fun t => t.code == n

/-- The largest number that can be written where a code is expected. -/
def maxCode : Nat := Nat.pow 2 32 - 1

/-- What is said of a number that is no task's code. -/
def unknownMessage (n : Nat) : String :=
  s!"unknown task code {n}, expected one of 28, 37, 55, 66"

/-- The task that a text names, by its name or by its code. -/
def parse (s : String) : Except String Task :=
  match s with
  | "lexical" => .ok lexical
  | "declarators" => .ok declarators
  | "identifiers" => .ok identifiers
  | "full" => .ok full
  | _ =>
    match (Text.natural? s.toList).filter (· ≤ maxCode) with
    | none => .error s!"invalid task '{s}'"
    | some n => (ofCode? n).elim (.error (unknownMessage n)) .ok

end Task

end Highlighting

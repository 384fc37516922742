import Highlighting.Override

/-!
# Scans

Most rules look beneath a production for productions or tokens of a certain sort and mark them. A
scan visits everything strictly beneath a node, parents before children and siblings from left to
right, or from right to left if it is reversed. Each match is offered to an answer function, which
may keep a state of its own. A match that is given a category is marked, and nothing beneath it is
visited; a match that is declined is passed like any other node. A scan for the first match only
ends with the first mark it makes; a match without tokens cannot be marked and does not end it.

## Main definitions

* `Scan`: what to look for and in which order
* `Hit`: a match, as it is offered
* `Scan.run`: the marks that a scan makes, in order, and the final state of the answer function
* `Scan.marks`: the marks of a scan that gives every match the same category
* `Scan.apply`, `Scan.assign`: the same with the marks inserted in a set, and counted
-/

namespace Highlighting

/-- What to look for beneath a node. -/
structure Scan where
  /-- Productions that match. -/
  productions : List RuleId := []
  /-- The kind of the tokens that match, if any do. -/
  terminal : Option TokenKind := none
  /-- Whether siblings are visited from right to left. -/
  reversed : Bool := false
  /-- Whether the scan ends with the first mark it makes. -/
  firstOnly : Bool := false
  deriving DecidableEq, Repr, Inhabited

/-- A node that a scan has matched. -/
inductive Hit where
  /-- A production. -/
  | production (tree : Tree)
  /-- A token. -/
  | terminal (tree : Tree)

/-- The node of a match. -/
def Hit.tree : Hit → Tree
  | production t => t
  | terminal t => t

namespace Scan

/-- Looks for productions of `r`. -/
def production (r : RuleId) : Scan := { productions := [r] }

/-- Looks for tokens of kind `k`. -/
def token (k : TokenKind) : Scan := { terminal := some k }

/-- Whether and how a node matches. -/
def hit? (scan : Scan) (t : Tree) : Option Hit :=
  match t with
  | .leaf _ token => if scan.terminal == some token.kind then some (.terminal t) else none
  | .node _ rule _ _ => if scan.productions.contains rule then some (.production t) else none

/-- Siblings in the order in which the scan visits them. -/
def inOrder (scan : Scan) (ts : List Tree) : List Tree :=
  if scan.reversed then ts.reverse else ts

@[simp] theorem sizes_inOrder (scan : Scan) (ts : List Tree) :
    Tree.sizes (scan.inOrder ts) = Tree.sizes ts := by
  unfold inOrder
  split <;> simp

/-- Scans the nodes that are still to visit. The marks made so far are listed latest first. -/
def search {σ : Type} (scan : Scan) (origin : RuleId) (answer : σ → Hit → Option Category × σ) :
    List Tree → σ → List Override → List Override × σ
  | [], state, made => (made.reverse, state)
  | t :: rest, state, made =>
    match scan.hit? t with
    | none => search scan origin answer (scan.inOrder t.children ++ rest) state made
    | some hit =>
      match answer state hit with
      | (none, state) => search scan origin answer (scan.inOrder t.children ++ rest) state made
      | (some category, state) =>
        match Override.ofTree? t category origin with
        | none => search scan origin answer rest state made
        | some mark =>
          if scan.firstOnly then ((mark :: made).reverse, state)
          else search scan origin answer rest state (mark :: made)
termination_by pending => Tree.sizes pending
decreasing_by all_goals simp [Tree.size_eq t]

/-- The marks that a scan beneath a node makes, in the order in which it makes them, and the final
state of the answer function. -/
def run {σ : Type} (scan : Scan) (origin : RuleId) (answer : σ → Hit → Option Category × σ)
    (state : σ) (t : Tree) : List Override × σ :=
  scan.search origin answer (scan.inOrder t.children) state []

/-- The marks that a scan beneath a node makes when every match is given the same category. -/
def marks (scan : Scan) (origin : RuleId) (category : Category) (t : Tree) : List Override :=
  (scan.run origin (fun state _ => (some category, state)) () t).1

/-- Runs a scan and inserts what it marks in a set of overrides. Gives how many overrides were
inserted, the set with them, and the final state of the answer function. -/
def apply {σ : Type} (scan : Scan) (origin : RuleId) (answer : σ → Hit → Option Category × σ)
    (state : σ) (t : Tree) (overrides : OverrideSet) : Nat × OverrideSet × σ :=
  let (made, state) := scan.run origin answer state t
  (made.length, overrides.extend made, state)

/-- Runs a scan that gives every match the same category, and inserts what it marks in a set of
overrides. Gives how many overrides were inserted and the set with them. -/
def assign (scan : Scan) (origin : RuleId) (category : Category) (t : Tree)
    (overrides : OverrideSet) : Nat × OverrideSet :=
  let (count, overrides, ()) :=
    scan.apply origin (fun state _ => (some category, state)) () t overrides
  (count, overrides)

end Scan

end Highlighting

import Highlighting.Token

/-!
# Syntax trees

A syntax tree has tokens at its leaves and productions above them. Every node carries the number
under which it was created, and a production also carries the span of the tokens beneath it,
computed once when it is built.

Trees may be tens of thousands of levels deep, so whatever runs over a whole tree keeps the work
that is still to do in a list, `Tree.preorder` here and the walk of `Highlighting.Tree.Walk`.
`Tree.size` is plain recursion and only measures that list.

## Main definitions

* `Tree`, and `Tree.branch`, which builds a production from its children
* `Tree.span`: the characters that a node covers, if it has any token
* `Tree.childrenOf`, `Tree.child?` and the like: looking one level down
* `Tree.descendants`, `Tree.descendantsOf`: looking all the way down, parents first
-/

namespace Highlighting

/-- A syntax tree. -/
inductive Tree where
  /-- A visible token. -/
  | leaf (id : Nat) (token : Token)
  /-- A production, with the span of the tokens beneath it and its children in source order. -/
  | node (id : Nat) (rule : RuleId) (span : Option Span) (children : List Tree)
  deriving Inhabited

namespace Tree

/-! ### One node -/

/-- The number under which the node was created. -/
def id : Tree → Nat
  | leaf n _ => n
  | node n _ _ _ => n

/-- The production, unless the node is a token. -/
def rule? : Tree → Option RuleId
  | leaf _ _ => none
  | node _ r _ _ => some r

/-- The token, unless the node is a production. -/
def token? : Tree → Option Token
  | leaf _ t => some t
  | node _ _ _ _ => none

/-- The span of a token, or of the tokens beneath a production. A production without tokens has
none. -/
def span : Tree → Option Span
  | leaf _ t => some t.span
  | node _ _ s _ => s

/-- The children in source order; a token has none. -/
def children : Tree → List Tree
  | leaf _ _ => []
  | node _ _ _ cs => cs

/-- Whether the node is a token. -/
def isLeaf : Tree → Bool
  | leaf _ _ => true
  | node _ _ _ _ => false

/-- Whether the node is a production of `r`. -/
def isRule (t : Tree) (r : RuleId) : Bool :=
  match t with
  | leaf _ _ => false
  | node _ rule _ _ => rule == r

/-- Whether the node is a production of one of `rs`. -/
def isAnyRule (t : Tree) (rs : List RuleId) : Bool :=
  match t with
  | leaf _ _ => false
  | node _ rule _ _ => rs.contains rule

/-- Whether the node is a token of kind `k`. -/
def isKind (t : Tree) (k : TokenKind) : Bool :=
  match t with
  | leaf _ token => token.kind == k
  | node _ _ _ _ => false

/-- The text of a token. -/
def text? (t : Tree) : Option String :=
  t.token?.map (·.text)

/-- Whether the node is a token whose text is one of `texts`. -/
def isAnyText (t : Tree) (texts : List String) : Bool :=
  t.text?.any texts.contains

/-! ### Building a production -/

/-- The span of a list of siblings: from the start of the first of them that has tokens to the
stop of the last. -/
def spanOfChildren (cs : List Tree) : Option Span :=
  match cs.findSome? span, cs.reverse.findSome? span with
  | some first, some last => some ⟨first.start, last.stop⟩
  | _, _ => none

/-- The production of `r` over the given children. -/
def branch (n : Nat) (r : RuleId) (cs : List Tree) : Tree :=
  node n r (spanOfChildren cs) cs

/-! ### One level down -/

/-- The `n`-th child, counting from zero. -/
def child? (t : Tree) (n : Nat) : Option Tree :=
  t.children[n]?

/-- The children that are productions of `r`. -/
def childrenOf (t : Tree) (r : RuleId) : List Tree :=
  t.children.filter (·.isRule r)

/-- The `n`-th child that is a production of `r`, counting from zero. -/
def nthChildOf? (t : Tree) (r : RuleId) (n : Nat) : Option Tree :=
  (t.childrenOf r)[n]?

/-- The first child that is a production of `r`. -/
def firstChildOf? (t : Tree) (r : RuleId) : Option Tree :=
  t.children.find? (·.isRule r)

/-- Whether some child is a production of `r`. -/
def hasChildOf (t : Tree) (r : RuleId) : Bool :=
  t.children.any (·.isRule r)

/-! ### The size of trees and forests -/

mutual

/-- The number of nodes of a tree. -/
def size : Tree → Nat
  | leaf _ _ => 1
  | node _ _ _ cs => sizes cs + 1

/-- The number of nodes of a forest. -/
def sizes : List Tree → Nat
  | [] => 0
  | t :: ts => t.size + sizes ts

end

@[simp] theorem sizes_nil : sizes [] = 0 := by
  simp [sizes]

@[simp] theorem sizes_cons (t : Tree) (ts : List Tree) : sizes (t :: ts) = t.size + sizes ts := by
  simp [sizes]

@[simp] theorem sizes_append (ts us : List Tree) : sizes (ts ++ us) = sizes ts + sizes us := by
  induction ts with
  | nil => simp
  | cons t ts ih => simp [ih, Nat.add_assoc]

@[simp] theorem sizes_reverse (ts : List Tree) : sizes ts.reverse = sizes ts := by
  induction ts with
  | nil => simp
  | cons t ts ih => simp [ih, Nat.add_comm]

/-- A tree has one node more than the forest of its children. -/
theorem size_eq (t : Tree) : t.size = sizes t.children + 1 := by
  cases t <;> simp [size, children]

/-! ### All the way down -/

/-- The nodes of a forest that is still to be visited, parents before children and siblings in
order, after the nodes already found, which are listed latest first. -/
def preorder : List Tree → List Tree → List Tree
  | [], found => found.reverse
  | t :: rest, found => preorder (t.children ++ rest) (t :: found)
termination_by pending => sizes pending
decreasing_by simp [size_eq t]

/-- Everything strictly beneath a node, parents before children. -/
def descendants (t : Tree) : List Tree :=
  preorder t.children []

/-- The productions of `r` strictly beneath a node, parents before children. -/
def descendantsOf (t : Tree) (r : RuleId) : List Tree :=
  t.descendants.filter (·.isRule r)

end Tree

end Highlighting

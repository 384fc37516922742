import Highlighting.Tree

/-!
# Walking a tree

A `Site` is a node together with the productions around it, so a rule can look up as well as
down. A walk visits every site of a tree from left to right and notifies a listener: a production
is entered before and left after everything beneath it, and a token is visited once. Productions
are left children first, which is what gives an enclosing production the last word.

## Main definitions

* `Site`, `Site.parent?`, `Site.children`
* `Notice`: what a listener is told
* `Site.walk`: a listener, any function on a state, run over a whole tree
-/

namespace Highlighting

/-- A node in its place. -/
structure Site where
  /-- The node. -/
  tree : Tree
  /-- The productions around it, innermost first. -/
  ancestors : List Tree
  deriving Inhabited

namespace Site

/-- The root of a tree stands alone. -/
def ofRoot (t : Tree) : Site := ⟨t, []⟩

/-- The site of the production right around this one. -/
def parent? (s : Site) : Option Site :=
  match s.ancestors with
  | [] => none
  | t :: up => some ⟨t, up⟩

/-- The sites of the children, in source order. -/
def children (s : Site) : List Site :=
  s.tree.children.map fun t => ⟨t, s.tree :: s.ancestors⟩

/-- The site that is reached by following child positions downwards. -/
def follow? (s : Site) : List Nat → Option Site
  | [] => some s
  | n :: path => s.children[n]?.bind (·.follow? path)

/-- Whether the production right around this one is a production of `r`. -/
def isUnder (s : Site) (r : RuleId) : Bool :=
  s.parent?.any (·.tree.isRule r)

/-- Whether the production two levels up is a production of `r`. -/
def isTwoUnder (s : Site) (r : RuleId) : Bool :=
  (s.parent?.bind Site.parent?).any (·.tree.isRule r)

end Site

/-- What a walk tells its listener. -/
inductive Notice where
  /-- The walk arrives at a production. -/
  | enter (site : Site)
  /-- The walk passes a token. -/
  | visit (site : Site)
  /-- The walk leaves a production, with everything beneath it behind. -/
  | leave (site : Site)

namespace Site

/-- A part of a walk that is still to do. -/
inductive Pending where
  /-- Walk over a site and all beneath it. -/
  | whole (site : Site)
  /-- Leave a production whose children are done. -/
  | leaving (site : Site)

/-- How many steps a pending part can still take, at most. -/
def Pending.weight : Pending → Nat
  | whole s => 2 * s.tree.size
  | leaving _ => 1

/-- How many steps the pending parts of a walk can still take, at most. -/
def Pending.weights : List Pending → Nat
  | [] => 0
  | p :: ps => p.weight + weights ps

theorem weights_append (ps qs : List Pending) :
    Pending.weights (ps ++ qs) = Pending.weights ps + Pending.weights qs := by
  induction ps with
  | nil => simp [Pending.weights]
  | cons p ps ih => simp [Pending.weights, ih, Nat.add_assoc]

theorem weights_whole_children (s : Site) :
    Pending.weights (s.children.map Pending.whole) + 2 = 2 * s.tree.size := by
  rw [Tree.size_eq, children, List.map_map]
  induction s.tree.children with
  | nil => rfl
  | cons t ts ih =>
    simp only [List.map_cons, Function.comp_apply, Pending.weights, Pending.weight,
      Tree.sizes_cons] at ih ⊢
    omega

/-- Runs a listener over the pending parts of a walk, in order. -/
def walkPending {σ : Type} (listen : σ → Notice → σ) : List Pending → σ → σ
  | [], state => state
  | .leaving s :: rest, state => walkPending listen rest (listen state (.leave s))
  | .whole s :: rest, state =>
    if s.tree.isLeaf then
      walkPending listen rest (listen state (.visit s))
    else
      walkPending listen (s.children.map .whole ++ .leaving s :: rest) (listen state (.enter s))
termination_by pending => Pending.weights pending
decreasing_by
  · simp [Pending.weights, Pending.weight]
  · simp only [Pending.weights, Pending.weight, Tree.size_eq s.tree]
    omega
  · have := weights_whole_children s
    simp only [weights_append, Pending.weights, Pending.weight]
    omega

/-- Runs a listener over a site and everything beneath it. -/
def walk {σ : Type} (listen : σ → Notice → σ) (state : σ) (s : Site) : σ :=
  walkPending listen [.whole s] state

end Site

end Highlighting

import Mathlib.Data.List.Chain
import Mathlib.Data.List.Nodup
import Mathlib.Logic.Relation
import Mathlib.Tactic.SplitIfs
import Highlighting.Parse

/-!
# How the arrays of an arena fit together

Nothing in the type of an arena keeps a node from naming a parent that does not list it, from being
listed twice or from pointing past the end of an array. That none of this happens is up to the
builder, which writes the links of a node in several places and at several times: the parent of a
node when it begins, the node in the children of its parent right afterwards, the production around
a token next to the token, and the token in its node.

What makes it come out right is said of every state of a builder, finished or not, in
`Builder.Coherent`: parents and children record the same (`Arena.Linked`), nodes and tokens agree on
the production around a token (`Arena.Threaded`), and the productions that have not yet ended are a
path in the arena. One event, whether it succeeds or fails, keeps all of this. What is asked of a
finished arena is then read off the invariant.

## Main definitions

* `Arena.Linked`, `Arena.Threaded`: what nodes, and nodes and tokens, record of each other
* `Builder.Step`: what an event can do to a builder
* `Builder.Coherent`: what holds of every state of a builder
* `Builder.Records`: what the arrays owe to the events
* `RootedArena.WellFormed`: what holds of a finished arena

## Main results

* `Builder.step_step`: an event does one of the things that `Builder.Step` lists
* `Arena.Linked.addNode`, `Arena.Threaded.addTerminal`: adding a node keeps the links
* `Builder.Coherent.step`, `Builder.coherent_run`: one event, and any number of them
* `arena_wellFormed`: every arena that events describe is well-formed
-/

namespace Highlighting

/-! ### Events -/

namespace Event

/-- Whether an event makes a node of the tree. -/
def makesNode : Event → Bool
  | .enter _ | .token _ => true
  | .hidden _ | .leave => false

/-- Whether an event takes a token. -/
def takesToken : Event → Bool
  | .token _ | .hidden _ => true
  | .enter _ | .leave => false

/-- Whether an event reports a visible token. -/
def isVisible : Event → Bool
  | .token _ => true
  | .enter _ | .hidden _ | .leave => false

/-- Whether an event reports a hidden token. -/
def isHidden : Event → Bool
  | .hidden _ => true
  | .enter _ | .token _ | .leave => false

theorem isHidden_iff {e : Event} : e.isHidden = true ↔ ∃ l, e = .hidden l := by
  cases e <;> simp [isHidden]

end Event

theorem Node.rule?_eq_some {node : Node} {r : RuleId} :
    node.rule? = some r ↔ node.kind = .rule r := by
  unfold rule?
  split <;> simp_all

theorem Node.token?_eq_some {node : Node} {i : Nat} :
    node.token? = some i ↔ node.kind = .terminal i := by
  unfold token?
  split <;> simp_all

namespace Arena

variable {a : Arena} {kind : NodeKind} {parent : Option Nat} {m n i : Nat}

/-! ### What is written -/

@[simp] theorem size_nodes_addNode :
    (a.addNode kind parent).nodes.size = a.nodes.size + 1 := by
  cases parent <;> simp [addNode]

@[simp] theorem tokenParents_addNode :
    (a.addNode kind parent).tokenParents = a.tokenParents := rfl

/-- A new node changes nothing that is recorded of the others but the children of its parent. -/
theorem bind_getElem?_addNode {β : Type} {f : Node → Option β}
    (hf : ∀ (node : Node) (n : Nat), f (node.addChild n) = f node) :
    (a.addNode kind parent).nodes[n]?.bind f
      = if n = a.nodes.size then f (.begin kind parent) else a.nodes[n]?.bind f := by
  cases parent with
  | none =>
    simp only [addNode, Option.elim_none, Array.getElem?_push]
    split_ifs <;> rfl
  | some m =>
    simp only [addNode, Option.elim_some, Array.getElem?_modify, Array.getElem?_push]
    split_ifs
    · exact hf _ _
    · cases a.nodes[n]? with
      | none => rfl
      | some node => exact hf node _
    · rfl
    · rfl

@[simp] theorem parentAt?_addNode : (a.addNode kind parent).parentAt? n
    = if n = a.nodes.size then parent else a.parentAt? n :=
  bind_getElem?_addNode fun _ _ => rfl

@[simp] theorem ruleAt?_addNode : (a.addNode kind parent).ruleAt? n
    = if n = a.nodes.size then (Node.begin kind parent).rule? else a.ruleAt? n :=
  bind_getElem?_addNode fun _ _ => rfl

@[simp] theorem tokenAt?_addNode : (a.addNode kind parent).tokenAt? n
    = if n = a.nodes.size then (Node.begin kind parent).token? else a.tokenAt? n :=
  bind_getElem?_addNode fun _ _ => rfl

theorem childrenAt_eq_empty (h : a.nodes.size ≤ n) : a.childrenAt n = #[] := by
  rw [childrenAt, Array.getElem?_eq_none h]
  rfl

/-- A new node comes last in the children of its parent. -/
theorem childrenAt_addNode (hparent : ∀ m, parent = some m → m < a.nodes.size) :
    (a.addNode kind parent).childrenAt n
      = if parent = some n then (a.childrenAt n).push a.nodes.size else a.childrenAt n := by
  have hlast : a.childrenAt a.nodes.size = #[] := childrenAt_eq_empty (Nat.le_refl _)
  cases parent with
  | none =>
    simp only [addNode, childrenAt, Option.elim_none, Array.getElem?_push, reduceCtorEq, if_false]
    split_ifs with hn
    · rw [← childrenAt, hn, hlast]
      rfl
    · rfl
  | some m =>
    have hm : m < a.nodes.size := hparent m rfl
    simp only [addNode, childrenAt, Option.elim_some, Array.getElem?_modify, Array.getElem?_push,
      Option.some.injEq]
    split_ifs with hmn hn hn
    · omega
    · rw [← hmn, Array.getElem?_eq_getElem hm]
      rfl
    · rw [← childrenAt, hn, hlast]
      rfl
    · rfl

@[simp] theorem size_nodes_endNode : (a.endNode m).nodes.size = a.nodes.size := by
  simp [endNode]

@[simp] theorem tokenParents_endNode : (a.endNode m).tokenParents = a.tokenParents := rfl

theorem getElem?_endNode : (a.endNode m).nodes[n]? = a.nodes[n]?.map fun node =>
    if m = n then { node with tokens := a.rangeOver? (a.childrenAt m) } else node := by
  simp only [endNode, Array.getElem?_modify]
  split_ifs <;> simp

/-- The end of a production changes nothing that is recorded but its tokens. -/
theorem bind_getElem?_endNode {β : Type} {f : Node → Option β}
    (hf : ∀ (node : Node) range, f { node with tokens := range } = f node) :
    (a.endNode m).nodes[n]?.bind f = a.nodes[n]?.bind f := by
  rw [getElem?_endNode]
  cases a.nodes[n]? with
  | none => rfl
  | some node =>
    rw [Option.map_some, Option.bind_some]
    split_ifs
    · exact hf node _
    · rfl

@[simp] theorem parentAt?_endNode : (a.endNode m).parentAt? n = a.parentAt? n :=
  bind_getElem?_endNode fun _ _ => rfl

@[simp] theorem ruleAt?_endNode : (a.endNode m).ruleAt? n = a.ruleAt? n :=
  bind_getElem?_endNode fun _ _ => rfl

@[simp] theorem tokenAt?_endNode : (a.endNode m).tokenAt? n = a.tokenAt? n :=
  bind_getElem?_endNode fun _ _ => rfl

@[simp] theorem childrenAt_endNode : (a.endNode m).childrenAt n = a.childrenAt n := by
  have h := bind_getElem?_endNode (a := a) (m := m) (n := n) (f := fun node => some node.children)
    fun _ _ => rfl
  rw [childrenAt, childrenAt, Option.map_eq_bind, Option.map_eq_bind]
  exact congrArg (·.getD #[]) h

/-! ### What nodes record of each other -/

/-- Parents and children record the same: every node but the first has a parent, which is a
production that comes before it, and the children of a node are the nodes that it is the parent of,
in their order. -/
structure Linked (a : Arena) : Prop where
  /-- The first node has no parent, and every other node has one. -/
  parentAt?_eq_none_iff : ∀ n < a.nodes.size, a.parentAt? n = none ↔ n = 0
  /-- A parent is a production that comes before its children. -/
  parent_lt : ∀ n m, a.parentAt? n = some m → m < n ∧ (a.ruleAt? m).isSome
  /-- A node lists the nodes that it is the parent of. -/
  mem_childrenAt_iff : ∀ m n, n ∈ a.childrenAt m ↔ a.parentAt? n = some m
  /-- It lists them in their order. -/
  children_increasing : ∀ m, (a.childrenAt m).toList.Pairwise (· < ·)

theorem lt_size_of_parentAt? (h : a.parentAt? n = some m) : n < a.nodes.size := by
  obtain ⟨node, hnode, -⟩ := Option.bind_eq_some_iff.mp h
  exact (Array.getElem?_eq_some_iff.mp hnode).1

theorem lt_size_of_ruleAt? (h : (a.ruleAt? n).isSome) : n < a.nodes.size := by
  obtain ⟨r, hr⟩ := Option.isSome_iff_exists.mp h
  obtain ⟨node, hnode, -⟩ := Option.bind_eq_some_iff.mp hr
  exact (Array.getElem?_eq_some_iff.mp hnode).1

theorem lt_size_of_tokenAt? (h : a.tokenAt? n = some i) : n < a.nodes.size := by
  obtain ⟨node, hnode, -⟩ := Option.bind_eq_some_iff.mp h
  exact (Array.getElem?_eq_some_iff.mp hnode).1

namespace Linked

/-- **Adding a node keeps the links**, provided that only the first node is added without a parent,
and that the parent of any other is a production. -/
theorem addNode (h : a.Linked) (hnone : parent = none → a.nodes.size = 0)
    (hrule : ∀ m, parent = some m → (a.ruleAt? m).isSome) : (a.addNode kind parent).Linked where
  parentAt?_eq_none_iff n hn := by
    rw [size_nodes_addNode] at hn
    rw [parentAt?_addNode]
    split_ifs with hsize
    · subst hsize
      refine ⟨hnone, fun hzero => ?_⟩
      by_contra hne
      obtain ⟨m, hm⟩ := Option.ne_none_iff_exists'.mp hne
      have := lt_size_of_ruleAt? (hrule m hm)
      omega
    · exact h.parentAt?_eq_none_iff n (by omega)
  parent_lt n m hm := by
    rw [parentAt?_addNode] at hm
    rw [ruleAt?_addNode]
    split_ifs at hm with hsize
    · have hlt := lt_size_of_ruleAt? (hrule m hm)
      rw [if_neg (by omega)]
      exact ⟨by omega, hrule m hm⟩
    · obtain ⟨hlt, hsome⟩ := h.parent_lt n m hm
      have := lt_size_of_ruleAt? hsome
      rw [if_neg (by omega)]
      exact ⟨hlt, hsome⟩
  mem_childrenAt_iff m n := by
    rw [childrenAt_addNode fun m hm => lt_size_of_ruleAt? (hrule m hm), parentAt?_addNode]
    have hlist := h.mem_childrenAt_iff m n
    have hlast : a.parentAt? a.nodes.size ≠ some m :=
      fun hm => absurd (lt_size_of_parentAt? hm) (Nat.lt_irrefl _)
    split_ifs with hm hn hn
    · exact iff_of_true (by rw [hn]; exact Array.mem_push_self) hm
    · rw [Array.mem_push, hlist]
      exact or_iff_left hn
    · rw [hlist, hn]
      exact iff_of_false hlast hm
    · exact hlist
  children_increasing m := by
    rw [childrenAt_addNode fun m hm => lt_size_of_ruleAt? (hrule m hm)]
    split_ifs with hm
    · rw [Array.toList_push, List.pairwise_append]
      refine ⟨h.children_increasing m, List.pairwise_singleton _ _, fun n hn k hk => ?_⟩
      rw [List.mem_singleton.mp hk]
      exact lt_size_of_parentAt? ((h.mem_childrenAt_iff m n).mp (Array.mem_toList_iff.mp hn))
    · exact h.children_increasing m

theorem endNode (h : a.Linked) (m : Nat) : (a.endNode m).Linked where
  parentAt?_eq_none_iff := by simpa using h.parentAt?_eq_none_iff
  parent_lt := by simpa using h.parent_lt
  mem_childrenAt_iff := by simpa using h.mem_childrenAt_iff
  children_increasing := by simpa using h.children_increasing

theorem addToken (h : a.Linked) (token : Token) (rule : Option RuleId) :
    (a.addToken token rule).Linked :=
  ⟨h.parentAt?_eq_none_iff, h.parent_lt, h.mem_childrenAt_iff, h.children_increasing⟩

theorem count_eq_one (h : a.Linked) (hparent : a.parentAt? n = some m) :
    (a.childrenAt m).count n = 1 := by
  rw [← Array.count_toList]
  refine List.count_eq_one_of_mem ((h.children_increasing m).imp Nat.ne_of_lt) ?_
  exact Array.mem_toList_iff.mpr ((h.mem_childrenAt_iff m n).mpr hparent)

/-- A node can only be listed by its parent. -/
theorem count_eq_zero (h : a.Linked) {k : Nat} (hparent : a.parentAt? n = some m)
    (hk : k ≠ m) : (a.childrenAt k).count n = 0 := by
  refine Array.count_eq_zero.mpr fun hmem => hk ?_
  exact Option.some.inj (((h.mem_childrenAt_iff k n).mp hmem).symm.trans hparent)

/-- Going up from a node ends at the first one, since parents come before their children. -/
theorem reachable (h : a.Linked) (hn : n < a.nodes.size) :
    Relation.ReflTransGen (fun m k => k ∈ a.childrenAt m) 0 n := by
  induction n using Nat.strongRecOn with
  | _ n ih =>
    by_cases hzero : n = 0
    · rw [hzero]
    obtain ⟨m, hm⟩ := Option.ne_none_iff_exists'.mp (mt (h.parentAt?_eq_none_iff n hn).mp hzero)
    have hlt := (h.parent_lt n m hm).1
    exact (ih m hlt (by omega)).tail ((h.mem_childrenAt_iff m n).mpr hm)

theorem children_of_token (h : a.Linked) (hn : a.tokenAt? n = some i) :
    a.childrenAt n = #[] := by
  refine Array.eq_empty_iff_forall_not_mem.mpr fun c hc => ?_
  obtain ⟨r, hr⟩ := Option.isSome_iff_exists.mp
    (h.parent_lt c n ((h.mem_childrenAt_iff n c).mp hc)).2
  obtain ⟨node, hnode, htoken⟩ := Option.bind_eq_some_iff.mp hn
  obtain ⟨node', hnode', hrule⟩ := Option.bind_eq_some_iff.mp hr
  obtain rfl := Option.some.inj (hnode.symm.trans hnode')
  have hkind := (Node.token?_eq_some.mp htoken).symm.trans (Node.rule?_eq_some.mp hrule)
  contradiction

end Linked

/-! ### What nodes and tokens record of each other -/

/-- The production right above the node at a position. -/
def ruleAbove? (a : Arena) (n : Nat) : Option RuleId := (a.parentAt? n).bind a.ruleAt?

/-- A new node changes nothing above the others. -/
theorem ruleAbove?_addNode (hlinked : a.Linked)
    (hparent : ∀ m, parent = some m → m < a.nodes.size) : (a.addNode kind parent).ruleAbove? n
      = if n = a.nodes.size then parent.bind a.ruleAt? else a.ruleAbove? n := by
  have hold : ∀ m < a.nodes.size, (a.addNode kind parent).ruleAt? m = a.ruleAt? m :=
    fun m hm => ruleAt?_addNode.trans (if_neg (Nat.ne_of_lt hm))
  rw [ruleAbove?, parentAt?_addNode]
  split_ifs
  · exact Option.bind_congr fun m hm => hold m (hparent m hm)
  · exact Option.bind_congr fun m hm => hold m (lt_size_of_ruleAt? (hlinked.parent_lt n m hm).2)

/-- Nodes stand for tokens in their order, and the production around a token that is recorded with
it is the one above its node. -/
structure Threaded (a : Arena) : Prop where
  /-- There is a production, or the absence of one, for every token. -/
  size_tokenParents : a.tokenParents.size = a.tokens.size
  /-- Nodes stand for tokens that are there. -/
  token_lt : ∀ n i, a.tokenAt? n = some i → i < a.tokens.size
  /-- Later nodes stand for later tokens. -/
  tokens_increasing : ∀ m n i j, m < n → a.tokenAt? m = some i → a.tokenAt? n = some j → i < j
  /-- The production around a token is the one above the node that stands for the token. -/
  parentRuleOf?_eq_some_iff : ∀ i r, a.parentRuleOf? i = some r ↔
    ∃ n, a.tokenAt? n = some i ∧ a.ruleAbove? n = some r

namespace Threaded

theorem parentRuleOf?_addToken (h : a.Threaded) (token : Token) (rule : Option RuleId) :
    (a.addToken token rule).parentRuleOf? i
      = if i = a.tokens.size then rule else a.parentRuleOf? i := by
  simp only [parentRuleOf?, Arena.addToken, Array.getElem?_push, h.size_tokenParents]
  split_ifs <;> rfl

theorem addRule (h : a.Threaded) (hlinked : a.Linked)
    (hparent : ∀ m, parent = some m → m < a.nodes.size) (r : RuleId) :
    (a.addNode (.rule r) parent).Threaded := by
  have htoken : ∀ n, (a.addNode (.rule r) parent).tokenAt? n = a.tokenAt? n := by
    intro n
    rw [tokenAt?_addNode]
    split_ifs with hn
    · rw [tokenAt?, Array.getElem?_eq_none (by omega)]
      rfl
    · rfl
  refine ⟨h.size_tokenParents, fun n i hn => ?_, ?_, fun i r' => ?_⟩
  · exact h.token_lt n i (htoken n ▸ hn)
  · simpa only [htoken] using h.tokens_increasing
  · refine (h.parentRuleOf?_eq_some_iff i r').trans (exists_congr fun n => ?_)
    rw [htoken]
    refine and_congr_right fun hn => ?_
    rw [ruleAbove?_addNode hlinked hparent, if_neg (Nat.ne_of_lt (lt_size_of_tokenAt? hn))]

/-- **Adding a token together with its node keeps tokens and nodes in step.** -/
theorem addTerminal (h : a.Threaded) (hlinked : a.Linked) (hm : (a.ruleAt? m).isSome)
    (token : Token) : (a.addTerminal token m).Threaded := by
  have hsize : (a.addTerminal token m).tokens.size = a.tokens.size + 1 := Array.size_push token
  have htoken : ∀ n, (a.addTerminal token m).tokenAt? n
      = if n = a.nodes.size then some a.tokens.size else a.tokenAt? n := fun n => tokenAt?_addNode
  have habove : ∀ n, (a.addTerminal token m).ruleAbove? n
      = if n = a.nodes.size then a.ruleAt? m else a.ruleAbove? n := by
    intro n
    refine ruleAbove?_addNode (hlinked.addToken _ _) fun k hk => ?_
    obtain rfl := Option.some.inj hk
    exact lt_size_of_ruleAt? hm
  refine ⟨?_, fun n i hn => ?_, fun n n' i j hlt hn hn' => ?_, fun i r => ?_⟩
  · simp [Arena.addTerminal, Arena.addToken, Arena.addNode, h.size_tokenParents]
  · rw [hsize]
    rw [htoken] at hn
    split_ifs at hn
    · obtain rfl := Option.some.inj hn
      exact Nat.lt_succ_self _
    · exact Nat.lt_succ_of_lt (h.token_lt n i hn)
  · rw [htoken] at hn hn'
    split_ifs at hn hn' with hlast hlast' hlast'
    · omega
    · have := lt_size_of_tokenAt? hn'
      omega
    · obtain rfl := Option.some.inj hn'
      exact h.token_lt n i hn
    · exact h.tokens_increasing n n' i j hlt hn hn'
  · refine (iff_of_eq (congrArg (· = some r) (h.parentRuleOf?_addToken token _))).trans ?_
    simp only [htoken, habove]
    split_ifs with hi
    · constructor
      · intro hr
        exact ⟨a.nodes.size, by rw [if_pos rfl, hi], by rw [if_pos rfl, hr]⟩
      · rintro ⟨n, hn, hr⟩
        split_ifs at hn hr with hlast
        · exact hr
        · exact absurd (h.token_lt n i hn) (by omega)
    · refine (h.parentRuleOf?_eq_some_iff i r).trans (exists_congr fun n => ?_)
      split_ifs with hlast
      · refine iff_of_false (fun hn => ?_) fun hn => hi (Option.some.inj hn.1).symm
        exact absurd (lt_size_of_tokenAt? hn.1) (by omega)
      · rfl

theorem addHidden (h : a.Threaded) (token : Token) : (a.addToken token none).Threaded where
  size_tokenParents := by simp [Arena.addToken, h.size_tokenParents]
  token_lt n i hn := by
    have hsize : (a.addToken token none).tokens.size = a.tokens.size + 1 := Array.size_push token
    rw [hsize]
    exact Nat.lt_succ_of_lt (h.token_lt n i hn)
  tokens_increasing := h.tokens_increasing
  parentRuleOf?_eq_some_iff i r := by
    rw [h.parentRuleOf?_addToken]
    split_ifs with hi
    · refine iff_of_false (by simp) ?_
      rintro ⟨n, hn, -⟩
      exact absurd (h.token_lt n i hn) (by omega)
    · exact h.parentRuleOf?_eq_some_iff i r

theorem endNode (h : a.Threaded) (m : Nat) : (a.endNode m).Threaded where
  size_tokenParents := h.size_tokenParents
  token_lt n i hn := h.token_lt n i (tokenAt?_endNode.symm.trans hn)
  tokens_increasing := by simpa using h.tokens_increasing
  parentRuleOf?_eq_some_iff i r := by
    refine (h.parentRuleOf?_eq_some_iff i r).trans (exists_congr fun n => ?_)
    simp [ruleAbove?, Option.bind_eq_some_iff]

/-- No two nodes stand for the same token. -/
theorem eq_of_tokenAt? (h : a.Threaded) (hm : a.tokenAt? m = some i)
    (hn : a.tokenAt? n = some i) : m = n := by
  rcases Nat.lt_trichotomy m n with hlt | heq | hgt
  · exact absurd (h.tokens_increasing m n i i hlt hm hn) (Nat.lt_irrefl i)
  · exact heq
  · exact absurd (h.tokens_increasing n m i i hgt hn hm) (Nat.lt_irrefl i)

/-- The stream pairs every token with the production that is recorded with it. -/
theorem parentOf?_ofArena {a : RootedArena} (h : a.Threaded) :
    (Parse.ofArena a).parentOf? i = a.parentRuleOf? i := by
  rw [Parse.parentOf?, Parse.ofArena, stream, List.getElem?_zipWith, Array.getElem?_toList,
    Array.getElem?_toList, parentRuleOf?]
  rcases Nat.lt_or_ge i a.tokens.size with hlt | hge
  · rw [Array.getElem?_eq_getElem hlt, Array.getElem?_eq_getElem (h.size_tokenParents ▸ hlt)]
    rfl
  · rw [Array.getElem?_eq_none hge, Array.getElem?_eq_none (h.size_tokenParents ▸ hge)]
    rfl

end Threaded

end Arena

namespace Builder

open Parse (Error)

variable {b b' : Builder} {e : Event} {events : List Event}

/-! ### What an event can do -/

theorem fail_eq (h : b.error = none) (err : Error) : b.fail err = { b with error := some err } := by
  rw [fail, if_pos (by rw [h]; rfl)]

/-- Taking a token moves the cursor and nothing else. -/
theorem exists_take_snd (b : Builder) (l : Lexeme) :
    ∃ cursor, (b.take l).2 = { b with cursor } := by
  unfold take
  split
  · simp only [locate]
    split_ifs
    · exact ⟨_, rfl⟩
    · exact ⟨_, rfl⟩
    · exact ⟨_, rfl⟩
  · simp only [check]
    split_ifs
    · exact ⟨b.cursor, rfl⟩
    · exact ⟨b.cursor, rfl⟩
    · exact ⟨b.cursor, rfl⟩
    · exact ⟨_, rfl⟩

/-- **What an event can do to a builder.** -/
inductive Step (b : Builder) : Event → Builder → Prop
  | ignored {e : Event} (herror : b.error.isSome) : Step b e b
  | failed {e : Event} (herror : b.error = none) (cursor : Nat) (err : Error) :
    Step b e { b with cursor, error := some err }
  | entered {r : RuleId} (herror : b.error = none) (hroot : b.opened = [] → b.root = none) :
    Step b (.enter r)
      { b with
        toArena := b.toArena.addNode (.rule r) b.opened.head?
        root := if b.opened.head?.isNone then some b.nodes.size else b.root
        opened := b.nodes.size :: b.opened }
  | added {l : Lexeme} {t : Token} {n : Nat} {below : List Nat} (herror : b.error = none)
      (cursor : Nat) (hopened : b.opened = n :: below) :
    Step b (.token l) { b with cursor, toArena := b.toArena.addTerminal t n }
  | passed {l : Lexeme} {t : Token} (herror : b.error = none) (cursor : Nat) :
    Step b (.hidden l) { b with cursor, toArena := b.toArena.addToken t none }
  | left {n : Nat} {below : List Nat} (herror : b.error = none) (hopened : b.opened = n :: below) :
    Step b .leave { b with toArena := b.toArena.endNode n, opened := below }

/-- An event does one of the things that `Step` lists. -/
theorem step_step (b : Builder) (e : Event) : b.Step e (b.step e) := by
  unfold step
  split_ifs with herror
  · exact .ignored herror
  rw [Bool.not_eq_true, Option.isSome_eq_false_iff, Option.isNone_iff_eq_none] at herror
  cases e with
  | enter r =>
    simp only [enter]
    by_cases hroot : (b.opened.head?.isNone && b.root.isSome) = true
    · rw [if_pos hroot, fail_eq herror]
      exact .failed herror b.cursor _
    · rw [if_neg hroot]
      exact .entered herror (by simpa using hroot)
  | token l =>
    obtain ⟨cursor, hcursor⟩ := b.exists_take_snd l
    simp only [report]
    split
    · next t b₁ htake =>
      obtain rfl : b₁ = _ := (congrArg Prod.snd htake).symm.trans hcursor
      unfold addTerminal
      split
      · rw [fail_eq (b := { b with cursor }) herror]
        exact .failed herror cursor _
      · next n below hopened => exact .added herror cursor hopened
    · next err b₁ htake =>
      obtain rfl : b₁ = _ := (congrArg Prod.snd htake).symm.trans hcursor
      rw [fail_eq (b := { b with cursor }) herror]
      exact .failed herror cursor _
  | hidden l =>
    obtain ⟨cursor, hcursor⟩ := b.exists_take_snd l
    simp only [report]
    split
    · next t b₁ htake =>
      obtain rfl : b₁ = _ := (congrArg Prod.snd htake).symm.trans hcursor
      exact .passed herror cursor
    · next err b₁ htake =>
      obtain rfl : b₁ = _ := (congrArg Prod.snd htake).symm.trans hcursor
      rw [fail_eq (b := { b with cursor }) herror]
      exact .failed herror cursor _
  | leave =>
    simp only [leave]
    split
    · rw [fail_eq herror]
      exact .failed herror b.cursor _
    · next n below hopened => exact .left herror hopened

/-! ### What holds of every state -/

/-- What holds of every state of a builder. -/
structure Coherent (b : Builder) : Prop where
  /-- Parents and children record the same. -/
  linked : b.toArena.Linked
  /-- Nodes and tokens are in step. -/
  threaded : b.toArena.Threaded
  /-- The root is the first node. -/
  root_eq : b.root = if b.nodes.size = 0 then none else some 0
  /-- What has not yet ended is a production. -/
  opened_rule : ∀ n ∈ b.opened, (b.ruleAt? n).isSome
  /-- Each production that has not yet ended is a child of the next one. -/
  opened_path : b.opened.IsChain fun n m => b.parentAt? n = some m

theorem coherent_start (source : String) : (start source).Coherent where
  linked := ⟨by simp [start], by simp [start, Arena.parentAt?],
    by simp [start, Arena.childrenAt, Arena.parentAt?], by simp [start, Arena.childrenAt]⟩
  threaded := ⟨rfl, by simp [start, Arena.tokenAt?], by simp [start, Arena.tokenAt?],
    by simp [start, Arena.parentRuleOf?, Arena.tokenAt?]⟩
  root_eq := rfl
  opened_rule := by simp [start]
  opened_path := .nil

theorem Coherent.size_eq_zero (hb : b.Coherent) (h : b.root = none) : b.nodes.size = 0 := by
  by_contra hsize
  rw [hb.root_eq, if_neg hsize] at h
  contradiction

theorem Coherent.lt_size_of_mem_opened (hb : b.Coherent) {n : Nat} (hn : n ∈ b.opened) :
    n < b.nodes.size :=
  Arena.lt_size_of_ruleAt? (hb.opened_rule n hn)

theorem Coherent.entered (hb : b.Coherent) (hroot : b.opened = [] → b.root = none) (r : RuleId) :
    Coherent { b with
      toArena := b.toArena.addNode (.rule r) b.opened.head?
      root := if b.opened.head?.isNone then some b.nodes.size else b.root
      opened := b.nodes.size :: b.opened } := by
  have hnone : b.opened.head? = none → b.nodes.size = 0 :=
    fun hnil => hb.size_eq_zero (hroot (List.head?_eq_none_iff.mp hnil))
  have hrule : ∀ m, b.opened.head? = some m → (b.ruleAt? m).isSome :=
    fun m hm => hb.opened_rule m (List.mem_of_head? hm)
  have hlt : ∀ m, b.opened.head? = some m → m < b.nodes.size :=
    fun m hm => hb.lt_size_of_mem_opened (List.mem_of_head? hm)
  have hold : ∀ n ∈ b.opened, n ≠ b.nodes.size :=
    fun n hn => Nat.ne_of_lt (hb.lt_size_of_mem_opened hn)
  refine ⟨hb.linked.addNode hnone hrule, hb.threaded.addRule hb.linked hlt r, ?_, ?_, ?_⟩
  · change (if _ then _ else _) = if (b.toArena.addNode _ _).nodes.size = 0 then none else some 0
    rw [Arena.size_nodes_addNode, if_neg (Nat.succ_ne_zero _)]
    split_ifs with hhead
    · rw [hnone (Option.isNone_iff_eq_none.mp hhead)]
    · obtain ⟨m, hm⟩ := Option.ne_none_iff_exists'.mp (mt Option.isNone_iff_eq_none.mpr hhead)
      rw [hb.root_eq, if_neg (Nat.ne_zero_of_lt (hlt m hm))]
  · refine List.forall_mem_cons.mpr ⟨?_, fun n hn => ?_⟩
    · change ((b.toArena.addNode _ _).ruleAt? b.nodes.size).isSome
      rw [Arena.ruleAt?_addNode, if_pos rfl]
      rfl
    · change ((b.toArena.addNode _ _).ruleAt? n).isSome
      rw [Arena.ruleAt?_addNode, if_neg (hold n hn)]
      exact hb.opened_rule n hn
  · refine List.isChain_cons.mpr ⟨fun m hm => Arena.parentAt?_addNode.trans ?_, ?_⟩
    · rw [if_pos rfl]
      exact hm
    · refine hb.opened_path.imp_of_mem_imp fun n m hn _ hparent => ?_
      exact (Arena.parentAt?_addNode.trans (if_neg (hold n hn))).trans hparent

theorem Coherent.added (hb : b.Coherent) {n : Nat} {below : List Nat}
    (hopened : b.opened = n :: below) (t : Token) (cursor : Nat) :
    Coherent { b with cursor, toArena := b.toArena.addTerminal t n } := by
  have hn : (b.ruleAt? n).isSome := hb.opened_rule n (by simp [hopened])
  have hlt : n < b.nodes.size := Arena.lt_size_of_ruleAt? hn
  have hold : ∀ m ∈ b.opened, m ≠ b.nodes.size :=
    fun m hm => Nat.ne_of_lt (hb.lt_size_of_mem_opened hm)
  refine ⟨?_, hb.threaded.addTerminal hb.linked hn t, ?_, fun m hm => ?_, ?_⟩
  · refine (hb.linked.addToken t _).addNode (by simp) fun m hm => ?_
    obtain rfl := Option.some.inj hm
    exact hn
  · change b.root = if (Arena.addNode _ _ _).nodes.size = 0 then none else some 0
    rw [Arena.size_nodes_addNode, if_neg (Nat.succ_ne_zero _), hb.root_eq,
      if_neg (Nat.ne_zero_of_lt hlt)]
  · have hrule : (b.toArena.addTerminal t n).ruleAt? m = b.ruleAt? m :=
      Arena.ruleAt?_addNode.trans (if_neg (hold m hm))
    change ((b.toArena.addTerminal t n).ruleAt? m).isSome
    rw [hrule]
    exact hb.opened_rule m hm
  · refine hb.opened_path.imp_of_mem_imp fun m k hm _ hparent => ?_
    exact (Arena.parentAt?_addNode.trans (if_neg (hold m hm))).trans hparent

/-- **One event keeps a builder coherent**, whether it succeeds, fails or is ignored. -/
theorem Coherent.step (hb : b.Coherent) (h : b.Step e b') : b'.Coherent := by
  cases h with
  | ignored herror => exact hb
  | failed herror cursor err =>
    exact ⟨hb.linked, hb.threaded, hb.root_eq, hb.opened_rule, hb.opened_path⟩
  | entered herror hroot => exact hb.entered hroot _
  | added herror cursor hopened => exact hb.added hopened _ cursor
  | passed herror cursor =>
    exact ⟨hb.linked.addToken _ _, hb.threaded.addHidden _, hb.root_eq, hb.opened_rule,
      hb.opened_path⟩
  | @left n below herror hopened =>
    have hrule := hb.opened_rule
    have hpath := hb.opened_path
    rw [hopened] at hrule hpath
    refine ⟨hb.linked.endNode n, hb.threaded.endNode n, ?_, fun m hm => ?_, ?_⟩
    · change b.root = if (b.toArena.endNode n).nodes.size = 0 then none else some 0
      rw [Arena.size_nodes_endNode, hb.root_eq]
    · change ((b.toArena.endNode n).ruleAt? m).isSome
      rw [Arena.ruleAt?_endNode]
      exact hrule m (List.mem_cons_of_mem n hm)
    · exact hpath.of_cons.imp fun m k hparent => Arena.parentAt?_endNode.trans hparent

theorem run_concat (b : Builder) (events : List Event) (e : Event) :
    b.run (events ++ [e]) = (b.run events).step e := by
  rw [run, List.foldl_append]
  rfl

/-- **Every state of a builder is coherent.** -/
theorem coherent_run (source : String) (events : List Event) :
    ((start source).run events).Coherent := by
  induction events using List.reverseRecOn with
  | nil => exact coherent_start source
  | append_singleton events e ih =>
    rw [run_concat]
    exact ih.step (step_step _ e)

/-! ### What the arrays owe to the events -/

/-- The arrays have the nodes and tokens that the events report, and tell hidden tokens from visible
ones as the events do. -/
structure Records (events : List Event) (b : Builder) : Prop where
  /-- There is a node for every event that makes one. -/
  size_nodes : b.nodes.size = events.countP Event.makesNode
  /-- The tokens without a production around them are those that are reported as hidden. -/
  hidden_eq : b.tokenParents.toList.map Option.isNone
    = (events.filter Event.takesToken).map Event.isHidden

theorem Records.step (h : b.Records events) (hb : b.Coherent) (hstep : b.Step e b')
    (hok : b'.error = none) : b'.Records (events ++ [e]) := by
  cases hstep with
  | ignored herror => simp [hok] at herror
  | failed herror cursor err => contradiction
  | entered herror hroot =>
    constructor
    · simp [h.size_nodes, Event.makesNode]
    · simpa [Event.takesToken] using h.hidden_eq
  | @added l t n below herror cursor hopened =>
    obtain ⟨r, hr⟩ := Option.isSome_iff_exists.mp (hb.opened_rule n (by simp [hopened]))
    constructor
    · simpa [Arena.addTerminal, Arena.addToken, Event.makesNode] using h.size_nodes
    · simpa [Arena.addTerminal, Arena.addToken, List.filter_cons, Event.takesToken, Event.isHidden,
        hr] using h.hidden_eq
  | passed herror cursor =>
    constructor
    · simpa [Arena.addToken, Event.makesNode] using h.size_nodes
    · simpa [Arena.addToken, List.filter_cons, Event.takesToken, Event.isHidden] using h.hidden_eq
  | left herror hopened =>
    constructor
    · simpa [Event.makesNode] using h.size_nodes
    · simpa [Event.takesToken] using h.hidden_eq

/-- There is no production around a hidden token, and none past the last token. -/
theorem Records.parentRuleOf?_eq_none_iff (h : b.Records events) {i : Nat} :
    b.parentRuleOf? i = none ↔
      (∃ l, (events.filter Event.takesToken)[i]? = some (.hidden l)) ∨ b.tokenParents.size ≤ i := by
  have hget : b.tokenParents[i]?.map Option.isNone
      = (events.filter Event.takesToken)[i]?.map Event.isHidden := by
    simpa using congrArg (·[i]?) h.hidden_eq
  rw [Arena.parentRuleOf?]
  rcases Nat.lt_or_ge i b.tokenParents.size with hlt | hge
  · rw [Array.getElem?_eq_getElem hlt, Option.map_some, eq_comm, Option.map_eq_some_iff] at hget
    obtain ⟨e, he, hhidden⟩ := hget
    rw [Array.getElem?_eq_getElem hlt, Option.join_some, he, or_iff_left (by omega)]
    rw [← Option.isNone_iff_eq_none, ← hhidden, Event.isHidden_iff]
    simp
  · exact iff_of_true (by rw [Array.getElem?_eq_none hge]; rfl) (.inr hge)

/-- Without an error there has been none before. -/
theorem Step.error_eq_none (h : b.Step e b') (hok : b'.error = none) : b.error = none := by
  cases h with
  | ignored => exact hok
  | failed herror => exact herror
  | entered herror => exact herror
  | added herror => exact herror
  | passed herror => exact herror
  | left herror => exact herror

theorem records_run {source : String} (h : ((start source).run events).error = none) :
    ((start source).run events).Records events := by
  induction events using List.reverseRecOn with
  | nil => exact ⟨rfl, rfl⟩
  | append_singleton events e ih =>
    rw [run_concat] at h ⊢
    have hstep := step_step ((start source).run events) e
    exact (ih (hstep.error_eq_none h)).step (coherent_run source events) hstep h

theorem finish_eq_ok {a : RootedArena} : b.finish = .ok a ↔
    b.error = none ∧ b.opened = [] ∧ b.root = some a.root ∧ b.toArena = a.toArena := by
  unfold finish
  cases b.error with
  | some err => simp
  | none =>
    cases b.opened with
    | cons n below => simp
    | nil =>
      cases b.root with
      | none => simp
      | some root =>
        obtain ⟨arena, root'⟩ := a
        simp [and_comm]

end Builder

namespace RootedArena

/-- What makes the arrays of an arena those of a tree over its tokens, when the arena is made from
the given events. -/
structure WellFormed (a : RootedArena) (events : List Event) : Prop where
  /-- There is a node for every event that makes one. -/
  size_nodes : a.nodes.size = events.countP Event.makesNode
  /-- There is a token for every event that takes one. -/
  size_tokens : a.tokens.size = events.countP Event.takesToken
  /-- There is a production, or the absence of one, for every token. -/
  size_tokenParents : a.tokenParents.size = a.tokens.size
  /-- The root is the first node. -/
  root_eq : a.root = 0 ∧ 0 < a.nodes.size
  /-- No other node is without a parent. -/
  parentAt?_eq_none_iff : ∀ n < a.nodes.size, a.parentAt? n = none ↔ n = a.root
  /-- Every other node is listed by its parent, which is a production that comes before it, and it
  is listed there once and nowhere else. -/
  listed_once : ∀ n < a.nodes.size, n ≠ a.root → ∃ m, a.parentAt? n = some m ∧
    (a.ruleAt? m).isSome ∧ m < n ∧ (a.childrenAt m).count n = 1 ∧
      ∀ k, k ≠ m → (a.childrenAt k).count n = 0
  /-- What is listed is a node, and has the node that lists it as its parent. -/
  mem_of_listed : ∀ m, ∀ n ∈ a.childrenAt m, n < a.nodes.size ∧ a.parentAt? n = some m
  /-- Children are listed in their order. -/
  children_increasing : ∀ m, (a.childrenAt m).toList.Pairwise (· < ·)
  /-- Every node can be reached from the root by going from parents to children. -/
  reachable : ∀ n < a.nodes.size, Relation.ReflTransGen (fun m k => k ∈ a.childrenAt m) a.root n
  /-- A token has no children. -/
  children_of_token : ∀ n i, a.tokenAt? n = some i → a.childrenAt n = #[]
  /-- Later nodes stand for later tokens. -/
  tokens_increasing : ∀ m n i j, m < n → a.tokenAt? m = some i → a.tokenAt? n = some j → i < j
  /-- Nodes stand for tokens that are there. -/
  token_lt : ∀ n i, a.tokenAt? n = some i → i < a.tokens.size
  /-- The production around a token is the parent of the one node that stands for it. -/
  parentRuleOf?_eq_some_iff : ∀ i r, a.parentRuleOf? i = some r ↔
    ∃ n, a.tokenAt? n = some i ∧ (∀ k, a.tokenAt? k = some i → k = n) ∧
      ∃ m, a.parentAt? n = some m ∧ a.ruleAt? m = some r
  /-- There is none around hidden tokens, and at positions past the last token. -/
  parentRuleOf?_eq_none_iff : ∀ i, a.parentRuleOf? i = none ↔
    (∃ l, (events.filter Event.takesToken)[i]? = some (.hidden l)) ∨ a.tokens.size ≤ i
  /-- The stream of the parse tells the same productions around its tokens. -/
  parentOf?_ofArena : ∀ i, (Parse.ofArena a).parentOf? i = a.parentRuleOf? i

end RootedArena

/-- **The arrays of an arena fit together.** This needs nothing but that the builder has no error in
the end, whatever the source and the events are. -/
theorem arena_wellFormed {source : String} {events : List Event} {a : RootedArena}
    (h : Builder.build source events = .ok a) : a.WellFormed events := by
  obtain ⟨herror, -, hroot, harena⟩ := Builder.finish_eq_ok.mp h
  have hcoherent := Builder.coherent_run source events
  have hrecords := Builder.records_run herror
  have hlinked := hcoherent.linked
  have hthreaded := hcoherent.threaded
  have hrooted := hcoherent.root_eq
  have hnodes := hrecords.size_nodes
  have hhidden := hrecords.hidden_eq
  rw [harena] at hlinked hthreaded hrooted hnodes hhidden
  have hsize : a.tokenParents.size = events.countP Event.takesToken := by
    simpa [List.countP_eq_length_filter] using congrArg List.length hhidden
  obtain ⟨hzero, hpos⟩ : a.root = 0 ∧ 0 < a.nodes.size := by
    rw [hroot] at hrooted
    split_ifs at hrooted with hempty
    exact ⟨Option.some.inj hrooted, Nat.pos_of_ne_zero hempty⟩
  exact
    { size_nodes := hnodes
      size_tokens := hthreaded.size_tokenParents ▸ hsize
      size_tokenParents := hthreaded.size_tokenParents
      root_eq := ⟨hzero, hpos⟩
      parentAt?_eq_none_iff := hzero ▸ hlinked.parentAt?_eq_none_iff
      listed_once := by
        intro n hn hne
        rw [hzero] at hne
        obtain ⟨m, hm⟩ := Option.ne_none_iff_exists'.mp
          (mt (hlinked.parentAt?_eq_none_iff n hn).mp hne)
        obtain ⟨hlt, hrule⟩ := hlinked.parent_lt n m hm
        exact ⟨m, hm, hrule, hlt, hlinked.count_eq_one hm, fun k => hlinked.count_eq_zero hm⟩
      mem_of_listed := by
        intro m n hn
        have hparent := (hlinked.mem_childrenAt_iff m n).mp hn
        exact ⟨Arena.lt_size_of_parentAt? hparent, hparent⟩
      children_increasing := hlinked.children_increasing
      reachable := fun n hn => hzero ▸ hlinked.reachable hn
      children_of_token := fun n i => hlinked.children_of_token
      tokens_increasing := hthreaded.tokens_increasing
      token_lt := hthreaded.token_lt
      parentRuleOf?_eq_some_iff := by
        intro i r
        refine (hthreaded.parentRuleOf?_eq_some_iff i r).trans (exists_congr fun n => ?_)
        rw [Arena.ruleAbove?, Option.bind_eq_some_iff]
        refine and_congr_right fun hn => (and_iff_right fun k hk => ?_).symm
        exact hthreaded.eq_of_tokenAt? hk hn
      parentRuleOf?_eq_none_iff := by
        intro i
        have hnone := hrecords.parentRuleOf?_eq_none_iff (i := i)
        rwa [harena, hthreaded.size_tokenParents] at hnone
      parentOf?_ofArena := fun _ => hthreaded.parentOf?_ofArena }

/-- The theorem at a call with an empty list of arguments and a comment in front of it. The empty
production has a node of its own, and the comment a token but no node. -/
theorem arena_wellFormed_call :
    ∃ a, Builder.build "/**/f()"
        [.enter 0, .hidden ⟨9, "/**/", none⟩, .enter 1, .token ⟨1, "f", none⟩, .leave,
          .token ⟨2, "(", none⟩, .enter 2, .leave, .token ⟨3, ")", none⟩, .leave] = .ok a ∧
      a.WellFormed
        [.enter 0, .hidden ⟨9, "/**/", none⟩, .enter 1, .token ⟨1, "f", none⟩, .leave,
          .token ⟨2, "(", none⟩, .enter 2, .leave, .token ⟨3, ")", none⟩, .leave] ∧
      a.nodes =
        #[⟨.rule 0, none, #[1, 3, 4, 5], some (1, 3)⟩, ⟨.rule 1, some 0, #[2], some (1, 1)⟩,
          ⟨.terminal 1, some 1, #[], some (1, 1)⟩, ⟨.terminal 2, some 0, #[], some (2, 2)⟩,
          ⟨.rule 2, some 0, #[], none⟩, ⟨.terminal 3, some 0, #[], some (3, 3)⟩] ∧
      a.tokenParents = #[none, some 1, some 0, some 0] := by
  have h : Builder.build "/**/f()"
      [.enter 0, .hidden ⟨9, "/**/", none⟩, .enter 1, .token ⟨1, "f", none⟩, .leave,
        .token ⟨2, "(", none⟩, .enter 2, .leave, .token ⟨3, ")", none⟩, .leave]
      = .ok
        { tokens := #[⟨9, ⟨0, 3⟩, "/**/"⟩, ⟨1, ⟨4, 4⟩, "f"⟩, ⟨2, ⟨5, 5⟩, "("⟩, ⟨3, ⟨6, 6⟩, ")"⟩]
          tokenParents := #[none, some 1, some 0, some 0]
          nodes :=
            #[⟨.rule 0, none, #[1, 3, 4, 5], some (1, 3)⟩, ⟨.rule 1, some 0, #[2], some (1, 1)⟩,
              ⟨.terminal 1, some 1, #[], some (1, 1)⟩, ⟨.terminal 2, some 0, #[], some (2, 2)⟩,
              ⟨.rule 2, some 0, #[], none⟩, ⟨.terminal 3, some 0, #[], some (3, 3)⟩]
          root := 0 } := by
    decide +kernel
  exact ⟨_, h, arena_wellFormed h, rfl, rfl⟩

end Highlighting

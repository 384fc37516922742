import Highlighting.Proofs.Replay

/-!
# The tree in the arena

The builder and the replay take the same events and have little else in common. The builder writes
arrays, names a production among the children of its parent when it begins, and goes on after an
error without doing anything. The replay keeps trees, puts a production into its parent when it
ends, and stops at an error. This module shows that they come to the same: the builder has an error
exactly when the replay stops, and it is the same error; and without one, the tree that is read off
the arena is the tree of the replay.

The two are related state by state (`Builder.Mirrors`). A finished tree of the replay is held by the
arena (`Arena.Holds`), node by node, in positions that are no longer open. This is what makes it
last: the builder writes at the end of its arrays and at open productions, and nowhere else
(`Arena.Keeps`). Productions that have not yet ended are in the arena, too, but not quite as in the
replay, since the arena already lists each of them among the children of the next (`Arena.Hangs`).

## Main definitions

* `Arena.Holds`: a finished tree in an arena
* `Arena.Keeps`: a later arena, in which nothing but open productions has changed
* `Arena.Hangs`: the productions that have not yet ended
* `Builder.Mirrors`, `Builder.Follows`: a builder and a replay after the same events

## Main results

* `Arena.Holds.getElem?_trees`: a tree that an arena holds is the tree that is read off it
* `Builder.Mirrors.step`, `Builder.follows_run`: one event, and any number of them
* `Builder.error_run_iff`: the error that a builder keeps is the one that stops the replay
* `Parse.ofEvents_eq_replay`: what is read off the arena is what the replay builds
* `Builder.holds_root`: a finished arena holds the tree that is read off it
-/

namespace Highlighting

namespace Arena

open Parse (Opened)

variable {a a' : Arena} {opened opened' : List Nat} {t : Tree} {m n i : Nat}

/-! ### Trees in an arena -/

/-- The arena holds the tree, in positions that are not open. -/
inductive Holds (a : Arena) (opened : List Nat) : Tree → Prop
  | leaf {n i : Nat} {x : Token} (hclosed : n ∉ opened) (hindex : a.tokenAt? n = some i)
      (hrange : a.rangeAt? n = some (i, i)) (htoken : a.tokens[i]? = some x) :
    Holds a opened (.leaf n x)
  | node {n : Nat} {r : RuleId} {span : Option Span} {cs : List Tree} (hclosed : n ∉ opened)
      (hrule : a.ruleAt? n = some r) (hchildren : (a.childrenAt n).toList = cs.map Tree.id)
      (hrange : (a.rangeAt? n).map a.spanOver? = span.map some)
      (hcs : ∀ c ∈ cs, Holds a opened c) :
    Holds a opened (.node n r span cs)

/-- The tokens that are recorded beneath a node cover what the tree covers. -/
theorem Holds.map_spanOver? (h : a.Holds opened t) :
    (a.rangeAt? t.id).map a.spanOver? = t.span.map some := by
  cases h with
  | leaf hclosed hindex hrange htoken =>
    rw [Tree.id, hrange, Option.map_some, spanOver?, htoken]
    rfl
  | node hclosed hrule hchildren hrange hcs => exact hrange

theorem Holds.lt_size (h : a.Holds opened t) : t.id < a.nodes.size := by
  cases h with
  | leaf hclosed hindex hrange htoken => exact lt_size_of_tokenAt? hindex
  | node hclosed hrule hchildren hrange hcs =>
    exact lt_size_of_ruleAt? (by rw [Tree.id, hrule]; rfl)

/-- The second arena is a later state of the first one: tokens and nodes may have been added, and
nothing has changed but the nodes at open positions. -/
structure Keeps (a : Arena) (opened : List Nat) (a' : Arena) : Prop where
  /-- Closed nodes are as they were. -/
  nodes_eq : ∀ n < a.nodes.size, n ∉ opened → a'.nodes[n]? = a.nodes[n]?
  /-- Tokens stay where they are. -/
  tokens_eq : ∀ (i : Nat) (x : Token), a.tokens[i]? = some x → a'.tokens[i]? = some x

theorem spanOver?_eq_some {range : Nat × Nat} {span : Span} : a.spanOver? range = some span ↔
    ∃ first last, a.tokens[range.1]? = some first ∧ a.tokens[range.2]? = some last ∧
      ⟨first.span.start, last.span.stop⟩ = span := by
  simp [spanOver?, Option.bind_eq_some_iff]

theorem Keeps.spanOver? (h : a.Keeps opened a') {range : Nat × Nat} {span : Span}
    (hspan : a.spanOver? range = some span) : a'.spanOver? range = some span := by
  obtain ⟨first, last, hfirst, hlast, hspan⟩ := spanOver?_eq_some.mp hspan
  exact spanOver?_eq_some.mpr
    ⟨first, last, h.tokens_eq _ _ hfirst, h.tokens_eq _ _ hlast, hspan⟩

/-- **What an arena holds it goes on to hold.** -/
theorem Holds.keep (h : a.Holds opened t) (hkeep : a.Keeps opened a')
    (hopened : ∀ n < a.nodes.size, n ∉ opened → n ∉ opened') : a'.Holds opened' t := by
  induction h with
  | leaf hclosed hindex hrange htoken =>
    have hlt := lt_size_of_tokenAt? hindex
    have hnode := hkeep.nodes_eq _ hlt hclosed
    refine .leaf (hopened _ hlt hclosed) ?_ ?_ (hkeep.tokens_eq _ _ htoken)
    · rwa [tokenAt?, hnode]
    · rwa [rangeAt?, hnode]
  | @node n r span cs hclosed hrule hchildren hrange hcs ih =>
    have hlt : n < a.nodes.size := lt_size_of_ruleAt? (by rw [hrule]; rfl)
    have hnode := hkeep.nodes_eq _ hlt hclosed
    refine .node (hopened _ hlt hclosed) ?_ ?_ ?_ ih
    · rwa [ruleAt?, hnode]
    · rwa [childrenAt, hnode]
    · have hsame : a'.rangeAt? n = a.rangeAt? n := by rw [rangeAt?, hnode]; rfl
      rw [hsame]
      cases hat : a.rangeAt? n with
      | none => rwa [hat] at hrange
      | some range =>
        rw [hat] at hrange
        cases span with
        | none => contradiction
        | some span =>
          have hspan : a.spanOver? range = some span := Option.some.inj hrange
          rw [Option.map_some, hkeep.spanOver? hspan]
          rfl

theorem keeps_addToken (a : Arena) (opened : List Nat) (x : Token) (rule : Option RuleId) :
    a.Keeps opened (a.addToken x rule) where
  nodes_eq _ _ _ := rfl
  tokens_eq i y hy := by
    have hlt : i < a.tokens.size := (Array.getElem?_eq_some_iff.mp hy).1
    rw [addToken, Array.getElem?_push, if_neg (Nat.ne_of_lt hlt)]
    exact hy

/-- A node can be added beneath an open production. -/
theorem keeps_addNode (kind : NodeKind) {parent : Option Nat}
    (hparent : ∀ m, parent = some m → m ∈ opened) : a.Keeps opened (a.addNode kind parent) where
  nodes_eq n hn hclosed := by
    cases parent with
    | none => simp [addNode, Array.getElem?_push, Nat.ne_of_lt hn]
    | some m =>
      have hne : m ≠ n := by
        rintro rfl
        exact hclosed (hparent m rfl)
      simp [addNode, Array.getElem?_modify, Array.getElem?_push, Nat.ne_of_lt hn, hne]
  tokens_eq _ _ hx := hx

theorem keeps_addTerminal (x : Token) (hm : m ∈ opened) :
    a.Keeps opened (a.addTerminal x m) := by
  have hnode : (a.addToken x (a.ruleAt? m)).Keeps opened (a.addTerminal x m) :=
    keeps_addNode _ fun k hk => Option.some.inj hk ▸ hm
  exact ⟨hnode.nodes_eq, (keeps_addToken a opened x (a.ruleAt? m)).tokens_eq⟩

theorem keeps_endNode (hm : m ∈ opened) : a.Keeps opened (a.endNode m) where
  nodes_eq n _ hclosed := by
    have hne : m ≠ n := by
      rintro rfl
      exact hclosed hm
    rw [getElem?_endNode]
    simp [hne]
  tokens_eq _ _ hx := hx

/-! ### The end of a production -/

@[simp] theorem rangeAt?_endNode_self (h : n < a.nodes.size) :
    (a.endNode n).rangeAt? n = a.rangeOver? (a.childrenAt n) := by
  rw [rangeAt?, getElem?_endNode, Array.getElem?_eq_getElem h]
  simp

/-- The first of some siblings with tokens has the first token in the arena, too. -/
theorem findSome?_rangeAt? {cs : List Tree} (h : ∀ c ∈ cs, a.Holds opened c) :
    ((cs.map Tree.id).findSome? a.rangeAt?).map a.spanOver?
      = (cs.findSome? Tree.span).map some := by
  induction cs with
  | nil => rfl
  | cons c cs ih =>
    rw [List.forall_mem_cons] at h
    have hc := h.1.map_spanOver?
    rw [List.map_cons, List.findSome?_cons, List.findSome?_cons]
    cases hrange : a.rangeAt? c.id with
    | none =>
      rw [hrange] at hc
      cases hspan : c.span with
      | none => exact ih h.2
      | some span => rw [hspan] at hc; contradiction
    | some range =>
      rw [hrange] at hc
      cases hspan : c.span with
      | none => rw [hspan] at hc; contradiction
      | some span => rw [hspan] at hc; exact hc

/-- Siblings cover in the arena what they cover as trees. -/
theorem map_spanOver?_rangeOver? {ns : Array Nat} {cs : List Tree}
    (hns : ns.toList = cs.map Tree.id) (h : ∀ c ∈ cs, a.Holds opened c) :
    (a.rangeOver? ns).map a.spanOver? = (Tree.spanOfChildren cs).map some := by
  have hfirst := findSome?_rangeAt? h
  have hreverse : ∀ c ∈ cs.reverse, a.Holds opened c := fun c hc => h c (List.mem_reverse.mp hc)
  have hlast := findSome?_rangeAt? hreverse
  rw [rangeOver?, Tree.spanOfChildren, Array.findSomeRev?_eq_findSome?_reverse,
    ← Array.findSome?_toList, ← Array.findSome?_toList, Array.toList_reverse, hns,
    ← List.map_reverse]
  revert hfirst hlast
  cases cs.findSome? Tree.span with
  | none =>
    cases (cs.map Tree.id).findSome? a.rangeAt? <;> simp
  | some first =>
    cases cs.reverse.findSome? Tree.span with
    | none => cases (cs.reverse.map Tree.id).findSome? a.rangeAt? <;> simp
    | some last =>
      simp only [Option.map_some, Option.map_eq_some_iff]
      rintro ⟨range, hrange, hspan⟩ ⟨range', hrange', hspan'⟩
      rw [hrange, hrange']
      obtain ⟨x, -, hx, -, rfl⟩ := spanOver?_eq_some.mp hspan
      obtain ⟨-, y, -, hy, rfl⟩ := spanOver?_eq_some.mp hspan'
      exact ⟨_, rfl, spanOver?_eq_some.mpr ⟨x, y, hx, hy, rfl⟩⟩

/-! ### Productions that have not yet ended -/

/-- Productions that have not yet ended, innermost first, are in the arena with the children that
they have. Each of them also lists the production inside it; inside the innermost one is `inner`. -/
def Hangs (a : Arena) : Option Nat → List Opened → Prop
  | _, [] => True
  | inner, o :: below =>
    a.ruleAt? o.id = some o.rule ∧
      (a.childrenAt o.id).toList = o.children.reverse.map Tree.id ++ inner.toList ∧
      a.Hangs (some o.id) below

theorem Hangs.congr {inner : Option Nat} {os : List Opened} (h : a.Hangs inner os)
    (hrule : ∀ o ∈ os, a'.ruleAt? o.id = a.ruleAt? o.id)
    (hchildren : ∀ o ∈ os, a'.childrenAt o.id = a.childrenAt o.id) : a'.Hangs inner os := by
  induction os generalizing inner with
  | nil => trivial
  | cons o below ih =>
    rw [List.forall_mem_cons] at hrule hchildren
    exact ⟨hrule.1.trans h.1, hchildren.1 ▸ h.2.1, ih h.2.2 hrule.2 hchildren.2⟩

/-- A node that is added beneath the innermost production hangs in it. -/
theorem Hangs.addNode {os : List Opened} (h : a.Hangs none os) (kind : NodeKind)
    (hlt : ∀ o ∈ os, o.id < a.nodes.size) (hdistinct : (os.map (·.id)).Nodup) :
    (a.addNode kind (os.map (·.id)).head?).Hangs (some a.nodes.size) os := by
  cases os with
  | nil => trivial
  | cons o below =>
    rw [List.map_cons, List.nodup_cons] at hdistinct
    rw [List.forall_mem_cons] at hlt
    have hparent : ∀ m, some o.id = some m → m < a.nodes.size :=
      fun m hm => Option.some.inj hm ▸ hlt.1
    have hrule : ∀ n < a.nodes.size, (a.addNode kind (some o.id)).ruleAt? n = a.ruleAt? n :=
      fun n hn => ruleAt?_addNode.trans (if_neg (Nat.ne_of_lt hn))
    refine ⟨(hrule _ hlt.1).trans h.1, ?_, h.2.2.congr (fun o' ho' => hrule _ (hlt.2 o' ho')) ?_⟩
    · change ((a.addNode kind (some o.id)).childrenAt o.id).toList = _
      rw [childrenAt_addNode hparent, if_pos rfl, Array.toList_push, h.2.1]
      simp
    · intro o' ho'
      refine (childrenAt_addNode hparent).trans (if_neg fun heq => hdistinct.1 ?_)
      rw [Option.some.inj heq]
      exact List.mem_map_of_mem ho'

/-! ### Reading the trees -/

/-- What holds at the end of a loop that runs down to zero. -/
theorem foldRev_induction {α : Type} {motive : Nat → α → Prop} (n : Nat)
    (f : (i : Nat) → i < n → α → α) {x : α} (hx : motive n x)
    (hf : ∀ i hi y, motive (i + 1) y → motive i (f i hi y)) : motive 0 (n.foldRev f x) := by
  induction n generalizing x with
  | zero => exact hx
  | succ n ih =>
    rw [Nat.foldRev_succ]
    exact ih _ (hf n _ x hx) fun i hi y hy => hf i _ y hy

/-- A tree that the arena holds is put together from the trees of its children, which come behind
it. -/
theorem Holds.tree?_eq (h : a.Holds opened t) (hlinked : a.Linked) {node : Node}
    (hnode : a.nodes[t.id]? = some node) {later : Array (Option Tree)}
    (hlater : ∀ c, a.Holds opened c → t.id < c.id → later[c.id]?.join = some c) :
    a.tree? t.id node later = some t := by
  cases h with
  | @leaf n i x hclosed hindex hrange htoken =>
    rw [Tree.id] at hnode
    rw [tokenAt?, hnode, Option.bind_some, Node.token?_eq_some] at hindex
    rw [tree?, hindex]
    simp only [htoken]
    rfl
  | @node n r span cs hclosed hrule hchildren hrange hcs =>
    rw [Tree.id] at hnode
    have hlist : ∀ c ∈ cs, later[c.id]?.join = some c := by
      intro c hc
      have hmem : c.id ∈ a.childrenAt n := by
        rw [← Array.mem_toList_iff, hchildren]
        exact List.mem_map_of_mem hc
      exact hlater c (hcs c hc) (hlinked.parent_lt _ _ ((hlinked.mem_childrenAt_iff _ _).mp hmem)).1
    rw [ruleAt?, hnode, Option.bind_some, Node.rule?_eq_some] at hrule
    rw [childrenAt, hnode, Option.map_some, Option.getD_some] at hchildren
    rw [rangeAt?, hnode, Option.bind_some] at hrange
    have hspan : node.tokens.bind a.spanOver? = span := by
      cases htokens : node.tokens <;> cases span <;> simp_all
    have hread : cs.filterMap ((fun c => later[c]?.join) ∘ Tree.id) = cs :=
      (List.filterMap_congr hlist).trans List.filterMap_some
    rw [tree?, hrule]
    simp only [hchildren, hspan, List.filterMap_map, hread]
    rfl

/-- **A tree that an arena holds is the tree that is read off it.** -/
theorem Holds.getElem?_trees (h : a.Holds opened t) (hlinked : a.Linked) :
    a.trees[t.id]?.join = some t := by
  -- When the loop has come down to a node, the trees from there on are in their places.
  have hread := foldRev_induction
    (motive := fun k later => later.size = a.nodes.size ∧
      ∀ c, a.Holds opened c → k ≤ c.id → later[c.id]?.join = some c)
    a.nodes.size (fun n _ later => later.setIfInBounds n (a.tree? n a.nodes[n] later))
    (x := Array.replicate a.nodes.size none)
    ⟨Array.size_replicate, fun c hc hle => absurd hc.lt_size (Nat.not_lt.mpr hle)⟩
  refine (hread fun n hn later hlater => ?_).2 t h (Nat.zero_le _)
  refine ⟨by simp [hlater.1], fun c hc hle => ?_⟩
  rw [Array.getElem?_setIfInBounds]
  split_ifs with heq hsize
  · subst heq
    exact hc.tree?_eq hlinked (Array.getElem?_eq_getElem hn) hlater.2
  · omega
  · exact hlater.2 c hc (by omega)

end Arena

namespace Builder

open Parse (Error Opened State replay)

variable {source : String} {b : Builder} {s : State} {l : Lexeme} {e : Event} {events : List Event}

/-! ### Taking a token -/

theorem skipBlanks_eq (chars : Array Char) (n : Nat) :
    skipBlanks chars n = n + ((chars.toList.drop n).takeWhile Text.isBlank).length := by
  fun_induction skipBlanks chars n with
  | case1 n h hblank ih =>
    have hdrop := List.drop_eq_getElem_cons (l := chars.toList) (i := n) (by simpa using h)
    rw [ih, hdrop, List.takeWhile_cons_of_pos (by simpa using hblank), List.length_cons]
    omega
  | case2 n h hblank =>
    have hdrop := List.drop_eq_getElem_cons (l := chars.toList) (i := n) (by simpa using h)
    rw [hdrop, List.takeWhile_cons_of_neg (by simpa using hblank)]
    rfl
  | case3 n h =>
    rw [List.drop_eq_nil_of_le (by simpa using h)]
    rfl

theorem window?_eq_some_iff (chars : Array Char) (n : Nat) {cs : List Char} (hcs : cs ≠ []) :
    window? chars n (n + cs.length) = some cs ↔ cs <+: chars.toList.drop n := by
  have hpos := List.length_pos_iff.mpr hcs
  rw [window?, List.prefix_iff_eq_take]
  split_ifs with h
  · rw [Array.toList_extract, List.extract_eq_take_drop, Nat.add_sub_cancel_left, Option.some.injEq]
    exact eq_comm
  · refine iff_of_false (by simp) fun hprefix => h ⟨Nat.le_add_right _ _, ?_⟩
    have hlength := congrArg List.length hprefix
    simp only [List.length_take, List.length_drop, Array.length_toList] at hlength
    omega

/-- The builder and the replay stand at the same place of the source. -/
structure At (source : String) (b : Builder) (s : State) : Prop where
  /-- The characters are those of the source. -/
  chars_eq : b.chars = source.toList.toArray
  /-- The cursors agree. -/
  cursor_eq : s.cursor = b.cursor

/-- The builder takes the token that the replay takes, or has the error that the replay has. It
moves the cursor in both cases. -/
def SameToken (b : Builder) (taken : Except Error (Token × State))
    (result : Except Error Token × Builder) : Prop :=
  (∃ t s', taken = .ok (t, s') ∧ result = (.ok t, { b with cursor := t.span.stop + 1 })) ∨
    ∃ err cursor, taken = .error err ∧ result = (.error err, { b with cursor })

theorem sameToken_locate (h : b.At source s) (hs : s.Reads source) (kind : TokenKind)
    (text : String) : b.SameToken (s.locate kind text) (b.locate kind text) := by
  have hrest : b.chars.toList.drop b.cursor = s.rest := by
    rw [h.chars_eq, ← h.cursor_eq, hs.rest_eq]
  have hstart : skipBlanks b.chars b.cursor
      = s.cursor + (s.rest.takeWhile Text.isBlank).length := by
    rw [skipBlanks_eq, hrest, h.cursor_eq]
  have hdrop : b.chars.toList.drop (s.cursor + (s.rest.takeWhile Text.isBlank).length)
      = s.rest.dropWhile Text.isBlank := by
    rw [h.cursor_eq, ← List.drop_drop, hrest]
    exact (congrArg (List.drop _) List.takeWhile_append_dropWhile.symm).trans List.drop_left
  simp only [locate, State.locate, hstart]
  by_cases hempty : text = ""
  · right
    subst hempty
    exact ⟨_, _, rfl, rfl⟩
  have hlength : ¬text.length = 0 := by simpa using hempty
  have hchars : text.toList ≠ [] := by simpa using hempty
  have hwindow := window?_eq_some_iff b.chars
    (s.cursor + (s.rest.takeWhile Text.isBlank).length) hchars
  rw [hdrop, String.length_toList] at hwindow
  rw [if_neg hlength, if_neg (by simpa using hempty)]
  cases hprefix : text.toList.isPrefixOf? (s.rest.dropWhile Text.isBlank) with
  | none =>
    right
    refine ⟨_, _, rfl, if_neg fun hfound => ?_⟩
    obtain ⟨rest, hrest⟩ := hwindow.mp hfound
    rw [List.isPrefixOf?_eq_some_iff_append_eq.mpr hrest] at hprefix
    contradiction
  | some rest =>
    left
    refine ⟨_, _, rfl, ?_⟩
    rw [if_pos (hwindow.mpr ⟨rest, List.isPrefixOf?_eq_some_iff_append_eq.mp hprefix⟩)]
    simp only [Nat.sub_add_cancel (Nat.le_add_left_of_le (Nat.pos_of_ne_zero hlength))]

theorem sameToken_check (h : b.At source s) (hs : s.Reads source) (kind : TokenKind)
    (text : String) (span : Span) :
    b.SameToken (s.check kind text span) (b.check ⟨kind, span, text⟩) := by
  have hsize : b.chars.size = s.length := by
    rw [h.chars_eq, List.size_toArray, String.length_toList, hs.length_eq]
  simp only [check, State.check, Span.isEmpty, beq_iff_eq, hsize, ← h.cursor_eq]
  split_ifs
  · exact .inr ⟨_, b.cursor, rfl, rfl⟩
  · exact .inr ⟨_, b.cursor, rfl, rfl⟩
  · exact .inr ⟨_, b.cursor, rfl, rfl⟩
  · exact .inl ⟨_, _, rfl, rfl⟩

/-- **A builder takes the token that the replay takes**, and has the error that the replay has. -/
theorem take_eq (h : b.At source s) (hs : s.Reads source) (l : Lexeme) :
    (∃ t, s.take l = .ok (t, s.behind source t) ∧
      b.take l = (.ok t, { b with cursor := t.span.stop + 1 })) ∨
      ∃ err cursor, s.take l = .error err ∧ b.take l = (.error err, { b with cursor }) := by
  have htake : b.SameToken (s.take l) (b.take l) := by
    unfold take State.take
    cases l.place with
    | none => exact sameToken_locate h hs l.kind l.text
    | some span => exact sameToken_check h hs l.kind l.text span
  refine htake.imp_left ?_
  rintro ⟨t, s', hs', hb⟩
  obtain ⟨-, rfl⟩ := State.takes_of_take hs hs'
  exact ⟨t, hs', hb⟩

/-! ### One event -/

/-- A builder without an error and a replay after the same events. -/
structure Mirrors (source : String) (b : Builder) (s : State) : Prop extends b.At source s where
  /-- The builder has no error. -/
  error_eq : b.error = none
  /-- Nodes are numbered by their positions. -/
  next_eq : s.next = b.nodes.size
  /-- The tokens agree, and the productions around them. -/
  stream_eq : s.stream.reverse = b.stream
  /-- The same productions have not yet ended. -/
  opened_eq : b.opened = s.opened.map (·.id)
  /-- The root is the outermost of these, or the root of the finished tree. -/
  root_eq : b.root = b.opened.getLast?.or (s.root.map Tree.id)
  /-- The productions that have not yet ended have the same children. -/
  hangs : b.Hangs none s.opened
  /-- These children are in the arena. -/
  children_held : ∀ o ∈ s.opened, ∀ c ∈ o.children, b.Holds b.opened c
  /-- So is the finished tree. -/
  root_held : ∀ t, s.root = some t → b.Holds b.opened t

theorem mirrors_start (source : String) : (start source).Mirrors source (State.initial source) where
  chars_eq := rfl
  cursor_eq := rfl
  error_eq := rfl
  next_eq := rfl
  stream_eq := rfl
  opened_eq := rfl
  root_eq := rfl
  hangs := trivial
  children_held := by simp [State.initial]
  root_held := by simp [State.initial]

theorem Coherent.opened_nodup (hb : b.Coherent) : b.opened.Nodup := by
  have hchain : b.opened.IsChain (· > ·) :=
    hb.opened_path.imp fun n m hparent => (hb.linked.parent_lt n m hparent).1
  exact hchain.pairwise.imp Nat.ne_of_gt

theorem Mirrors.opened_eq_cons (h : b.Mirrors source s) {top : Opened} {below : List Opened}
    (hopened : s.opened = top :: below) : b.opened = top.id :: below.map (·.id) := by
  rw [h.opened_eq, hopened, List.map_cons]

theorem Mirrors.nodup_ids (h : b.Mirrors source s) (hb : b.Coherent) :
    (s.opened.map (·.id)).Nodup :=
  h.opened_eq ▸ hb.opened_nodup

theorem Mirrors.id_lt_size (h : b.Mirrors source s) (hb : b.Coherent) {o : Opened}
    (ho : o ∈ s.opened) : o.id < b.nodes.size :=
  hb.lt_size_of_mem_opened (h.opened_eq ▸ List.mem_map_of_mem ho)

theorem Mirrors.enter (h : b.Mirrors source s) (hb : b.Coherent) (r : RuleId) :
    Mirrors source
      { b with
        toArena := b.toArena.addNode (.rule r) b.opened.head?
        root := if b.opened.head?.isNone then some b.nodes.size else b.root
        opened := b.nodes.size :: b.opened }
      { s with next := s.next + 1, opened := ⟨s.next, r, []⟩ :: s.opened } := by
  have hkeep : ∀ t, b.Holds b.opened t →
      (b.toArena.addNode (.rule r) b.opened.head?).Holds (b.nodes.size :: b.opened) t :=
    fun t ht => ht.keep (Arena.keeps_addNode _ fun m hm => List.mem_of_head? hm)
      fun n hn hclosed => List.not_mem_cons_of_ne_of_not_mem (Nat.ne_of_lt hn) hclosed
  have hlt : ∀ m, b.opened.head? = some m → m < b.nodes.size :=
    fun m hm => hb.lt_size_of_mem_opened (List.mem_of_head? hm)
  exact
    { chars_eq := h.chars_eq
      cursor_eq := h.cursor_eq
      error_eq := h.error_eq
      next_eq := by rw [Arena.size_nodes_addNode, h.next_eq]
      stream_eq := h.stream_eq
      opened_eq := by rw [List.map_cons, ← h.opened_eq, h.next_eq]
      root_eq := by
        have hroot := h.root_eq
        revert hroot
        cases b.opened with
        | nil => exact fun _ => rfl
        | cons m below => exact fun hroot => hroot
      hangs := by
        refine ⟨?_, ?_, ?_⟩
        · rw [Arena.ruleAt?_addNode, if_pos h.next_eq]
          rfl
        · rw [Arena.childrenAt_addNode hlt, h.next_eq, Arena.childrenAt_eq_empty (Nat.le_refl _),
            if_neg fun hm => absurd (hlt _ hm) (Nat.lt_irrefl _)]
          rfl
        · rw [h.opened_eq, h.next_eq]
          exact h.hangs.addNode _ (fun o => h.id_lt_size hb) (h.nodup_ids hb)
      children_held := List.forall_mem_cons.mpr
        ⟨by simp, fun o ho c hc => hkeep c (h.children_held o ho c hc)⟩
      root_held := fun t ht => hkeep t (h.root_held t ht) }

theorem stream_addToken {a : Arena} (h : a.tokenParents.size = a.tokens.size) (t : Token)
    (rule : Option RuleId) : (a.addToken t rule).stream = a.stream ++ [⟨t, rule⟩] := by
  rw [Arena.stream, Arena.addToken, Array.toList_push, Array.toList_push,
    List.zipWith_append (by simpa using h.symm)]
  rfl

theorem holds_addTerminal {a : Arena} {opened : List Nat} {m : Nat} (t : Token)
    (hopened : a.nodes.size ∉ opened) :
    (a.addTerminal t m).Holds opened (.leaf a.nodes.size t) := by
  have hindex : (a.addTerminal t m).tokenAt? a.nodes.size = some a.tokens.size :=
    Arena.tokenAt?_addNode.trans (if_pos rfl)
  have hrange : (a.addTerminal t m).rangeAt? a.nodes.size = some (a.tokens.size, a.tokens.size) :=
    (Arena.bind_getElem?_addNode fun _ _ => rfl).trans (if_pos rfl)
  exact .leaf hopened hindex hrange Array.getElem?_push_size

theorem Mirrors.token (h : b.Mirrors source s) (hb : b.Coherent) {top : Opened}
    {below : List Opened} (hopened : s.opened = top :: below) (t : Token) :
    Mirrors source
      { b with
        cursor := t.span.stop + 1
        toArena := b.toArena.addTerminal t top.id }
      { s.behind source t with
        next := s.next + 1
        opened := top.add (.leaf s.next t) :: below
        stream := ⟨t, some top.rule⟩ :: s.stream } := by
  have hids := h.opened_eq_cons hopened
  have hkeep : ∀ x, b.Holds b.opened x → (b.toArena.addTerminal t top.id).Holds b.opened x :=
    fun x hx => hx.keep (Arena.keeps_addTerminal t (by simp [hids])) fun _ _ hclosed => hclosed
  have hfresh : b.nodes.size ∉ b.opened :=
    fun hmem => absurd (hb.lt_size_of_mem_opened hmem) (Nat.lt_irrefl _)
  have hbefore : (b.toArena.addToken t (b.ruleAt? top.id)).Hangs none s.opened :=
    h.hangs.congr (fun _ _ => rfl) fun _ _ => rfl
  have hadded := hbefore.addNode (.terminal b.tokens.size) (fun o => h.id_lt_size hb)
    (h.nodup_ids hb)
  have hhangs := h.hangs
  have hheld := h.children_held
  rw [hopened] at hadded hhangs hheld
  rw [List.forall_mem_cons] at hheld
  exact
    { chars_eq := h.chars_eq
      cursor_eq := rfl
      error_eq := h.error_eq
      next_eq := by
        change s.next + 1 = (Arena.addNode _ _ _).nodes.size
        rw [Arena.size_nodes_addNode, h.next_eq]
        rfl
      stream_eq := by
        change (_ :: s.stream).reverse = (b.toArena.addToken t (b.ruleAt? top.id)).stream
        rw [stream_addToken hb.threaded.size_tokenParents, List.reverse_cons, h.stream_eq, hhangs.1]
      opened_eq := hids
      root_eq := h.root_eq
      hangs := by
        refine ⟨hadded.1, ?_, hadded.2.2⟩
        change ((b.toArena.addTerminal t top.id).childrenAt top.id).toList = _
        refine hadded.2.1.trans ?_
        simp [Opened.add, Tree.id, h.next_eq, Arena.addToken]
      children_held := by
        refine List.forall_mem_cons.mpr ⟨List.forall_mem_cons.mpr ⟨?_, ?_⟩, ?_⟩
        · rw [h.next_eq]
          exact holds_addTerminal t hfresh
        · exact fun c hc => hkeep c (hheld.1 c hc)
        · exact fun o ho c hc => hkeep c (hheld.2 o ho c hc)
      root_held := fun x hx => hkeep x (h.root_held x hx) }

theorem Mirrors.hidden (h : b.Mirrors source s) (hb : b.Coherent) (t : Token) :
    Mirrors source
      { b with
        cursor := t.span.stop + 1
        toArena := b.toArena.addToken t none }
      { s.behind source t with stream := ⟨t, none⟩ :: s.stream } := by
  have hkeep : ∀ x, b.Holds b.opened x → (b.toArena.addToken t none).Holds b.opened x :=
    fun x hx => hx.keep (Arena.keeps_addToken _ _ t none) fun _ _ hclosed => hclosed
  exact
    { chars_eq := h.chars_eq
      cursor_eq := rfl
      error_eq := h.error_eq
      next_eq := h.next_eq
      stream_eq := by
        rw [stream_addToken hb.threaded.size_tokenParents, List.reverse_cons, h.stream_eq]
      opened_eq := h.opened_eq
      root_eq := h.root_eq
      hangs := h.hangs.congr (fun _ _ => rfl) fun _ _ => rfl
      children_held := fun o ho c hc => hkeep c (h.children_held o ho c hc)
      root_held := fun x hx => hkeep x (h.root_held x hx) }

/-- When the innermost production ends, it is in the arena as a tree, and so is all that was there
before. -/
theorem Mirrors.close (h : b.Mirrors source s) (hb : b.Coherent) {top : Opened}
    {below : List Opened} (hopened : s.opened = top :: below) :
    (b.toArena.endNode top.id).Holds (below.map (·.id)) top.close ∧
      ∀ t, b.Holds b.opened t → (b.toArena.endNode top.id).Holds (below.map (·.id)) t := by
  have hids := h.opened_eq_cons hopened
  have htop : top.id ∈ b.opened := by simp [hids]
  have hdistinct := hb.opened_nodup
  rw [hids, List.nodup_cons] at hdistinct
  have hhangs := h.hangs
  rw [hopened] at hhangs
  have hchildren : (b.childrenAt top.id).toList = top.children.reverse.map Tree.id := by
    simpa using hhangs.2.1
  have hheld : ∀ c ∈ top.children.reverse, b.Holds b.opened c :=
    fun c hc => h.children_held top (by simp [hopened]) c (List.mem_reverse.mp hc)
  have hkeep : ∀ t, b.Holds b.opened t →
      (b.toArena.endNode top.id).Holds (below.map (·.id)) t := fun t ht =>
    ht.keep (Arena.keeps_endNode htop) fun n _ hclosed hmem => hclosed (by simp [hids, hmem])
  refine ⟨.node hdistinct.1 ?_ ?_ ?_ fun c hc => hkeep c (hheld c hc), hkeep⟩
  · rw [Arena.ruleAt?_endNode, hhangs.1]
  · rw [Arena.childrenAt_endNode, hchildren]
  · rw [Arena.rangeAt?_endNode_self (hb.lt_size_of_mem_opened htop)]
    exact Arena.map_spanOver?_rangeOver? hchildren hheld

theorem Mirrors.leaveRoot (h : b.Mirrors source s) (hb : b.Coherent) {top : Opened}
    (hopened : s.opened = [top]) :
    Mirrors source { b with toArena := b.toArena.endNode top.id, opened := [] }
      { s with opened := [], root := some top.close } := by
  obtain ⟨hclose, -⟩ := h.close hb hopened
  have hroot := h.root_eq
  rw [h.opened_eq, hopened] at hroot
  exact
    { chars_eq := h.chars_eq
      cursor_eq := h.cursor_eq
      error_eq := h.error_eq
      next_eq := by rw [Arena.size_nodes_endNode, h.next_eq]
      stream_eq := h.stream_eq
      opened_eq := rfl
      root_eq := hroot
      hangs := trivial
      children_held := by simp
      root_held := by
        intro t ht
        obtain rfl := Option.some.inj ht
        exact hclose }

theorem Mirrors.leaveInner (h : b.Mirrors source s) (hb : b.Coherent) {top around : Opened}
    {below : List Opened} (hopened : s.opened = top :: around :: below) :
    Mirrors source
      { b with
        toArena := b.toArena.endNode top.id
        opened := (around :: below).map (·.id) }
      { s with opened := around.add top.close :: below } := by
  obtain ⟨hclose, hkeep⟩ := h.close hb hopened
  have hroot := h.root_eq
  have hhangs : (b.toArena.endNode top.id).Hangs none s.opened :=
    h.hangs.congr (fun _ _ => Arena.ruleAt?_endNode) fun _ _ => Arena.childrenAt_endNode
  have hheld := h.children_held
  rw [hopened] at hhangs hheld
  rw [h.opened_eq, hopened] at hroot
  obtain ⟨-, -, hrule, hchildren, hbelow⟩ := hhangs
  have hadd : (around.add top.close).children.reverse.map Tree.id
      = around.children.reverse.map Tree.id ++ [top.id] := by
    simp [Opened.add, Opened.close, Tree.branch, Tree.id]
  rw [List.forall_mem_cons, List.forall_mem_cons] at hheld
  exact
    { chars_eq := h.chars_eq
      cursor_eq := h.cursor_eq
      error_eq := h.error_eq
      next_eq := by rw [Arena.size_nodes_endNode, h.next_eq]
      stream_eq := h.stream_eq
      opened_eq := rfl
      root_eq := hroot
      hangs := ⟨hrule, by rw [hadd, Option.toList_none, List.append_nil]; exact hchildren, hbelow⟩
      children_held := List.forall_mem_cons.mpr
        ⟨List.forall_mem_cons.mpr ⟨hclose, fun c hc => hkeep c (hheld.2.1 c hc)⟩,
          fun o ho c hc => hkeep c (hheld.2.2 o ho c hc)⟩
      root_held := fun t ht => hkeep t (h.root_held t ht) }

/-- What a builder and a replay have come to after the same events: states that mirror each other,
or the same error. -/
def Follows (source : String) (b : Builder) : Except Error State → Prop
  | .ok s => b.Mirrors source s
  | .error err => b.error = some err

theorem addTerminal_nil (h : b.opened = []) (t : Token) :
    b.addTerminal t = b.fail (.tokenOutsideNode t.text) := by
  unfold addTerminal
  split
  · rfl
  · simp_all

theorem addTerminal_cons {n : Nat} {below : List Nat} (h : b.opened = n :: below) (t : Token) :
    b.addTerminal t = { b with toArena := b.toArena.addTerminal t n } := by
  unfold addTerminal
  split
  · simp_all
  · simp_all

theorem follows_fail (h : b.error = none) (err : Error) :
    (b.fail err).Follows source (.error err) := by
  rw [fail_eq h]
  rfl

/-- **One event.** Where the replay goes on the builder goes along, and where the replay stops the
builder keeps the reason. -/
theorem Mirrors.step (h : b.Mirrors source s) (hb : b.Coherent) (hs : s.Reads source) (e : Event) :
    (b.step e).Follows source (s.step e) := by
  unfold Builder.step
  rw [if_neg (by simp [h.error_eq])]
  cases e with
  | enter r =>
    have hfirst : (b.opened.head?.isNone && b.root.isSome)
        = (s.opened.isEmpty && s.root.isSome) := by
      rw [h.root_eq, h.opened_eq]
      cases s.opened <;> simp
    simp only [Builder.enter, State.step, hfirst]
    split
    · exact follows_fail h.error_eq _
    · exact h.enter hb r
  | token l =>
    simp only [report, State.step]
    rcases take_eq h.toAt hs l with ⟨t, hstake, hbtake⟩ | ⟨err, cursor, hstake, hbtake⟩
    · rw [hstake, hbtake]
      have hids : b.opened = (s.behind source t).opened.map (·.id) := h.opened_eq
      simp only [bind, Except.bind]
      cases hopened : (s.behind source t).opened with
      | nil =>
        rw [hopened] at hids
        rw [addTerminal_nil (by exact hids)]
        exact follows_fail (b := { b with cursor := t.span.stop + 1 }) h.error_eq _
      | cons top below =>
        rw [hopened] at hids
        rw [addTerminal_cons (by exact hids)]
        exact h.token hb hopened t
    · rw [hstake, hbtake]
      exact follows_fail (b := { b with cursor }) h.error_eq err
  | hidden l =>
    simp only [report, State.step]
    rcases take_eq h.toAt hs l with ⟨t, hstake, hbtake⟩ | ⟨err, cursor, hstake, hbtake⟩
    · rw [hstake, hbtake]
      exact h.hidden hb t
    · rw [hstake, hbtake]
      exact follows_fail (b := { b with cursor }) h.error_eq err
  | leave =>
    have hids := h.opened_eq
    simp only [leave, State.step]
    cases hopened : s.opened with
    | nil =>
      rw [hopened] at hids
      rw [hids]
      exact follows_fail h.error_eq _
    | cons top below =>
      rw [hopened] at hids
      rw [hids]
      cases below with
      | nil => exact h.leaveRoot hb hopened
      | cons around below => exact h.leaveInner hb hopened

/-! ### All events -/

theorem step_of_error (h : b.error.isSome) (e : Event) : b.step e = b := by
  unfold step
  rw [if_pos h]

/-- **Any number of events.** -/
theorem follows_run (source : String) (events : List Event) :
    ((start source).run events).Follows source (replay source events) := by
  induction events using List.reverseRecOn with
  | nil => exact mirrors_start source
  | append_singleton events e ih =>
    rw [run_concat, Parse.replay_concat]
    cases hreplay : replay source events with
    | error err =>
      rw [hreplay] at ih
      rw [step_of_error (by rw [show _ = some err from ih]; rfl)]
      exact ih
    | ok s =>
      rw [hreplay] at ih
      exact Mirrors.step ih (coherent_run source events) (Parse.sound_of_replay hreplay).reads e

/-- **The error that a builder keeps is the one that stops the replay.** -/
theorem error_run_iff {err : Error} :
    ((start source).run events).error = some err ↔ replay source events = .error err := by
  have h := follows_run source events
  cases hreplay : replay source events with
  | error err' =>
    rw [hreplay] at h
    rw [show _ = some err' from h]
    simp
  | ok s =>
    rw [hreplay] at h
    rw [show _ = none from h.error_eq]
    simp

/-- What is read off a finished arena is what the replay ends with. -/
theorem Mirrors.finish (h : b.Mirrors source s) (hb : b.Coherent) :
    b.finish.map Parse.ofArena = s.finish := by
  unfold Builder.finish State.finish
  rw [h.error_eq, h.root_eq, h.opened_eq]
  cases hopened : s.opened with
  | cons top below => simp [Except.map]
  | nil =>
    cases hroot : s.root with
    | none => rfl
    | some t =>
      have hread := (h.root_held t hroot).getElem?_trees hb.linked
      simp [Except.map, Parse.ofArena, hread, h.stream_eq]

theorem linked_of_build {a : RootedArena} (h : build source events = .ok a) : a.Linked := by
  obtain ⟨-, -, -, harena⟩ := finish_eq_ok.mp h
  exact harena ▸ (coherent_run source events).linked

/-- **A finished arena holds the tree that is read off it.** -/
theorem holds_root {a : RootedArena} (h : build source events = .ok a) :
    a.Holds [] (Parse.ofArena a).root := by
  obtain ⟨herror, hopened, hroot, harena⟩ := finish_eq_ok.mp h
  have hfollows := follows_run source events
  cases hreplay : replay source events with
  | error err =>
    rw [error_run_iff.mpr hreplay] at herror
    contradiction
  | ok s =>
    rw [hreplay] at hfollows
    have hmirrors : Mirrors source _ s := hfollows
    have hid := hmirrors.root_eq
    rw [hroot, hopened, List.getLast?_nil, Option.none_or, eq_comm, Option.map_eq_some_iff] at hid
    obtain ⟨t, ht, hid⟩ := hid
    have hheld := hmirrors.root_held t ht
    rw [hopened, harena] at hheld
    have hread := hheld.getElem?_trees (linked_of_build h)
    rw [Parse.ofArena, ← hid, hread]
    exact hheld

end Builder

namespace Parse

/-- **What is read off the arena is what the replay builds**, and the errors are the same. -/
theorem ofEvents_eq_replay (source : String) (events : List Event) :
    ofEvents source events = replay source events >>= State.finish := by
  have h := Builder.follows_run source events
  rw [ofEvents, Builder.build]
  cases hreplay : replay source events with
  | error err =>
    rw [hreplay] at h
    unfold Builder.finish
    rw [show _ = some err from h]
    rfl
  | ok s =>
    rw [hreplay] at h
    exact h.finish (Builder.coherent_run source events)

end Parse

namespace Arena

variable {a : Arena} {opened : List Nat} {t u : Tree}

theorem Holds.ruleAt?_eq (h : a.Holds opened t) : a.ruleAt? t.id = t.rule? := by
  cases h with
  | leaf hclosed hindex hrange htoken =>
    obtain ⟨node, hnode, hkind⟩ := Option.bind_eq_some_iff.mp hindex
    rw [Tree.id, ruleAt?, hnode, Option.bind_some, Node.rule?, Node.token?_eq_some.mp hkind]
    rfl
  | node hclosed hrule hchildren hrange hcs => exact hrule

theorem Holds.childrenAt_eq (h : a.Holds opened t) (hlinked : a.Linked) :
    (a.childrenAt t.id).toList = t.children.map Tree.id := by
  cases h with
  | leaf hclosed hindex hrange htoken =>
    rw [Tree.id, hlinked.children_of_token hindex]
    rfl
  | node hclosed hrule hchildren hrange hcs => exact hchildren

theorem Holds.of_mem_nodes (h : a.Holds opened t) (hu : u ∈ t.nodes) : a.Holds opened u := by
  induction h with
  | leaf hclosed hindex hrange htoken =>
    rw [Tree.nodes_leaf, List.mem_singleton] at hu
    exact hu ▸ .leaf hclosed hindex hrange htoken
  | node hclosed hrule hchildren hrange hcs ih =>
    rcases Tree.mem_nodes.mp hu with rfl | ⟨c, hc, hu⟩
    · exact .node hclosed hrule hchildren hrange hcs
    · exact ih c hc hu

end Arena

end Highlighting

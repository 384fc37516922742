import Highlighting.Proofs.Cue
import Highlighting.Proofs.Marks

/-!
# Rules do not look at offsets

The tokens of a tree can be moved to other offsets. This changes the spans of tokens and productions
and nothing else, and what looks at a tree through its productions, kinds and texts alone sees no
difference. The rules of every language look at trees in this way: they mark the same nodes in a
moved tree, and the marks are the old ones, moved.

Starts and stops are moved separately. A production starts where its first token does and stops
where its last one does, so no production has to know which tokens it covers, and the length of a
token may change.

## Main definitions

* `Relocation`: where the starts and the stops of tokens go
* `Tree.move`, `Site.move`, `Override.move`: the same node, site or mark, with its spans moved

## Main results

* `Scan.search_move`: a scan finds the same nodes in a moved forest
* `Language.marks_move`: every rule of every language makes the same marks in a moved tree
* `Site.departures_move`: a walk leaves the productions of a moved tree in the same order
-/

namespace Highlighting

/-- Where the starts and the stops of tokens go. -/
structure Relocation where
  /-- Where a token that started at an offset starts. -/
  start : Nat → Nat
  /-- Where a token that stopped at an offset stops. -/
  stop : Nat → Nat

variable (f : Relocation)

/-- The span with both ends moved. -/
def Span.move (s : Span) : Span := ⟨f.start s.start, f.stop s.stop⟩

/-- The token at the moved span. -/
def Token.move (t : Token) : Token := { t with span := t.span.move f }

/-- The token at the moved span, under the same production. -/
def StreamToken.move (t : StreamToken) : StreamToken := { t with token := t.token.move f }

/-- The override for the moved span. -/
def Override.move (o : Override) : Override := { o with span := o.span.move f }

/-! ### Trees -/

namespace Tree

/-- The tree with the spans of all tokens and productions moved. -/
def move : Tree → Tree :=
  fold (fun n t => .leaf n (t.move f)) (fun n r s cs => .node n r (s.map (·.move f)) cs)

@[simp] theorem move_leaf (n : Nat) (t : Token) : (leaf n t).move f = leaf n (t.move f) := by
  rw [move, fold_leaf]

@[simp] theorem move_node (n : Nat) (r : RuleId) (s : Option Span) (cs : List Tree) :
    (node n r s cs).move f = node n r (s.map (·.move f)) (cs.map (move f)) := by
  simp only [move, fold_node]

@[simp] theorem children_move (t : Tree) : (t.move f).children = t.children.map (move f) := by
  cases t <;> simp [children]

@[simp] theorem span_move (t : Tree) : (t.move f).span = t.span.map (·.move f) := by
  cases t <;> simp [span, Token.move]

@[simp] theorem rule?_move (t : Tree) : (t.move f).rule? = t.rule? := by
  cases t <;> simp [rule?]

@[simp] theorem isLeaf_move (t : Tree) : (t.move f).isLeaf = t.isLeaf := by
  cases t <;> simp [isLeaf]

@[simp] theorem isRule_move (t : Tree) (r : RuleId) : (t.move f).isRule r = t.isRule r := by
  cases t <;> simp [isRule]

@[simp] theorem isAnyRule_move (t : Tree) (rs : List RuleId) :
    (t.move f).isAnyRule rs = t.isAnyRule rs := by
  cases t <;> simp [isAnyRule]

@[simp] theorem isAnyText_move (t : Tree) (texts : List String) :
    (t.move f).isAnyText texts = t.isAnyText texts := by
  cases t <;> simp [isAnyText, text?, token?, Token.move]

/-! What is found one level down is found in the moved tree, moved. -/

theorem isRule_comp_move (r : RuleId) : (fun t : Tree => t.isRule r) ∘ move f = (·.isRule r) :=
  funext fun t => t.isRule_move f r

@[simp] theorem child?_move (t : Tree) (n : Nat) :
    (t.move f).child? n = (t.child? n).map (move f) := by
  simp [child?]

@[simp] theorem childrenOf_move (t : Tree) (r : RuleId) :
    (t.move f).childrenOf r = (t.childrenOf r).map (move f) := by
  rw [childrenOf, children_move, List.filter_map, isRule_comp_move, childrenOf]

@[simp] theorem nthChildOf?_move (t : Tree) (r : RuleId) (n : Nat) :
    (t.move f).nthChildOf? r n = (t.nthChildOf? r n).map (move f) := by
  simp [nthChildOf?]

@[simp] theorem firstChildOf?_move (t : Tree) (r : RuleId) :
    (t.move f).firstChildOf? r = (t.firstChildOf? r).map (move f) := by
  rw [firstChildOf?, children_move, List.find?_map, isRule_comp_move, firstChildOf?]

@[simp] theorem hasChildOf_move (t : Tree) (r : RuleId) :
    (t.move f).hasChildOf r = t.hasChildOf r := by
  rw [hasChildOf, children_move, List.any_map, isRule_comp_move, hasChildOf]

theorem filter_isRule_move (o : Option Tree) (r : RuleId) :
    (o.map (move f)).filter (·.isRule r) = (o.filter (·.isRule r)).map (move f) := by
  cases o <;> simp [Option.filter_some, apply_ite]

/-! So is what is found all the way down. -/

@[simp] theorem nodes_move (t : Tree) : (t.move f).nodes = t.nodes.map (move f) := by
  induction t using induction with
  | leaf n t => simp
  | node n r s cs ih =>
    rw [move_node, nodes_node, nodes_node, List.map_cons, move_node, List.flatMap_map,
      List.map_flatMap, List.flatMap_congr ih]

@[simp] theorem descendants_move (t : Tree) :
    (t.move f).descendants = t.descendants.map (move f) := by
  simpa [nodes] using t.nodes_move f

@[simp] theorem descendantsOf_move (t : Tree) (r : RuleId) :
    (t.move f).descendantsOf r = (t.descendantsOf r).map (move f) := by
  rw [descendantsOf, descendants_move, List.filter_map, isRule_comp_move, descendantsOf]

theorem tokens_move (t : Tree) : (t.move f).tokens = t.tokens.map (·.move f) := by
  rw [tokens, nodes_move, List.filterMap_map, tokens, List.map_filterMap]
  refine List.filterMap_congr fun u _ => ?_
  cases u <;> simp [token?]

theorem visible_move (t : Tree) (parent : Option RuleId) :
    (t.move f).visible parent = (t.visible parent).map (·.move f) := by
  induction t using induction generalizing parent with
  | leaf n t => simp [StreamToken.move]
  | node n r s cs ih =>
    rw [move_node, visible_node, visible_node, List.flatMap_map, List.map_flatMap]
    exact List.flatMap_congr fun c hc => ih c hc (some r)

theorem cues_move (t : Tree) : (t.move f).cues = t.cues.map (Cue.map (·.move f)) := by
  induction t using induction with
  | leaf n t => simp [Cue.map]
  | node n r s cs ih =>
    rw [move_node, cues_node, cues_node, List.map_append, List.map_cons, List.map_flatMap,
      List.flatMap_map, List.flatMap_congr ih]
    rfl

theorem spanOfChildren_move (cs : List Tree) :
    spanOfChildren (cs.map (move f)) = (spanOfChildren cs).map (·.move f) := by
  have hspan : ∀ ts : List Tree,
      (ts.map (move f)).findSome? span = (ts.findSome? span).map (·.move f) := by
    intro ts
    induction ts with
    | nil => rfl
    | cons t ts ih =>
      rw [List.map_cons, List.findSome?_cons, List.findSome?_cons, span_move, ih]
      cases t.span <;> rfl
  rw [spanOfChildren, ← List.map_reverse, hspan, hspan, spanOfChildren]
  cases cs.findSome? span <;> cases cs.reverse.findSome? span <;> rfl

/-- A moved tree has the spans that its children give. -/
theorem Spanned.move {t : Tree} (h : t.Spanned) : (t.move f).Spanned := by
  intro n r s cs hmem
  rw [nodes_move] at hmem
  obtain ⟨u, hu, heq⟩ := List.mem_map.mp hmem
  cases u with
  | leaf m x => simp at heq
  | node m r' s' cs' =>
    rw [move_node] at heq
    obtain ⟨-, -, rfl, rfl⟩ := node.inj heq
    rw [h _ _ _ _ hu, spanOfChildren_move]

end Tree

@[simp] theorem Override.ofTree?_move (t : Tree) (category : Category) (origin : RuleId) :
    Override.ofTree? (t.move f) category origin
      = (Override.ofTree? t category origin).map (·.move f) := by
  simp [Override.ofTree?, Override.move, Function.comp_def]

/-! ### Scans -/

/-- The same match in the moved tree. -/
def Hit.move : Hit → Hit
  | .production t => .production (t.move f)
  | .terminal t => .terminal (t.move f)

namespace Scan

theorem hit?_move (scan : Scan) (t : Tree) :
    scan.hit? (t.move f) = (scan.hit? t).map (·.move f) := by
  cases t <;> simp [hit?, Token.move, Hit.move, apply_ite]

theorem inOrder_map_move (scan : Scan) (ts : List Tree) :
    scan.inOrder (ts.map (Tree.move f)) = (scan.inOrder ts).map (Tree.move f) := by
  unfold inOrder
  split
  · exact List.map_reverse.symm
  · rfl

/-- **A scan finds the same nodes in a moved forest**, provided that it does not ask for offsets
when it gives a category to a match. -/
theorem search_move {σ : Type} (scan : Scan) (origin : RuleId)
    {answer : σ → Hit → Option Category × σ}
    (hanswer : ∀ state hit, answer state (hit.move f) = answer state hit)
    (pending : List Tree) (state : σ) (made : List Override) :
    scan.search origin answer (pending.map (Tree.move f)) state (made.map (·.move f))
      = Prod.map (List.map (·.move f)) id (scan.search origin answer pending state made) := by
  -- Going down from a moved node reaches the children of the node, moved.
  have hdown : ∀ (t : Tree) (rest : List Tree),
      scan.inOrder (t.move f).children ++ rest.map (Tree.move f)
        = (scan.inOrder t.children ++ rest).map (Tree.move f) := by
    intro t rest
    rw [Tree.children_move, inOrder_map_move, List.map_append]
  fun_induction search scan origin answer pending state made with
  | case1 state made => simp [search]
  | case2 t rest state made hhit ih =>
    rw [List.map_cons, search, hit?_move, hhit]
    simp only [Option.map_none]
    rw [hdown, ih]
  | case3 t rest state made hit hhit state' hans ih =>
    rw [List.map_cons, search, hit?_move, hhit]
    simp only [Option.map_some, hanswer, hans]
    rw [hdown, ih]
  | case4 t rest state made hit hhit category state' hans hmark ih =>
    rw [List.map_cons, search, hit?_move, hhit]
    simp only [Option.map_some, hanswer, hans, Override.ofTree?_move, hmark, Option.map_none]
    exact ih
  | case5 t rest state made hit hhit category state' hans mark hmark hfirst =>
    rw [List.map_cons, search, hit?_move, hhit]
    simp only [Option.map_some, hanswer, hans, Override.ofTree?_move, hmark, if_pos hfirst]
    simp
  | case6 t rest state made hit hhit category state' hans mark hmark hfirst ih =>
    rw [List.map_cons, search, hit?_move, hhit]
    simp only [Option.map_some, hanswer, hans, Override.ofTree?_move, hmark, if_neg hfirst]
    exact ih

theorem run_move {σ : Type} (scan : Scan) (origin : RuleId)
    {answer : σ → Hit → Option Category × σ}
    (hanswer : ∀ state hit, answer state (hit.move f) = answer state hit) (state : σ) (t : Tree) :
    (scan.run origin answer state (t.move f)).1
      = (scan.run origin answer state t).1.map (·.move f) := by
  rw [run, Tree.children_move, inOrder_map_move]
  exact congrArg Prod.fst (scan.search_move f origin hanswer _ state [])

@[simp] theorem marks_move (scan : Scan) (origin : RuleId) (category : Category) (t : Tree) :
    scan.marks origin category (t.move f) = (scan.marks origin category t).map (·.move f) :=
  scan.run_move f origin (fun _ _ => rfl) () t

end Scan

/-! ### Sites and walks -/

namespace Site

/-- The site of the moved node. -/
def move (s : Site) : Site := ⟨s.tree.move f, s.ancestors.map (Tree.move f)⟩

@[simp] theorem tree_move (s : Site) : (s.move f).tree = s.tree.move f := rfl

@[simp] theorem parent?_move (s : Site) : (s.move f).parent? = s.parent?.map (move f) := by
  obtain ⟨t, _ | ⟨u, up⟩⟩ := s <;> rfl

@[simp] theorem children_move (s : Site) : (s.move f).children = s.children.map (move f) := by
  simp [children, move, Function.comp_def]

@[simp] theorem isUnder_move (s : Site) (r : RuleId) : (s.move f).isUnder r = s.isUnder r := by
  obtain ⟨t, _ | ⟨u, up⟩⟩ := s <;> simp [isUnder, move, parent?]

@[simp] theorem isTwoUnder_move (s : Site) (r : RuleId) :
    (s.move f).isTwoUnder r = s.isTwoUnder r := by
  obtain ⟨t, _ | ⟨u, _ | ⟨v, up⟩⟩⟩ := s <;> simp [isTwoUnder, move, parent?]

/-- **A walk leaves the productions of a moved tree in the same order.** -/
theorem departures_move (s : Site) : (s.move f).departures = s.departures.map (move f) := by
  induction s using induction with
  | leaf s hs =>
    rw [departures_of_isLeaf hs, departures_of_isLeaf (by simpa using hs), List.map_nil]
  | production s hs ih =>
    rw [departures_of_production hs, departures_of_production (by simpa using hs), children_move,
      List.flatMap_map, List.map_append, List.map_flatMap, List.flatMap_congr ih]
    rfl

end Site

/-! ### The rules for C++ -/

namespace Cpp

theorem classNameMarks_move (s : Site) :
    classNameMarks (s.move f) = (classNameMarks s).map (·.move f) := by
  rw [classNameMarks, classNameMarks]
  simp only [Site.isUnder_move, Site.isTwoUnder_move, classNameMarks.marks, Site.tree_move,
    Scan.marks_move]
  split_ifs <;> rfl

theorem declaratorListMarks_move (origin list item : Rule) (t : Tree) :
    declaratorListMarks origin list item (t.move f)
      = (declaratorListMarks origin list item t).map (·.move f) := by
  rw [declaratorListMarks, declaratorListMarks, Tree.child?_move, Tree.filter_isRule_move]
  cases (t.child? 1).filter (·.isRule list) with
  | none => rfl
  | some declarators =>
    simp only [Option.map_some, Tree.childrenOf_move, List.flatMap_map, List.map_flatMap,
      Scan.marks_move]

theorem simpleDeclarationMarks_move (s : Site) :
    simpleDeclarationMarks (s.move f) = (simpleDeclarationMarks s).map (·.move f) := by
  rw [simpleDeclarationMarks, simpleDeclarationMarks, Site.isTwoUnder_move, Site.tree_move,
    Tree.hasChildOf_move, declaratorListMarks_move]
  split_ifs <;> rfl

theorem noPointerDeclaratorMarks_move (t : Tree) :
    noPointerDeclaratorMarks (t.move f) = (noPointerDeclaratorMarks t).map (·.move f) := by
  rw [noPointerDeclaratorMarks, noPointerDeclaratorMarks, Tree.hasChildOf_move, Scan.marks_move]
  split_ifs <;> rfl

theorem templateId?_move (n : Nat) (o : Option Tree) :
    templateId? n (o.map (Tree.move f)) = (templateId? n o).map (Tree.move f) := by
  induction n generalizing o with
  | zero => simp [templateId?]
  | succ n ih =>
    cases o with
    | none => simp [templateId?]
    | some t =>
      rw [Option.map_some, templateId?, templateId?, Tree.isLeaf_move, Tree.isRule_move,
        Tree.child?_move, ih]
      split_ifs <;> rfl

theorem templatedCallee?_move (t : Tree) :
    templatedCallee? (t.move f) = (templatedCallee? t).map (Tree.move f) := by
  rw [templatedCallee?, Tree.child?_move, templateId?_move, templatedCallee?]

theorem calleeMarks_move (t : Tree) :
    calleeMarks (t.move f) = (calleeMarks t).map (·.move f) := by
  rw [calleeMarks, calleeMarks, templatedCallee?_move]
  cases templatedCallee? t <;> simp [operandMarks]

theorem firstOperandMarks_move (t parent : Tree) :
    firstOperandMarks (t.move f) (parent.move f) = (firstOperandMarks t parent).map (·.move f) := by
  rw [firstOperandMarks, firstOperandMarks, Tree.isRule_move, Tree.children_move, List.length_map,
    Tree.child?_move]
  split_ifs
  · cases parent.child? 1 with
    | none => rfl
    | some operator =>
      simp only [Option.map_some, Tree.isAnyText_move, calleeMarks_move, operandMarks,
        Scan.marks_move]
      split_ifs <;> rfl
  · rfl

theorem postfixExpressionMarks_move (s : Site) :
    postfixExpressionMarks (s.move f) = (postfixExpressionMarks s).map (·.move f) := by
  have hoperator : ((s.tree.child? 1).map (Tree.move f)).any (·.isAnyText accessors)
      = (s.tree.child? 1).any (·.isAnyText accessors) := by
    cases s.tree.child? 1 <;> simp
  have hparent : ((s.parent?.map (Site.move f)).elim [] fun parent =>
        firstOperandMarks (s.tree.move f) parent.tree)
      = (s.parent?.elim [] fun parent => firstOperandMarks s.tree parent.tree).map (·.move f) := by
    cases s.parent? with
    | none => rfl
    | some parent => exact firstOperandMarks_move f s.tree parent.tree
  rw [postfixExpressionMarks, postfixExpressionMarks]
  simp only [Site.isUnder_move, Site.tree_move, Tree.child?_move, Site.parent?_move, hoperator,
    hparent, operandMarks, Scan.marks_move, List.map_append]
  split_ifs <;> rfl

theorem typeParameterMarks_move (s : Site) :
    typeParameterMarks (s.move f) = (typeParameterMarks s).map (·.move f) := by
  rw [typeParameterMarks, typeParameterMarks, Site.isUnder_move, Site.tree_move, Scan.marks_move]
  split_ifs <;> rfl

theorem qualifiedIdMarks_move (t : Tree) :
    qualifiedIdMarks (t.move f) = (qualifiedIdMarks t).map (·.move f) := by
  have hscope : ∀ o : Option Tree,
      ((o.map (Tree.move f)).bind (·.child? 1)).any (·.isAnyText ["::"])
        = (o.bind (·.child? 1)).any (·.isAnyText ["::"]) := by
    intro o
    cases o with
    | none => rfl
    | some u =>
      rw [Option.map_some, Option.bind_some, Option.bind_some, Tree.child?_move]
      cases u.child? 1 <;> simp
  rw [qualifiedIdMarks, qualifiedIdMarks]
  simp only [Tree.child?_move, Tree.filter_isRule_move, hscope, Scan.marks_move]
  split_ifs <;> rfl

theorem marks_move (s : Site) : catalog.marks (s.move f) = (catalog.marks s).map (·.move f) := by
  simp only [catalog, Site.tree_move, Tree.rule?_move]
  split
  · exact classNameMarks_move f s
  · exact declaratorListMarks_move f _ _ _ _
  · exact simpleDeclarationMarks_move f s
  · exact noPointerDeclaratorMarks_move f _
  · exact postfixExpressionMarks_move f s
  · exact Scan.marks_move f _ _ _ _
  · exact typeParameterMarks_move f s
  · exact Scan.marks_move f _ _ _ _
  · exact Scan.marks_move f _ _ _ _
  · exact qualifiedIdMarks_move f _
  · rfl

end Cpp

/-! ### The rules for C# -/

namespace CSharp

theorem childIdentifierMarks_move (origin : Rule) (category : Category) (t : Tree) :
    childIdentifierMarks origin category (t.move f)
      = (childIdentifierMarks origin category t).map (·.move f) := by
  rw [childIdentifierMarks, childIdentifierMarks, Tree.firstChildOf?_move]
  cases t.firstChildOf? Rule.identifier with
  | none => rfl
  | some c => simp [Option.toList_map]

theorem namespaceDeclarationMarks_move (t : Tree) :
    namespaceDeclarationMarks (t.move f) = (namespaceDeclarationMarks t).map (·.move f) := by
  rw [namespaceDeclarationMarks, namespaceDeclarationMarks, Tree.firstChildOf?_move]
  cases t.firstChildOf? Rule.qualifiedIdentifier with
  | none => rfl
  | some c => exact Scan.marks_move f _ _ _ _

theorem eventDeclarationMarks_move (t : Tree) :
    eventDeclarationMarks (t.move f) = (eventDeclarationMarks t).map (·.move f) := by
  rw [eventDeclarationMarks, eventDeclarationMarks, Tree.firstChildOf?_move]
  cases t.firstChildOf? Rule.memberName with
  | none => rfl
  | some name => simp [List.filterMap_map, List.map_filterMap]

theorem qualifiedAliasMemberMarks_move (t : Tree) :
    qualifiedAliasMemberMarks (t.move f) = (qualifiedAliasMemberMarks t).map (·.move f) := by
  rw [qualifiedAliasMemberMarks, qualifiedAliasMemberMarks, Tree.nthChildOf?_move]
  cases t.nthChildOf? Rule.identifier 1 with
  | none => rfl
  | some c => simp [Option.toList_map]

theorem subject_move (t : Tree) : subject (t.move f) = (subject t).move f := by
  have halias : ∀ o : Option Tree,
      (o.map (Tree.move f)).bind (·.child? 2) = (o.bind (·.child? 2)).map (Tree.move f) := by
    intro o
    cases o <;> simp
  simp only [subject, Tree.isRule_move, Tree.child?_move, Tree.filter_isRule_move, halias]
  split_ifs
  · cases Option.filter _ _ <;> rfl
  · rfl

theorem subjectMarks_move (t : Tree) :
    subjectMarks (t.move f) = (subjectMarks t).map (·.move f) := by
  rw [subjectMarks, subjectMarks, Tree.isAnyRule_move, Tree.isRule_move, identifierMarks,
    identifierMarks, Scan.marks_move, Override.ofTree?_move, Option.toList_map]
  split_ifs <;> rfl

theorem primaryExpressionMarks_move (t : Tree) :
    primaryExpressionMarks (t.move f) = (primaryExpressionMarks t).map (·.move f) := by
  rw [primaryExpressionMarks_eq, primaryExpressionMarks_eq, Tree.children_move, ← List.map_tail,
    List.zip_map, List.flatMap_map, List.map_flatMap]
  refine List.flatMap_congr fun x _ => ?_
  simp only [marksBetween, Prod.map, Tree.isRule_move, subject_move, subjectMarks_move]
  split_ifs <;> rfl

theorem marks_move (s : Site) : catalog.marks (s.move f) = (catalog.marks s).map (·.move f) := by
  simp only [catalog, Site.tree_move, Tree.rule?_move]
  split
  any_goals exact Scan.marks_move f _ _ _ _
  any_goals exact childIdentifierMarks_move f _ _ _
  · exact namespaceDeclarationMarks_move f _
  · exact eventDeclarationMarks_move f _
  · exact primaryExpressionMarks_move f _
  · exact qualifiedAliasMemberMarks_move f _
  · rfl

end CSharp

/-! ### The rules for JavaScript -/

namespace JavaScript

theorem classDeclarationMarks_move (t : Tree) :
    classDeclarationMarks (t.move f) = (classDeclarationMarks t).map (·.move f) :=
  Scan.run_move f _ _ (fun _ hit => by cases hit <;> rfl) false t

theorem memberDotExpressionMarks_move (s : Site) :
    memberDotExpressionMarks (s.move f) = (memberDotExpressionMarks s).map (·.move f) := by
  have hanswer :
      memberDotExpressionMarks.answer (s.move f) = memberDotExpressionMarks.answer s := by
    funext _ hit
    cases hit <;> simp [memberDotExpressionMarks.answer]
  have hsame : ∀ state hit, memberDotExpressionMarks.answer s state (hit.move f)
      = memberDotExpressionMarks.answer s state hit := fun _ hit => by cases hit <;> rfl
  simp only [memberDotExpressionMarks, Site.isUnder_move, Site.tree_move, hanswer,
    Scan.run_move f _ _ hsame, Scan.marks_move]
  split_ifs <;> rfl

theorem calleeMarks_move (category : Category) (t : Tree) :
    calleeMarks category (t.move f) = (calleeMarks category t).map (·.move f) := by
  rw [calleeMarks, calleeMarks, Tree.childrenOf_move, List.flatMap_map, List.map_flatMap]
  refine List.flatMap_congr fun expression _ => ?_
  rw [Tree.child?_move, Tree.filter_isRule_move]
  cases (expression.child? 0).filter (·.isRule Rule.identifier) with
  | none => rfl
  | some name => exact Scan.marks_move f _ _ _ _

theorem marks_move (s : Site) : catalog.marks (s.move f) = (catalog.marks s).map (·.move f) := by
  simp only [catalog, Site.tree_move, Tree.rule?_move]
  split
  any_goals exact Scan.marks_move f _ _ _ _
  any_goals exact calleeMarks_move f _ _
  · exact classDeclarationMarks_move f _
  · exact memberDotExpressionMarks_move f s
  · rfl

end JavaScript

/-- **Rules do not look at offsets.** Every rule of every language makes the same marks, moved, in a
moved tree. -/
theorem Language.marks_move (language : Language) (s : Site) :
    language.catalog.marks (s.move f) = (language.catalog.marks s).map (·.move f) := by
  cases language with
  | cpp => exact Cpp.marks_move f s
  | csharp => exact CSharp.marks_move f s
  | javascript => exact JavaScript.marks_move f s

end Highlighting

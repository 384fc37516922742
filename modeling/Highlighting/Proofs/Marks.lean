import Highlighting.Language
import Highlighting.Proofs.Tree

/-!
# Rules mark beneath their production

A rule is applied when a production is left. It may look up, at the productions around, before it
decides what to mark, but what it marks lies strictly beneath the production itself: every mark
covers a descendant. The policy that the enclosing production wins rests on this, because two
productions that mark the same token are then one above the other.

The rules of all three languages are made of scans and of a few steps down to a child, so the fact
is proved for those and carried through the rules by `MarksBeneath.of_mem_nodes`, which moves the
starting point of a rule up.

## Main definitions

* `MarksBeneath`: a list of overrides that cover descendants of a node

## Main results

* `Scan.marksBeneath_run`: a scan marks beneath the node that it starts from
* `CSharp.primaryExpressionMarks_eq`: the loop over a chain, by pairs of neighbours
* `Language.marksBeneath`: so does every rule of every language
-/

namespace Highlighting

/-- Every override covers a node strictly beneath `t`. -/
def MarksBeneath (t : Tree) (os : List Override) : Prop :=
  ∀ o ∈ os, ∃ d ∈ t.descendants, d.span = some o.span

namespace MarksBeneath

variable {t u : Tree} {os us : List Override}

theorem nil (t : Tree) : MarksBeneath t [] := fun _ ho => absurd ho List.not_mem_nil

/-- There is nothing beneath a token. -/
theorem eq_nil (h : MarksBeneath t os) (ht : t.isLeaf = true) : os = [] := by
  refine List.eq_nil_iff_forall_not_mem.mpr fun o ho => ?_
  obtain ⟨d, hd, -⟩ := h o ho
  cases t with
  | leaf n x => simp [Tree.descendants_eq_flatMap, Tree.children] at hd
  | node n r s cs => contradiction

theorem append (ho : MarksBeneath t os) (hu : MarksBeneath t us) : MarksBeneath t (os ++ us) :=
  fun o h => (List.mem_append.mp h).elim (ho o) (hu o)

theorem cons {o : Override} (hos : MarksBeneath t os)
    (ho : ∃ d ∈ t.descendants, d.span = some o.span) : MarksBeneath t (o :: os) :=
  List.forall_mem_cons.mpr ⟨ho, hos⟩

theorem ite {c : Prop} [Decidable c] (ho : MarksBeneath t os) (hu : MarksBeneath t us) :
    MarksBeneath t (if c then os else us) := by
  split
  · exact ho
  · exact hu

theorem elim {α : Type} {x : Option α} {f : α → List Override}
    (h : ∀ a, x = some a → MarksBeneath t (f a)) : MarksBeneath t (x.elim [] f) := by
  cases x with
  | none => exact nil t
  | some a => exact h a rfl

theorem flatMap {α : Type} {xs : List α} {f : α → List Override}
    (h : ∀ x ∈ xs, MarksBeneath t (f x)) : MarksBeneath t (xs.flatMap f) := by
  intro o ho
  obtain ⟨x, hx, ho⟩ := List.mem_flatMap.mp ho
  exact h x hx o ho

/-- What lies beneath a node of a tree lies beneath the root. -/
theorem of_mem_nodes (h : MarksBeneath u os) (hu : u ∈ t.nodes) : MarksBeneath t os := by
  intro o ho
  obtain ⟨d, hd, hspan⟩ := h o ho
  obtain ⟨c, hc, hd⟩ := Tree.mem_descendants.mp hd
  rcases List.mem_cons.mp hu with rfl | hu
  · exact ⟨d, Tree.mem_descendants.mpr ⟨c, hc, hd⟩, hspan⟩
  · refine ⟨d, Tree.descendants_subset ?_ hu, hspan⟩
    exact Tree.mem_nodes.mpr (.inr ⟨c, hc, hd⟩)

theorem of_mem_children (h : MarksBeneath u os) (hu : u ∈ t.children) : MarksBeneath t os :=
  h.of_mem_nodes (List.mem_cons_of_mem _ (Tree.mem_descendants_of_mem_children hu))

theorem ofTree? {d : Tree} (hd : d ∈ t.descendants) (category : Category) (origin : RuleId) :
    MarksBeneath t (Override.ofTree? d category origin).toList := by
  intro o ho
  obtain ⟨span, hspan, rfl⟩ := Option.map_eq_some_iff.mp (Option.mem_toList.mp ho)
  exact ⟨d, hd, hspan⟩

end MarksBeneath

/-! ### One level down -/

namespace Tree

variable {t c : Tree} {r : RuleId} {n : Nat}

theorem mem_children_of_child? (h : t.child? n = some c) : c ∈ t.children :=
  List.mem_of_getElem? h

theorem mem_children_of_mem_childrenOf (h : c ∈ t.childrenOf r) : c ∈ t.children :=
  (List.mem_filter.mp h).1

theorem mem_children_of_nthChildOf? (h : t.nthChildOf? r n = some c) : c ∈ t.children :=
  mem_children_of_mem_childrenOf (List.mem_of_getElem? h)

theorem mem_children_of_firstChildOf? (h : t.firstChildOf? r = some c) : c ∈ t.children :=
  List.mem_of_find?_eq_some h

end Tree

/-! ### Scans -/

namespace Scan

theorem mem_inOrder {scan : Scan} {ts : List Tree} {t : Tree} : t ∈ scan.inOrder ts ↔ t ∈ ts := by
  unfold inOrder
  split <;> simp

theorem marksBeneath_search {σ : Type} (scan : Scan) (origin : RuleId)
    (answer : σ → Hit → Option Category × σ) {root : Tree} {pending : List Tree} (state : σ)
    {made : List Override} (hp : ∀ t ∈ pending, t ∈ root.descendants)
    (hm : MarksBeneath root made) :
    MarksBeneath root (scan.search origin answer pending state made).1 := by
  -- Going down from a pending node stays beneath the root, and marks are made at pending nodes.
  have hdown : ∀ {t : Tree} {rest : List Tree}, (∀ u ∈ t :: rest, u ∈ root.descendants) →
      ∀ u ∈ scan.inOrder t.children ++ rest, u ∈ root.descendants := by
    intro t rest h u hu
    rw [List.forall_mem_cons] at h
    rcases List.mem_append.mp hu with hu | hu
    · exact Tree.descendants_subset (Tree.mem_nodes_of_mem_children (mem_inOrder.mp hu)) h.1
    · exact h.2 u hu
  have hmarked : ∀ {t : Tree} {rest : List Tree} {category : Category} {mark : Override},
      (∀ u ∈ t :: rest, u ∈ root.descendants) →
      Override.ofTree? t category origin = some mark →
      ∃ d ∈ root.descendants, d.span = some mark.span := by
    intro t rest category mark h hmark
    obtain ⟨span, hspan, rfl⟩ := Option.map_eq_some_iff.mp hmark
    exact ⟨t, h t List.mem_cons_self, hspan⟩
  fun_induction search scan origin answer pending state made with
  | case1 state made => exact fun o ho => hm o (List.mem_reverse.mp ho)
  | case2 t rest state made hhit ih => exact ih (hdown hp) hm
  | case3 t rest state made hit hhit state' hanswer ih => exact ih (hdown hp) hm
  | case4 t rest state made hit hhit category state' hanswer hmark ih =>
    exact ih (List.forall_mem_cons.mp hp).2 hm
  | case5 t rest state made hit hhit category state' hanswer mark hmark hfirst =>
    exact fun o ho => (hm.cons (hmarked hp hmark)) o (List.mem_reverse.mp ho)
  | case6 t rest state made hit hhit category state' hanswer mark hmark hfirst ih =>
    exact ih (List.forall_mem_cons.mp hp).2 (hm.cons (hmarked hp hmark))

/-- **A scan marks beneath the node that it starts from.** -/
theorem marksBeneath_run {σ : Type} (scan : Scan) (origin : RuleId)
    (answer : σ → Hit → Option Category × σ) (state : σ) (t : Tree) :
    MarksBeneath t (scan.run origin answer state t).1 :=
  scan.marksBeneath_search origin answer state
    (fun _ hu => Tree.mem_descendants_of_mem_children (mem_inOrder.mp hu)) (.nil t)

theorem marksBeneath (scan : Scan) (origin : RuleId) (category : Category) (t : Tree) :
    MarksBeneath t (scan.marks origin category t) :=
  scan.marksBeneath_run origin _ () t

end Scan

/-! ### The rules for C++ -/

namespace Cpp

theorem marksBeneath_className (s : Site) : MarksBeneath s.tree (classNameMarks s) :=
  .ite (Scan.marksBeneath _ _ _ _) (.ite (Scan.marksBeneath _ _ _ _) (.nil _))

theorem marksBeneath_declaratorList (origin list item : Rule) (t : Tree) :
    MarksBeneath t (declaratorListMarks origin list item t) := by
  unfold declaratorListMarks
  split
  · exact .nil _
  · next declarators hlist =>
    have hmem := Tree.mem_children_of_child? (Option.eq_some_of_filter_eq_some hlist)
    refine MarksBeneath.of_mem_children (.flatMap fun u hu => ?_) hmem
    exact (Scan.marksBeneath _ _ _ _).of_mem_children (Tree.mem_children_of_mem_childrenOf hu)

theorem marksBeneath_simpleDeclaration (s : Site) :
    MarksBeneath s.tree (simpleDeclarationMarks s) :=
  .ite (.nil _) (marksBeneath_declaratorList _ _ _ _)

theorem marksBeneath_noPointerDeclarator (t : Tree) :
    MarksBeneath t (noPointerDeclaratorMarks t) :=
  .ite (Scan.marksBeneath _ _ _ _) (.nil _)

theorem mem_nodes_of_templateId? {n : Nat} {t d : Tree} (h : templateId? n (some t) = some d) :
    d ∈ t.nodes := by
  induction n generalizing t with
  | zero => contradiction
  | succ n ih =>
    rw [templateId?] at h
    split_ifs at h with hleaf hrule
    · obtain rfl := Option.some.inj h
      exact t.self_mem_nodes
    · cases hc : t.child? 0 with
      | none => rw [hc] at h; cases n <;> contradiction
      | some c =>
        rw [hc] at h
        exact Tree.mem_nodes.mpr (.inr ⟨c, Tree.mem_children_of_child? hc, ih h⟩)

theorem mem_nodes_of_templatedCallee? {t d : Tree} (h : templatedCallee? t = some d) :
    d ∈ t.nodes := by
  unfold templatedCallee? at h
  cases hc : t.child? 0 with
  | none => rw [hc] at h; contradiction
  | some c =>
    rw [hc] at h
    exact Tree.mem_nodes.mpr
      (.inr ⟨c, Tree.mem_children_of_child? hc, mem_nodes_of_templateId? h⟩)

theorem marksBeneath_callee (t : Tree) : MarksBeneath t (calleeMarks t) := by
  unfold calleeMarks
  split
  · next template htemplate =>
    exact (Scan.marksBeneath _ _ _ _).of_mem_nodes (mem_nodes_of_templatedCallee? htemplate)
  · exact (Scan.marksBeneath _ _ _ _).append (Scan.marksBeneath _ _ _ _)

theorem marksBeneath_firstOperand (t parent : Tree) :
    MarksBeneath t (firstOperandMarks t parent) := by
  refine .ite ?_ (.nil _)
  split
  · exact .nil _
  · exact .ite (marksBeneath_callee t) (.ite (Scan.marksBeneath _ _ _ _) (.nil _))

theorem marksBeneath_postfixExpression (s : Site) :
    MarksBeneath s.tree (postfixExpressionMarks s) :=
  .append (.ite (Scan.marksBeneath _ _ _ _) (.nil _))
    (.elim fun parent _ => marksBeneath_firstOperand s.tree parent.tree)

theorem marksBeneath (s : Site) : MarksBeneath s.tree (catalog.marks s) := by
  simp only [catalog]
  split
  · exact marksBeneath_className s
  · exact marksBeneath_declaratorList _ _ _ _
  · exact marksBeneath_simpleDeclaration s
  · exact marksBeneath_noPointerDeclarator _
  · exact marksBeneath_postfixExpression s
  · exact Scan.marksBeneath _ _ _ _
  · exact .ite (Scan.marksBeneath _ _ _ _) (.nil _)
  · exact Scan.marksBeneath _ _ _ _
  · exact Scan.marksBeneath _ _ _ _
  · exact .ite (Scan.marksBeneath _ _ _ _) (.nil _)
  · exact .nil _

end Cpp

/-! ### The rules for C# -/

namespace CSharp

theorem marksBeneath_childIdentifier (origin : Rule) (category : Category) (t : Tree) :
    MarksBeneath t (childIdentifierMarks origin category t) := by
  unfold childIdentifierMarks
  cases hc : t.firstChildOf? Rule.identifier with
  | none => exact .nil _
  | some c =>
    have hmem := Tree.mem_children_of_firstChildOf? hc
    exact .ofTree? (Tree.mem_descendants_of_mem_children hmem) _ _

theorem marksBeneath_namespaceDeclaration (t : Tree) :
    MarksBeneath t (namespaceDeclarationMarks t) :=
  .elim fun _ hc => (Scan.marksBeneath _ _ _ _).of_mem_children
    (Tree.mem_children_of_firstChildOf? hc)

theorem marksBeneath_eventDeclaration (t : Tree) : MarksBeneath t (eventDeclarationMarks t) := by
  unfold eventDeclarationMarks
  split
  · exact .nil _
  · next name hname =>
    intro o ho
    obtain ⟨d, hd, ho⟩ := List.mem_filterMap.mp ho
    obtain ⟨span, hspan, rfl⟩ := Option.map_eq_some_iff.mp ho
    have hmem := Tree.mem_children_of_firstChildOf? hname
    refine ⟨d, Tree.mem_descendants.mpr ⟨name, hmem, ?_⟩, hspan⟩
    exact List.mem_cons_of_mem _ (List.mem_filter.mp hd).1

theorem marksBeneath_qualifiedAliasMember (t : Tree) :
    MarksBeneath t (qualifiedAliasMemberMarks t) := by
  unfold qualifiedAliasMemberMarks
  cases hc : t.nthChildOf? Rule.identifier 1 with
  | none => exact .nil _
  | some c =>
    have hmem := Tree.mem_children_of_nthChildOf? hc
    exact .ofTree? (Tree.mem_descendants_of_mem_children hmem) _ _

/-- The subject of an invocation is the element before it or lies beneath that element. -/
theorem subject_mem_nodes (element : Tree) : subject element ∈ element.nodes := by
  simp only [subject]
  split_ifs
  · cases hname : (((element.child? 0).filter (·.isRule Rule.qualifiedAliasMember)).bind
        (·.child? 2)).filter (·.isRule Rule.identifier) with
    | none => exact element.self_mem_nodes
    | some name =>
      obtain ⟨aliased, haliased, hname⟩ :=
        Option.bind_eq_some_iff.mp (Option.eq_some_of_filter_eq_some hname)
      have hmem := Tree.mem_children_of_child? (Option.eq_some_of_filter_eq_some haliased)
      exact Tree.nodes_subset (Tree.mem_nodes_of_mem_children (Tree.mem_children_of_child? hname))
        (Tree.mem_nodes_of_mem_children hmem)
  · exact element.self_mem_nodes

theorem marksBeneath_subject {t u : Tree} (hu : u ∈ t.descendants) :
    MarksBeneath t (subjectMarks u) :=
  .ite ((Scan.marksBeneath _ _ _ _).of_mem_nodes (List.mem_cons_of_mem _ hu))
    (.ite (.ofTree? hu _ _) (.nil _))

/-- What is marked for two neighbours of a chain. -/
def marksBetween (before element : Tree) : List Override :=
  if element.isRule Rule.methodInvocation then subjectMarks (subject before) else []

theorem Chain.marks_add {chain : Chain} {last : Tree}
    (h : chain.fringe.back? = some (subject last)) (element : Tree) :
    (chain.add element).marks.toList = chain.marks.toList ++ marksBetween last element := by
  simp only [add, marksBetween, h]
  split_ifs <;> simp

/-- **Along a chain, each element is looked at together with the one before it.** The fringe grows
with every element, but only its end is ever asked for. -/
theorem Chain.marks_foldl (elements : List Tree) {chain : Chain} {last : Tree}
    (h : chain.fringe.back? = some (subject last)) :
    (elements.foldl add chain).marks.toList = chain.marks.toList
      ++ ((last :: elements).zip elements).flatMap fun pair => marksBetween pair.1 pair.2 := by
  induction elements generalizing chain last with
  | nil => simp
  | cons element elements ih =>
    have hback : (chain.add element).fringe.back? = some (subject element) := Array.back?_push
    rw [List.foldl_cons, ih hback, marks_add h, List.zip_cons_cons, List.flatMap_cons,
      List.append_assoc]

theorem primaryExpressionMarks_eq (t : Tree) :
    primaryExpressionMarks t
      = (t.children.zip t.children.tail).flatMap fun pair => marksBetween pair.1 pair.2 := by
  rw [primaryExpressionMarks]
  cases t.children with
  | nil => rfl
  | cons first elements =>
    -- There is nothing before the first element.
    have hmarks : (({} : Chain).add first).marks = #[] := by simp [Chain.add]
    have hfringe : (({} : Chain).add first).fringe.back? = some (subject first) := rfl
    rw [List.foldl_cons, Chain.marks_foldl elements hfringe, hmarks]
    rfl

theorem marksBeneath_primaryExpression (t : Tree) :
    MarksBeneath t (primaryExpressionMarks t) := by
  rw [primaryExpressionMarks_eq]
  refine .flatMap fun x hx => ?_
  obtain ⟨before, element⟩ := x
  have hmem := (List.of_mem_zip hx).1
  exact .ite (marksBeneath_subject
    (Tree.mem_descendants.mpr ⟨before, hmem, subject_mem_nodes before⟩)) (.nil _)

theorem marksBeneath (s : Site) : MarksBeneath s.tree (catalog.marks s) := by
  simp only [catalog]
  split
  any_goals exact Scan.marksBeneath _ _ _ _
  any_goals exact marksBeneath_childIdentifier _ _ _
  · exact marksBeneath_namespaceDeclaration _
  · exact marksBeneath_eventDeclaration _
  · exact marksBeneath_primaryExpression _
  · exact marksBeneath_qualifiedAliasMember _
  · exact .nil _

end CSharp

/-! ### The rules for JavaScript -/

namespace JavaScript

theorem marksBeneath_memberDotExpression (s : Site) :
    MarksBeneath s.tree (memberDotExpressionMarks s) :=
  .ite (Scan.marksBeneath_run _ _ _ _ _) (.ite (Scan.marksBeneath _ _ _ _) (.nil _))

theorem marksBeneath_callee (category : Category) (t : Tree) :
    MarksBeneath t (calleeMarks category t) := by
  refine .flatMap fun expression hexpression => ?_
  split
  · exact .nil _
  · next name hname =>
    have hmem := Tree.mem_children_of_child? (Option.eq_some_of_filter_eq_some hname)
    exact ((Scan.marksBeneath _ _ _ _).of_mem_children hmem).of_mem_children
      (Tree.mem_children_of_mem_childrenOf hexpression)

theorem marksBeneath (s : Site) : MarksBeneath s.tree (catalog.marks s) := by
  simp only [catalog]
  split
  any_goals exact Scan.marksBeneath _ _ _ _
  any_goals exact marksBeneath_callee _ _
  · exact Scan.marksBeneath_run _ _ _ _ _
  · exact marksBeneath_memberDotExpression s
  · exact .nil _

end JavaScript

/-- **Rules mark beneath their production**, in every language and at every site. -/
theorem Language.marksBeneath (language : Language) (s : Site) :
    MarksBeneath s.tree (language.catalog.marks s) := by
  cases language with
  | cpp => exact Cpp.marksBeneath s
  | csharp => exact CSharp.marksBeneath s
  | javascript => exact JavaScript.marksBeneath s

end Highlighting

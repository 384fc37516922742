import Highlighting.Language.Cpp.Catalog
import Highlighting.Proofs.LeadingMatch
import Highlighting.Proofs.Marks

/-!
# How far a scan for a production reaches

Two rules for C++ have one target in mind, and it is a child of the node that they scan: the name of
the template in `make<int>()`, and the declarator of the function in `f(int x)`. Both find it by a
scan for a production, and a scan knows nothing of children. It passes through everything beneath
the node that is not itself a match, and so it comes to the same production inside of a sibling of
the target, which is an argument list in one case and a parameter list in the other.

How far it reaches has a short answer. There is a mark inside of a child exactly if the production
occurs there at all, with tokens and at whatever depth: the outermost of its occurrences are marked.
Children do not overlap, so the target has no part in this. Hence the rules keep to their target
exactly if the production is absent from the other children (`Tree.Lacks`). That is a condition on
the source, and not a rare one to break: an argument of a template may be a template again, and
every parameter with a name has a declarator.

## Main definitions

* `Tree.Lacks`: a production does not occur in a tree
* `Cpp.TemplatedCall`: the callee of a call is a template

## Main results

* `Scan.marks_avoid_child_iff`: when a scan leaves a child alone
* `Scan.marks_on_children_iff`: when a scan marks nothing but children
* `Cpp.templated_callee_names`, `Cpp.function_declarators`: the two rules
-/

namespace Highlighting

/-! ### Nodes inside of a child -/

namespace Tree

variable {t c u : Tree} {s s' : Span} {test : Tree → Bool}

/-- No production of `r` in the tree has tokens. -/
def Lacks (r : RuleId) (t : Tree) : Prop := ∀ u ∈ t.nodes, u.isRule r = true → u.span = none

/-- What passes the test inside of a child lies in an outermost node inside of that child. -/
theorem Orderly.exists_outermost_in_child (test : Tree → Bool) (h : t.Orderly)
    (hc : c ∈ t.children) (hu : u ∈ c.nodes) (htest : test u = true) (hs : u.span = some s) :
    ∃ v ∈ t.outermost test, v ∈ c.nodes ∧ ∃ s', v.span = some s' := by
  obtain ⟨v, hv, huv⟩ := h.numbered.exists_outermost (mem_descendants.mpr ⟨c, hc, hu⟩) htest
  obtain ⟨d, hd, hvd⟩ := mem_descendants.mp (h.numbered.mem_descendants_of_mem_outermost hv)
  obtain rfl : d = c := h.numbered.eq_of_mem_nodes hd hc (nodes_subset huv hvd) hu
  obtain ⟨s', hs', -⟩ := (h.of_mem_outermost hv).within huv hs
  exact ⟨v, hv, hvd, s', hs'⟩

/-- What starts within the characters of a child lies inside of that child. -/
theorem Orderly.mem_nodes_of_start_within (h : t.Orderly) (hc : c ∈ t.children)
    (hu : u ∈ t.descendants) (hs : u.span = some s) (hs' : c.span = some s')
    (hwithin : s'.start ≤ s.start ∧ s.start ≤ s'.stop) : u ∈ c.nodes := by
  obtain ⟨d, hd, hud⟩ := mem_descendants.mp hu
  by_cases hne : d = c
  · exact hne ▸ hud
  · have hcovers := (h.of_mem_descendants hu).start_le_stop hs
    have hapart :=
      h.spanned.beneath_siblings_apart h.inSequence hd hc hne hud c.self_mem_nodes hs hs'
    omega

/-- An outermost node inside of a child that passes the test is the child. -/
theorem Numbered.eq_of_mem_outermost (h : t.Numbered) (hc : c ∈ t.children) (htest : test c = true)
    (hu : u ∈ t.outermost test) (huc : u ∈ c.nodes) : u = c := by
  obtain ⟨-, -, hout⟩ := h.mem_outermost.mp hu
  rcases List.mem_cons.mp huc with rfl | huc
  · rfl
  · exact absurd huc (hout c (mem_descendants_of_mem_children hc) htest)

end Tree

/-! ### Marks inside of a child -/

namespace Scan

variable {t c : Tree} {r origin : RuleId} {category : Category} {o : Override}

theorem mem_marks_production_iff (h : t.Numbered) :
    o ∈ (Scan.production r).marks origin category t ↔
      ∃ u ∈ t.outermost (·.isRule r), ∃ span, u.span = some span ∧
        ⟨span, category, origin⟩ = o := by
  rw [marks_production h, List.mem_filterMap]
  simp only [Override.ofTree?, Option.map_eq_some_iff]

/-- A production with tokens inside of a child leads to a mark of a production inside of it. -/
theorem exists_mark_in_child (h : t.Orderly) (hc : c ∈ t.children) (hlacks : ¬ c.Lacks r) :
    ∃ o ∈ (Scan.production r).marks origin category t,
      ∃ u ∈ c.nodes, u.isRule r = true ∧ u.span = some o.span := by
  simp only [Tree.Lacks, not_forall] at hlacks
  obtain ⟨u, hu, hrule, hspan⟩ := hlacks
  obtain ⟨span, hspan⟩ := Option.ne_none_iff_exists'.mp hspan
  obtain ⟨v, hv, hvc, span', hspan'⟩ := h.exists_outermost_in_child (·.isRule r) hc hu hrule hspan
  exact ⟨_, (mem_marks_production_iff h.numbered).mpr ⟨v, hv, span', hspan', rfl⟩, v, hvc,
    h.numbered.test_of_mem_outermost hv, hspan'⟩

/-- No production inside of a child is marked exactly if there is none. -/
theorem marks_avoid_productions_iff (h : t.Orderly) (hc : c ∈ t.children) :
    (∀ o ∈ (Scan.production r).marks origin category t, ∀ u ∈ c.nodes, u.isRule r = true →
      u.span ≠ some o.span) ↔ c.Lacks r := by
  constructor
  · intro hfree
    by_contra hlacks
    obtain ⟨o, ho, u, hu, hrule, hspan⟩ := exists_mark_in_child h hc hlacks
    exact hfree o ho u hu hrule hspan
  · intro hlacks o ho u hu hrule hspan
    rw [hlacks u hu hrule] at hspan
    contradiction

/-- **A scan leaves a child alone exactly if there is nothing to find in it.** -/
theorem marks_avoid_child_iff (origin : RuleId) (category : Category) (h : t.Orderly)
    (hc : c ∈ t.children) :
    (∀ o ∈ (Scan.production r).marks origin category t, ∀ span, c.span = some span →
      ¬ (span.start ≤ o.span.start ∧ o.span.start ≤ span.stop)) ↔ c.Lacks r := by
  have hchild := h.of_mem_descendants (Tree.mem_descendants_of_mem_children hc)
  constructor
  · intro hfree
    by_contra hlacks
    obtain ⟨o, ho, u, hu, hrule, hspan⟩ := exists_mark_in_child h hc hlacks
    obtain ⟨span, hspan', hstart, hstop⟩ := hchild.within hu hspan
    have hcovers := (hchild.of_mem hu).start_le_stop hspan
    exact hfree o ho span hspan' ⟨hstart, Nat.le_trans hcovers hstop⟩
  · intro hlacks o ho span hspan hwithin
    obtain ⟨u, hu, span', hspan', rfl⟩ := (mem_marks_production_iff h.numbered).mp ho
    have hbeneath := h.numbered.mem_descendants_of_mem_outermost hu
    have huc := h.mem_nodes_of_start_within hc hbeneath hspan' hspan hwithin
    rw [hlacks u huc (h.numbered.test_of_mem_outermost hu)] at hspan'
    contradiction

/-- **A scan marks nothing but children exactly if there is nothing to find in the other ones**,
those that are no match themselves. -/
theorem marks_on_children_iff (h : t.Orderly) :
    (∀ o ∈ (Scan.production r).marks origin category t,
      ∃ c ∈ t.children, c.isRule r = true ∧ c.span = some o.span) ↔
      ∀ c ∈ t.children, c.isRule r = false → c.Lacks r := by
  constructor
  · intro hchildren c hc hother
    -- a mark inside of `c` would cover another child as well, and children do not overlap
    refine (marks_avoid_child_iff origin category h hc).mp fun o ho span hspan hwithin => ?_
    obtain ⟨d, hd, hrule, hspan'⟩ := hchildren o ho
    have hbeneath := Tree.mem_descendants_of_mem_children hd
    have hdc := h.mem_nodes_of_start_within hc hbeneath hspan' hspan hwithin
    obtain rfl : d = c := h.numbered.eq_of_mem_nodes hd hc d.self_mem_nodes hdc
    rw [hrule] at hother
    contradiction
  · intro hlacks o ho
    obtain ⟨u, hu, span, hspan, rfl⟩ := (mem_marks_production_iff h.numbered).mp ho
    obtain ⟨c, hc, huc⟩ :=
      Tree.mem_descendants.mp (h.numbered.mem_descendants_of_mem_outermost hu)
    cases hrule : c.isRule r with
    | true =>
      obtain rfl := h.numbered.eq_of_mem_outermost hc hrule hu huc
      exact ⟨u, hc, hrule, hspan⟩
    | false =>
      rw [hlacks c hc hrule u huc (h.numbered.test_of_mem_outermost hu)] at hspan
      contradiction

end Scan

namespace Cpp

variable {s : Site} {d : Tree}

/-! ### Templates that are called -/

/-- The postfix expression is the callee of a call, and it wraps the template id `d`. -/
structure TemplatedCall (s : Site) (d : Tree) : Prop where
  isRule : s.tree.isRule Rule.postfixExpression = true
  exists_call : ∃ call, s.parent? = some call ∧ call.tree.isRule Rule.postfixExpression = true ∧
    3 ≤ call.tree.children.length ∧
    ∃ operator, call.tree.children[1]? = some operator ∧ operator.text? = some "("
  template : templatedCallee? s.tree = some d

theorem marks_of_postfixExpression (h : s.tree.isRule Rule.postfixExpression = true) :
    catalog.marks s = postfixExpressionMarks s := by
  obtain ⟨_ | ⟨n, r, span, cs⟩, up⟩ := s
  · contradiction
  · obtain rfl : r = Rule.postfixExpression := by simpa [Tree.isRule] using h
    rfl

theorem TemplatedCall.marks_eq (h : TemplatedCall s d) :
    catalog.marks s
      = (Scan.production Rule.templateName).marks Rule.postfixExpression .functionIdentifier d := by
  obtain ⟨hrule, ⟨call, hparent, hcall, hlength, operator, hoperator, htext⟩, htemplate⟩ := h
  have hunary : s.isUnder Rule.unaryExpression = false := by
    simp only [Site.isUnder, hparent, Option.any_some]
    exact Tree.isRule_eq_false hcall (by decide)
  have hcallee : firstOperandMarks s.tree call.tree = calleeMarks s.tree := by
    simp [firstOperandMarks, Tree.child?, Tree.isAnyText, hcall, hlength, hoperator, htext]
  rw [marks_of_postfixExpression hrule, postfixExpressionMarks, hunary, hparent, Option.elim_some,
    hcallee, calleeMarks, htemplate]
  rfl

/-- **Which names are marked where a template is called.** In a parse that events describe, these
are the outermost template names beneath the template id that have tokens. So they are children of
it exactly if no other child holds a template name with tokens, and arguments are left alone exactly
if there is none in a list of arguments. -/
theorem templated_callee_names {source : String} {events : List Event} {p : Parse}
    (h : Parse.ofEvents source events = .ok p) {s : Site} (hs : s.tree ∈ p.root.nodes) {d : Tree}
    (hcall : TemplatedCall s d) :
    catalog.marks s = (d.outermost (·.isRule Rule.templateName)).filterMap (fun name =>
        name.span.map (⟨·, .functionIdentifier, Rule.postfixExpression⟩)) ∧
      ((∀ o ∈ catalog.marks s,
          ∃ c ∈ d.children, c.isRule Rule.templateName = true ∧ c.span = some o.span) ↔
        ∀ c ∈ d.children, c.isRule Rule.templateName = false → c.Lacks Rule.templateName) ∧
      ((∀ c ∈ d.children, c.isRule Rule.templateArgumentList = true → ∀ o ∈ catalog.marks s,
          ∀ name ∈ c.nodes, name.isRule Rule.templateName = true → name.span ≠ some o.span) ↔
        ∀ c ∈ d.children, c.isRule Rule.templateArgumentList = true →
          c.Lacks Rule.templateName) := by
  have hd : d.Orderly := (Parse.orderly h hs).of_mem (mem_nodes_of_templatedCallee? hcall.template)
  rw [hcall.marks_eq]
  refine ⟨Scan.marks_production hd.numbered _ _ _, Scan.marks_on_children_iff hd, ?_⟩
  exact forall₃_congr fun c hc _ => Scan.marks_avoid_productions_iff hd hc

/-- The theorem at `make<int>()`: the argument is no template, and the callee alone is marked. -/
theorem templated_callee_names_plain :
    ∃ p, Parse.ofEvents "make<int>()"
        [.enter Rule.postfixExpression, .enter Rule.postfixExpression,
          .enter Rule.primaryExpression, .enter Rule.simpleTemplateId, .enter Rule.templateName,
          .token ⟨Kind.identifier, "make", none⟩, .leave, .token ⟨101, "<", none⟩,
          .enter Rule.templateArgumentList, .token ⟨44, "int", none⟩, .leave,
          .token ⟨102, ">", none⟩, .leave, .leave, .leave, .token ⟨84, "(", none⟩,
          .token ⟨85, ")", none⟩, .leave] = .ok p ∧
      ∃ s d, (Site.ofRoot p.root).follow? [0] = some s ∧ s.tree ∈ p.root.nodes ∧
        TemplatedCall s d ∧ (∃ c ∈ d.children, c.isRule Rule.templateArgumentList = true) ∧
        catalog.marks s = [⟨⟨0, 3⟩, .functionIdentifier, Rule.postfixExpression⟩] ∧
        ∀ o ∈ catalog.marks s,
          ∃ c ∈ d.children, c.isRule Rule.templateName = true ∧ c.span = some o.span := by
  refine Exists.imp (fun p h => ⟨h, ?_⟩) ⟨_, (Parse.ofEvents_eq_replay _ _).trans rfl⟩
  let d : Tree := .node 3 Rule.simpleTemplateId (some ⟨0, 8⟩)
    [.node 4 Rule.templateName (some ⟨0, 3⟩) [.leaf 5 ⟨Kind.identifier, ⟨0, 3⟩, "make"⟩],
      .leaf 6 ⟨101, ⟨4, 4⟩, "<"⟩,
      .node 7 Rule.templateArgumentList (some ⟨5, 7⟩) [.leaf 8 ⟨44, ⟨5, 7⟩, "int"⟩],
      .leaf 9 ⟨102, ⟨8, 8⟩, ">"⟩]
  let callee : Tree := .node 1 Rule.postfixExpression (some ⟨0, 8⟩)
    [.node 2 Rule.primaryExpression (some ⟨0, 8⟩) [d]]
  have hroot : p.root = .node 0 Rule.postfixExpression (some ⟨0, 10⟩)
      [callee, .leaf 10 ⟨84, ⟨9, 9⟩, "("⟩, .leaf 11 ⟨85, ⟨10, 10⟩, ")"⟩] := by
    rw [Parse.ofEvents_eq_replay] at h
    obtain rfl := Except.ok.inj h
    rfl
  have hs : callee ∈ p.root.nodes :=
    Tree.mem_nodes_of_mem_children (by rw [hroot]; exact List.mem_cons_self)
  have hcall : TemplatedCall ⟨callee, [p.root]⟩ d :=
    ⟨rfl, ⟨⟨p.root, []⟩, rfl, by rw [hroot]; exact ⟨rfl, by decide, _, rfl, rfl⟩⟩, rfl⟩
  have hlacks : ∀ c ∈ d.children, c.isRule Rule.templateName = false →
      c.Lacks Rule.templateName := by
    have hne : Rule.templateArgumentList.id ≠ Rule.templateName.id := by decide
    simp [d, Tree.children, Tree.Lacks, Tree.isRule, hne]
  obtain ⟨-, hchildren, -⟩ :=
    templated_callee_names (s := ⟨callee, [p.root]⟩) h hs hcall
  refine ⟨⟨callee, [p.root]⟩, d, by rw [hroot]; rfl, hs, hcall, ?_, ?_, hchildren.mpr hlacks⟩
  · simp [d, Tree.children, Tree.isRule]
  · rw [hcall.marks_eq]
    cbv

/-- At `make<vector<int>>()` the argument `vector` is marked as what is called. -/
theorem templated_callee_names_argument :
    ∃ p, Parse.ofEvents "make<vector<int>>()"
        [.enter Rule.postfixExpression, .enter Rule.postfixExpression,
          .enter Rule.primaryExpression, .enter Rule.idExpression, .enter Rule.unqualifiedId,
          .enter Rule.templateId, .enter Rule.simpleTemplateId, .enter Rule.templateName,
          .token ⟨Kind.identifier, "make", none⟩, .leave, .token ⟨101, "<", none⟩,
          .enter Rule.templateArgumentList, .enter Rule.templateArgument, .enter Rule.theTypeId,
          .enter Rule.simpleTemplateId, .enter Rule.templateName,
          .token ⟨Kind.identifier, "vector", none⟩, .leave, .token ⟨101, "<", none⟩,
          .enter Rule.templateArgumentList, .enter Rule.templateArgument, .enter Rule.theTypeId,
          .token ⟨44, "int", none⟩, .leave, .leave, .leave, .token ⟨102, ">", none⟩, .leave,
          .leave, .leave, .leave, .token ⟨102, ">", none⟩, .leave, .leave, .leave, .leave, .leave,
          .leave, .token ⟨84, "(", none⟩, .token ⟨85, ")", none⟩, .leave] = .ok p ∧
      ∃ s d, (Site.ofRoot p.root).follow? [0] = some s ∧ s.tree ∈ p.root.nodes ∧
        TemplatedCall s d ∧ ∃ o ∈ catalog.marks s, o.category = .functionIdentifier ∧
          (∀ c ∈ d.children, c.isRule Rule.templateName = true → c.span ≠ some o.span) ∧
          ∃ c ∈ d.children, c.isRule Rule.templateArgumentList = true ∧
            ∃ name ∈ c.nodes, name.isRule Rule.templateName = true ∧ name.span = some o.span := by
  refine Exists.imp (fun p h => ⟨h, ?_⟩) ⟨_, (Parse.ofEvents_eq_replay _ _).trans rfl⟩
  let name : Tree :=
    .node 14 Rule.templateName (some ⟨5, 10⟩) [.leaf 15 ⟨Kind.identifier, ⟨5, 10⟩, "vector"⟩]
  let arguments : Tree := .node 10 Rule.templateArgumentList (some ⟨5, 15⟩)
    [.node 11 Rule.templateArgument (some ⟨5, 15⟩) [.node 12 Rule.theTypeId (some ⟨5, 15⟩)
      [.node 13 Rule.simpleTemplateId (some ⟨5, 15⟩) [name, .leaf 16 ⟨101, ⟨11, 11⟩, "<"⟩,
        .node 17 Rule.templateArgumentList (some ⟨12, 14⟩)
          [.node 18 Rule.templateArgument (some ⟨12, 14⟩)
            [.node 19 Rule.theTypeId (some ⟨12, 14⟩) [.leaf 20 ⟨44, ⟨12, 14⟩, "int"⟩]]],
        .leaf 21 ⟨102, ⟨15, 15⟩, ">"⟩]]]]
  let d : Tree := .node 6 Rule.simpleTemplateId (some ⟨0, 16⟩)
    [.node 7 Rule.templateName (some ⟨0, 3⟩) [.leaf 8 ⟨Kind.identifier, ⟨0, 3⟩, "make"⟩],
      .leaf 9 ⟨101, ⟨4, 4⟩, "<"⟩, arguments, .leaf 22 ⟨102, ⟨16, 16⟩, ">"⟩]
  let callee : Tree := .node 1 Rule.postfixExpression (some ⟨0, 16⟩)
    [.node 2 Rule.primaryExpression (some ⟨0, 16⟩) [.node 3 Rule.idExpression (some ⟨0, 16⟩)
      [.node 4 Rule.unqualifiedId (some ⟨0, 16⟩) [.node 5 Rule.templateId (some ⟨0, 16⟩) [d]]]]]
  have hroot : p.root = .node 0 Rule.postfixExpression (some ⟨0, 18⟩)
      [callee, .leaf 23 ⟨84, ⟨17, 17⟩, "("⟩, .leaf 24 ⟨85, ⟨18, 18⟩, ")"⟩] := by
    rw [Parse.ofEvents_eq_replay] at h
    obtain rfl := Except.ok.inj h
    rfl
  have hs : callee ∈ p.root.nodes :=
    Tree.mem_nodes_of_mem_children (by rw [hroot]; exact List.mem_cons_self)
  have hcall : TemplatedCall ⟨callee, [p.root]⟩ d :=
    ⟨rfl, ⟨⟨p.root, []⟩, rfl, by rw [hroot]; exact ⟨rfl, by decide, _, rfl, rfl⟩⟩, rfl⟩
  have hmarks : catalog.marks ⟨callee, [p.root]⟩
      = [⟨⟨0, 3⟩, .functionIdentifier, Rule.postfixExpression⟩,
        ⟨⟨5, 10⟩, .functionIdentifier, Rule.postfixExpression⟩] := by
    rw [hcall.marks_eq]
    cbv
  refine ⟨⟨callee, [p.root]⟩, d, by rw [hroot]; rfl, hs, hcall,
    ⟨⟨5, 10⟩, .functionIdentifier, Rule.postfixExpression⟩, ?_, rfl, ?_, arguments, ?_, rfl, name,
    ?_, rfl, rfl⟩
  · rw [hmarks]
    exact List.mem_cons_of_mem _ List.mem_cons_self
  · have hne : Rule.templateArgumentList.id ≠ Rule.templateName.id := by decide
    simp [d, arguments, Tree.children, Tree.isRule, Tree.span, hne]
  · simp [d, Tree.children]
  · simp [arguments, Tree.self_mem_nodes]

/-! ### Declarators of functions -/

theorem marks_of_noPointerDeclarator (h : s.tree.isRule Rule.noPointerDeclarator = true)
    (hparameters : s.tree.hasChildOf Rule.parametersAndQualifiers = true) :
    catalog.marks s = (Scan.production Rule.noPointerDeclarator).marks Rule.noPointerDeclarator
      .functionDeclarator s.tree := by
  obtain ⟨_ | ⟨n, r, span, cs⟩, up⟩ := s
  · contradiction
  · obtain rfl : r = Rule.noPointerDeclarator := by simpa [Tree.isRule] using h
    exact if_pos hparameters

/-- **Which declarators are marked where a function is declared.** In a parse that events describe,
these are the outermost declarators beneath the one of the function that have tokens. So no mark
starts inside of a list of parameters exactly if no declarator with tokens is in there, and only
children are marked exactly if no other child holds a declarator with tokens. -/
theorem function_declarators {source : String} {events : List Event} {p : Parse}
    (h : Parse.ofEvents source events = .ok p) {s : Site} (hs : s.tree ∈ p.root.nodes)
    (hrule : s.tree.isRule Rule.noPointerDeclarator = true)
    (hparameters : s.tree.hasChildOf Rule.parametersAndQualifiers = true) :
    catalog.marks s = (s.tree.outermost (·.isRule Rule.noPointerDeclarator)).filterMap (fun inner =>
        inner.span.map (⟨·, .functionDeclarator, Rule.noPointerDeclarator⟩)) ∧
      ((∀ c ∈ s.tree.children, c.isRule Rule.parametersAndQualifiers = true →
          ∀ o ∈ catalog.marks s, ∀ span, c.span = some span →
            ¬ (span.start ≤ o.span.start ∧ o.span.start ≤ span.stop)) ↔
        ∀ c ∈ s.tree.children, c.isRule Rule.parametersAndQualifiers = true →
          c.Lacks Rule.noPointerDeclarator) ∧
      ((∀ o ∈ catalog.marks s, ∃ c ∈ s.tree.children,
          c.isRule Rule.noPointerDeclarator = true ∧ c.span = some o.span) ↔
        ∀ c ∈ s.tree.children, c.isRule Rule.noPointerDeclarator = false →
          c.Lacks Rule.noPointerDeclarator) := by
  have ht : s.tree.Orderly := Parse.orderly h hs
  rw [marks_of_noPointerDeclarator hrule hparameters]
  refine ⟨Scan.marks_production ht.numbered _ _ _, ?_, Scan.marks_on_children_iff ht⟩
  exact forall₃_congr fun c hc _ => Scan.marks_avoid_child_iff _ _ ht hc

/-- The theorem at `f(int)`: the parameter has no name, and the function alone is marked. -/
theorem function_declarators_unnamed :
    ∃ p, Parse.ofEvents "f(int)"
        [.enter Rule.noPointerDeclarator, .enter Rule.noPointerDeclarator,
          .enter Rule.declaratorid, .token ⟨Kind.identifier, "f", none⟩, .leave, .leave,
          .enter Rule.parametersAndQualifiers, .token ⟨84, "(", none⟩,
          .enter Rule.parameterDeclaration, .token ⟨44, "int", none⟩, .leave,
          .token ⟨85, ")", none⟩, .leave, .leave] = .ok p ∧
      p.root.isRule Rule.noPointerDeclarator = true ∧
      p.root.hasChildOf Rule.parametersAndQualifiers = true ∧
      catalog.marks (Site.ofRoot p.root)
        = [⟨⟨0, 0⟩, .functionDeclarator, Rule.noPointerDeclarator⟩] ∧
      ∀ c ∈ p.root.children, c.isRule Rule.parametersAndQualifiers = true →
        ∀ o ∈ catalog.marks (Site.ofRoot p.root), ∀ span, c.span = some span →
          ¬ (span.start ≤ o.span.start ∧ o.span.start ≤ span.stop) := by
  refine Exists.imp (fun p h => ⟨h, ?_⟩) ⟨_, (Parse.ofEvents_eq_replay _ _).trans rfl⟩
  have hroot : p.root = .node 0 Rule.noPointerDeclarator (some ⟨0, 5⟩)
      [.node 1 Rule.noPointerDeclarator (some ⟨0, 0⟩) [.node 2 Rule.declaratorid (some ⟨0, 0⟩)
          [.leaf 3 ⟨Kind.identifier, ⟨0, 0⟩, "f"⟩]],
        .node 4 Rule.parametersAndQualifiers (some ⟨1, 5⟩) [.leaf 5 ⟨84, ⟨1, 1⟩, "("⟩,
          .node 6 Rule.parameterDeclaration (some ⟨2, 4⟩) [.leaf 7 ⟨44, ⟨2, 4⟩, "int"⟩],
          .leaf 8 ⟨85, ⟨5, 5⟩, ")"⟩]] := by
    rw [Parse.ofEvents_eq_replay] at h
    obtain rfl := Except.ok.inj h
    rfl
  have hrule : p.root.isRule Rule.noPointerDeclarator = true := by rw [hroot]; rfl
  have hparameters : p.root.hasChildOf Rule.parametersAndQualifiers = true := by rw [hroot]; rfl
  have hlacks : ∀ c ∈ p.root.children, c.isRule Rule.parametersAndQualifiers = true →
      c.Lacks Rule.noPointerDeclarator := by
    have hlist : Rule.parametersAndQualifiers.id ≠ Rule.noPointerDeclarator.id := by decide
    have hparameter : Rule.parameterDeclaration.id ≠ Rule.noPointerDeclarator.id := by decide
    simp [hroot, Tree.children, Tree.Lacks, Tree.isRule, hlist, hlist.symm, hparameter]
  obtain ⟨-, hfree, -⟩ := function_declarators (s := Site.ofRoot p.root) h p.root.self_mem_nodes
    hrule hparameters
  refine ⟨hrule, hparameters, ?_, hfree.mpr hlacks⟩
  rw [marks_of_noPointerDeclarator hrule hparameters, Site.ofRoot, hroot]
  cbv

/-- At `f(int x)` the parameter `x` is marked as a function. -/
theorem function_declarators_parameter :
    ∃ p, Parse.ofEvents "f(int x)"
        [.enter Rule.noPointerDeclarator, .enter Rule.noPointerDeclarator,
          .enter Rule.declaratorid, .enter Rule.idExpression, .enter Rule.unqualifiedId,
          .token ⟨Kind.identifier, "f", none⟩, .leave, .leave, .leave, .leave,
          .enter Rule.parametersAndQualifiers, .token ⟨84, "(", none⟩,
          .enter Rule.parameterDeclaration, .enter Rule.declSpecifierSeq,
          .token ⟨44, "int", none⟩, .leave, .enter Rule.declarator, .enter Rule.pointerDeclarator,
          .enter Rule.noPointerDeclarator, .enter Rule.declaratorid, .enter Rule.idExpression,
          .enter Rule.unqualifiedId, .token ⟨Kind.identifier, "x", none⟩, .leave, .leave, .leave,
          .leave, .leave, .leave, .leave, .token ⟨85, ")", none⟩, .leave, .leave] = .ok p ∧
      p.root.isRule Rule.noPointerDeclarator = true ∧
      ∃ c ∈ p.root.children, c.isRule Rule.parametersAndQualifiers = true ∧
        ∃ o ∈ catalog.marks (Site.ofRoot p.root), o.category = .functionDeclarator ∧
          ∃ span, c.span = some span ∧ span.start ≤ o.span.start ∧ o.span.start ≤ span.stop := by
  refine Exists.imp (fun p h => ⟨h, ?_⟩) ⟨_, (Parse.ofEvents_eq_replay _ _).trans rfl⟩
  let parameters : Tree := .node 6 Rule.parametersAndQualifiers (some ⟨1, 7⟩)
    [.leaf 7 ⟨84, ⟨1, 1⟩, "("⟩,
      .node 8 Rule.parameterDeclaration (some ⟨2, 6⟩)
        [.node 9 Rule.declSpecifierSeq (some ⟨2, 4⟩) [.leaf 10 ⟨44, ⟨2, 4⟩, "int"⟩],
          .node 11 Rule.declarator (some ⟨6, 6⟩) [.node 12 Rule.pointerDeclarator (some ⟨6, 6⟩)
            [.node 13 Rule.noPointerDeclarator (some ⟨6, 6⟩)
              [.node 14 Rule.declaratorid (some ⟨6, 6⟩) [.node 15 Rule.idExpression (some ⟨6, 6⟩)
                [.node 16 Rule.unqualifiedId (some ⟨6, 6⟩)
                  [.leaf 17 ⟨Kind.identifier, ⟨6, 6⟩, "x"⟩]]]]]]],
      .leaf 18 ⟨85, ⟨7, 7⟩, ")"⟩]
  have hroot : p.root = .node 0 Rule.noPointerDeclarator (some ⟨0, 7⟩)
      [.node 1 Rule.noPointerDeclarator (some ⟨0, 0⟩) [.node 2 Rule.declaratorid (some ⟨0, 0⟩)
        [.node 3 Rule.idExpression (some ⟨0, 0⟩) [.node 4 Rule.unqualifiedId (some ⟨0, 0⟩)
          [.leaf 5 ⟨Kind.identifier, ⟨0, 0⟩, "f"⟩]]]], parameters] := by
    rw [Parse.ofEvents_eq_replay] at h
    obtain rfl := Except.ok.inj h
    rfl
  have hrule : p.root.isRule Rule.noPointerDeclarator = true := by rw [hroot]; rfl
  have hmarks : catalog.marks (Site.ofRoot p.root)
      = [⟨⟨0, 0⟩, .functionDeclarator, Rule.noPointerDeclarator⟩,
        ⟨⟨6, 6⟩, .functionDeclarator, Rule.noPointerDeclarator⟩] := by
    rw [marks_of_noPointerDeclarator hrule (by rw [Site.ofRoot, hroot]; rfl), Site.ofRoot, hroot]
    cbv
  refine ⟨hrule, parameters, ?_, rfl,
    ⟨⟨6, 6⟩, .functionDeclarator, Rule.noPointerDeclarator⟩, ?_, rfl, ⟨1, 7⟩, rfl, by decide,
    by decide⟩
  · simp [hroot, Tree.children]
  · rw [hmarks]
    exact List.mem_cons_of_mem _ List.mem_cons_self

end Cpp

end Highlighting

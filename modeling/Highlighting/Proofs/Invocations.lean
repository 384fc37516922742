import Highlighting.Language.CSharp.Catalog
import Highlighting.Proofs.Marks
import Highlighting.Proofs.NodeSpans
import Highlighting.Proofs.Outermost

/-!
# What an invocation calls

In C# a primary expression is a chain: a start, followed by accesses, invocations and the like. An
invocation does not say what it calls, the element before it does. So the rule for chains keeps what
each element gives the next one to call, and the names that it marks depend on the form of the
element: all names in it, as a rule, but one name alone if the chain starts with `alias::name`.

The rule is a scan inside of a loop that remembers a growing fringe. Of the fringe only the end
matters (`CSharp.primaryExpressionMarks_eq` of `Highlighting.Proofs.Marks`), so the loop is
described by pairs of neighbours: `IsSubject` says what is called, `MarkedBetween` what is marked
for it, where names are the outermost identifiers and not what some search comes to. An invocation
is never itself the subject of the next one, and children of a node do not overlap, so arguments are
left alone.

## Main definitions

* `CSharp.AliasedName`: an element of the form `alias::name`, and the name
* `CSharp.IsSubject`: what an invocation right behind an element calls
* `CSharp.MarkedBetween`: what is marked for two neighbours of a chain

## Main results

* `CSharp.isSubject_iff`: every element has exactly one subject
* `CSharp.invocation_subjects`: what is marked in a chain
-/

namespace Highlighting

namespace CSharp

variable {element before u name : Tree} {o : Override}

/-! ### Subjects -/

/-- The element starts a chain in the form `alias::name`. -/
structure AliasedName (element name : Tree) : Prop where
  start : element.isRule Rule.primaryExpressionStart = true
  exists_alias : ∃ aliased, element.children[0]? = some aliased ∧
    aliased.isRule Rule.qualifiedAliasMember = true ∧ aliased.children[2]? = some name
  identifier : name.isRule Rule.identifier = true

/-- What an invocation right behind the element calls: the name in `alias::name`, and otherwise the
element itself. -/
def IsSubject (element u : Tree) : Prop :=
  AliasedName element u ∨ (∀ name, ¬ AliasedName element name) ∧ u = element

theorem AliasedName.subject_eq (h : AliasedName element name) : subject element = name := by
  obtain ⟨hstart, ⟨aliased, hfirst, haliased, hthird⟩, hname⟩ := h
  simp [subject, Tree.child?, Option.filter, hstart, hfirst, haliased, hthird, hname]

theorem subject_of_forall_not (h : ∀ name, ¬ AliasedName element name) :
    subject element = element := by
  by_cases hstart : element.isRule Rule.primaryExpressionStart = true
  · cases hname : (((element.child? 0).filter (·.isRule Rule.qualifiedAliasMember)).bind
        (·.child? 2)).filter (·.isRule Rule.identifier) with
    | none => simp [subject, hstart, hname]
    | some name =>
      obtain ⟨hname, hidentifier⟩ := Option.filter_eq_some_iff.mp hname
      obtain ⟨aliased, haliased, hthird⟩ := Option.bind_eq_some_iff.mp hname
      obtain ⟨hfirst, haliased⟩ := Option.filter_eq_some_iff.mp haliased
      exact absurd ⟨hstart, ⟨aliased, hfirst, haliased, hthird⟩, hidentifier⟩ (h name)
  · simp [subject, hstart]

/-- **Every element has exactly one subject.** -/
theorem isSubject_iff : IsSubject element u ↔ u = subject element := by
  constructor
  · rintro (h | ⟨h, rfl⟩)
    · exact h.subject_eq.symm
    · exact (subject_of_forall_not h).symm
  · rintro rfl
    by_cases h : ∃ name, AliasedName element name
    · obtain ⟨name, h⟩ := h
      rw [h.subject_eq]
      exact .inl h
    · rw [not_exists] at h
      exact .inr ⟨h, subject_of_forall_not h⟩

/-! ### Neighbours -/

/-- What is marked for two neighbours of a chain. -/
structure MarkedBetween (before element : Tree) (os : List Override) : Prop where
  /-- Nothing is marked unless the second one is an invocation. -/
  not_called : element.isRule Rule.methodInvocation = false → os = []
  /-- The outermost names are marked beneath an access, an aliased name or a start. -/
  names : element.isRule Rule.methodInvocation = true → ∀ u, IsSubject before u →
    u.isAnyRule [Rule.memberAccess, Rule.qualifiedAliasMember, Rule.primaryExpressionStart] = true →
      os = (u.outermost (·.isRule Rule.identifier)).filterMap fun name =>
        name.span.map (⟨·, .functionIdentifier, Rule.primaryExpression⟩)
  /-- A name alone is marked as the subject of the invocation. -/
  name : element.isRule Rule.methodInvocation = true → ∀ u, IsSubject before u →
    u.isRule Rule.identifier = true →
      os = (u.span.map (⟨·, .functionIdentifier, Rule.methodInvocation⟩)).toList
  /-- Nothing else is marked. -/
  nothing : element.isRule Rule.methodInvocation = true → ∀ u, IsSubject before u →
    u.isAnyRule [Rule.memberAccess, Rule.qualifiedAliasMember, Rule.primaryExpressionStart,
      Rule.identifier] = false → os = []

theorem numbered_subject (h : before.Numbered) : (subject before).Numbered :=
  h.of_mem (subject_mem_nodes before)

theorem subjectMarks_of_isAnyRule (hnumbered : u.Numbered) (h : u.isAnyRule [Rule.memberAccess,
      Rule.qualifiedAliasMember, Rule.primaryExpressionStart] = true) :
    subjectMarks u = (u.outermost (·.isRule Rule.identifier)).filterMap
      (Override.ofTree? · .functionIdentifier Rule.primaryExpression) := by
  rw [subjectMarks, if_pos h, identifierMarks, Scan.marks_production hnumbered]

theorem subjectMarks_of_isRule (h : u.isRule Rule.identifier = true) :
    subjectMarks u = (Override.ofTree? u .functionIdentifier Rule.methodInvocation).toList := by
  cases u with
  | leaf n x => contradiction
  | node n r s cs =>
    obtain rfl : r = Rule.identifier := by simpa [Tree.isRule] using h
    rfl

theorem subjectMarks_of_not (h : u.isAnyRule [Rule.memberAccess, Rule.qualifiedAliasMember,
      Rule.primaryExpressionStart, Rule.identifier] = false) : subjectMarks u = [] := by
  cases u with
  | leaf n x => rfl
  | node n r s cs =>
    simp only [Tree.isAnyRule, List.contains_eq_mem, List.mem_cons, decide_eq_false_iff_not,
      not_or] at h
    simp [subjectMarks, Tree.isAnyRule, Tree.isRule, h]

theorem markedBetween_marksBetween (h : before.Numbered) (element : Tree) :
    MarkedBetween before element (marksBetween before element) where
  not_called hcall := by simp [marksBetween, hcall]
  names hcall u hu hrule := by
    obtain rfl := isSubject_iff.mp hu
    rw [marksBetween, if_pos hcall, subjectMarks_of_isAnyRule (numbered_subject h) hrule]
    rfl
  name hcall u hu hrule := by
    obtain rfl := isSubject_iff.mp hu
    rw [marksBetween, if_pos hcall, subjectMarks_of_isRule hrule]
    rfl
  nothing hcall u hu hrule := by
    obtain rfl := isSubject_iff.mp hu
    rw [marksBetween, if_pos hcall, subjectMarks_of_not hrule]

/-- An invocation is not the subject of the one behind it. -/
theorem subjectMarks_of_invocation (h : before.isRule Rule.methodInvocation = true) :
    subjectMarks (subject before) = [] := by
  cases before with
  | leaf n x => contradiction
  | node n r s cs =>
    obtain rfl : r = Rule.methodInvocation := by simpa [Tree.isRule] using h
    rfl

theorem exists_name_of_mem_subjectMarks (hnumbered : u.Numbered) (ho : o ∈ subjectMarks u) :
    ∃ name ∈ u.nodes, name.isRule Rule.identifier = true ∧ name.span = some o.span := by
  by_cases hnames : u.isAnyRule [Rule.memberAccess, Rule.qualifiedAliasMember,
      Rule.primaryExpressionStart] = true
  · rw [subjectMarks_of_isAnyRule hnumbered hnames] at ho
    obtain ⟨name, hname, ho⟩ := List.mem_filterMap.mp ho
    obtain ⟨span, hspan, rfl⟩ := Option.map_eq_some_iff.mp ho
    obtain ⟨hbeneath, hidentifier, -⟩ := hnumbered.mem_outermost.mp hname
    exact ⟨name, List.mem_cons_of_mem _ hbeneath, hidentifier, hspan⟩
  · rw [subjectMarks, if_neg hnames] at ho
    split_ifs at ho with hname
    · obtain ⟨span, hspan, rfl⟩ := Option.map_eq_some_iff.mp (Option.mem_toList.mp ho)
      exact ⟨u, u.self_mem_nodes, hname, hspan⟩
    · contradiction

/-! ### Chains -/

theorem getElem?_zip_tail {α : Type} {xs : List α} {i : Nat} {pair : α × α} :
    (xs.zip xs.tail)[i]? = some pair ↔ xs[i]? = some pair.1 ∧ xs[i + 1]? = some pair.2 := by
  rw [List.getElem?_zip_eq_some, List.getElem?_tail]

theorem marks_of_primaryExpression {s : Site}
    (h : s.tree.isRule Rule.primaryExpression = true) :
    catalog.marks s = primaryExpressionMarks s.tree := by
  obtain ⟨_ | ⟨n, r, span, cs⟩, up⟩ := s
  · contradiction
  · obtain rfl : r = Rule.primaryExpression := by simpa [Tree.isRule] using h
    rfl

theorem exists_pair_of_mem_marks {t : Tree} (h : t.Numbered) (ho : o ∈ primaryExpressionMarks t) :
    ∃ i before element name, t.children[i]? = some before ∧ t.children[i + 1]? = some element ∧
      element.isRule Rule.methodInvocation = true ∧
      before.isRule Rule.methodInvocation = false ∧ name ∈ before.nodes ∧
      name.isRule Rule.identifier = true ∧ name.span = some o.span := by
  rw [primaryExpressionMarks_eq] at ho
  obtain ⟨⟨before, element⟩, hpair, ho⟩ := List.mem_flatMap.mp ho
  obtain ⟨i, hi⟩ := List.mem_iff_getElem?.mp hpair
  obtain ⟨hbefore, helement⟩ := getElem?_zip_tail.mp hi
  have hnumbered := h.children.1 before (List.mem_of_getElem? hbefore)
  rw [marksBetween, List.mem_ite_nil_right] at ho
  obtain ⟨hcall, ho⟩ := ho
  obtain ⟨name, hname, hidentifier, hspan⟩ :=
    exists_name_of_mem_subjectMarks (numbered_subject hnumbered) ho
  refine ⟨i, before, element, name, hbefore, helement, hcall, ?_,
    Tree.nodes_subset hname (subject_mem_nodes before), hidentifier, hspan⟩
  by_contra hinvocation
  rw [subjectMarks_of_invocation (by simpa using hinvocation)] at ho
  contradiction

/-- **What invocations call is marked.** In a parse that events describe, what is marked for a chain
is marked for pairs of neighbours, from left to right and as `MarkedBetween` says. So every mark
covers a name in the element right before an invocation, which is no invocation itself. A mark does
not overlap with anything in an invocation of the chain, and there is none if the chain has no
invocation. -/
theorem invocation_subjects {source : String} {events : List Event} {p : Parse}
    (h : Parse.ofEvents source events = .ok p) {s : Site} (hs : s.tree ∈ p.root.nodes)
    (hrule : s.tree.isRule Rule.primaryExpression = true) :
    (∃ parts : List (List Override), catalog.marks s = parts.flatten ∧
        parts.length = s.tree.children.length - 1 ∧
        ∀ i before element, s.tree.children[i]? = some before →
          s.tree.children[i + 1]? = some element →
            ∃ os, parts[i]? = some os ∧ MarkedBetween before element os) ∧
      (∀ o ∈ catalog.marks s, ∃ i before element name, s.tree.children[i]? = some before ∧
        s.tree.children[i + 1]? = some element ∧ element.isRule Rule.methodInvocation = true ∧
        before.isRule Rule.methodInvocation = false ∧ name ∈ before.nodes ∧
        name.isRule Rule.identifier = true ∧ name.span = some o.span) ∧
      (∀ call ∈ s.tree.children, call.isRule Rule.methodInvocation = true →
        ∀ u ∈ call.nodes, ∀ span, u.span = some span → ∀ o ∈ catalog.marks s,
          o.span.stop < span.start ∨ span.stop < o.span.start) ∧
      (s.tree.hasChildOf Rule.methodInvocation = false → catalog.marks s = []) := by
  have hp := Parse.sound_of_ofEvents h
  have hnumbered : s.tree.Numbered := (Parse.numbered_root h).of_mem hs
  rw [marks_of_primaryExpression hrule]
  have hpairs := fun o (ho : o ∈ primaryExpressionMarks s.tree) =>
    exists_pair_of_mem_marks hnumbered ho
  have hparts := (primaryExpressionMarks_eq s.tree).trans List.flatMap_def
  refine ⟨⟨_, hparts, by simp, ?_⟩, hpairs, ?_, ?_⟩
  · intro i before element hbefore helement
    have hpair : (s.tree.children.zip s.tree.children.tail)[i]? = some (before, element) :=
      getElem?_zip_tail.mpr ⟨hbefore, helement⟩
    refine ⟨marksBetween before element, ?_, markedBetween_marksBetween
      (hnumbered.children.1 before (List.mem_of_getElem? hbefore)) element⟩
    rw [List.getElem?_map, hpair, Option.map_some]
  · intro call hcall hinvocation u hu span hspan o ho
    obtain ⟨i, before, -, name, hbefore, -, -, hother, hname, -, hnamed⟩ := hpairs o ho
    have hne : before ≠ call := by
      rintro rfl
      rw [hother] at hinvocation
      contradiction
    exact (hp.spanned.of_mem hs).beneath_siblings_apart (hp.inSequence hs)
      (List.mem_of_getElem? hbefore) hcall hne hname hu hnamed hspan
  · intro hnone
    refine List.eq_nil_iff_forall_not_mem.mpr fun o ho => ?_
    obtain ⟨i, -, element, -, -, helement, hcall, -⟩ := hpairs o ho
    have hany := List.any_eq_false.mp hnone element (List.mem_of_getElem? helement)
    exact hany hcall

/-- The theorem at `x::f(a).g()`: the names of both calls are marked, with different origins, and
the argument is not. -/
theorem invocation_subjects_aliased :
    ∃ p, Parse.ofEvents "x::f(a).g()"
        [.enter Rule.primaryExpression, .enter Rule.primaryExpressionStart,
          .enter Rule.qualifiedAliasMember, .enter Rule.identifier, .token ⟨1, "x", none⟩, .leave,
          .token ⟨2, "::", none⟩, .enter Rule.identifier, .token ⟨1, "f", none⟩, .leave, .leave,
          .leave, .enter Rule.methodInvocation, .token ⟨3, "(", none⟩, .enter Rule.identifier,
          .token ⟨1, "a", none⟩, .leave, .token ⟨4, ")", none⟩, .leave, .enter Rule.memberAccess,
          .token ⟨5, ".", none⟩, .enter Rule.identifier, .token ⟨1, "g", none⟩, .leave, .leave,
          .enter Rule.methodInvocation, .token ⟨3, "(", none⟩, .token ⟨4, ")", none⟩, .leave,
          .leave] = .ok p ∧
      p.root.isRule Rule.primaryExpression = true ∧
      catalog.marks (Site.ofRoot p.root)
        = [⟨⟨3, 3⟩, .functionIdentifier, Rule.methodInvocation⟩,
          ⟨⟨8, 8⟩, .functionIdentifier, Rule.primaryExpression⟩] ∧
      ∀ o ∈ catalog.marks (Site.ofRoot p.root), o.span.stop < 5 ∨ 5 < o.span.start := by
  obtain ⟨p, h⟩ : ∃ p, Parse.ofEvents "x::f(a).g()"
      [.enter Rule.primaryExpression, .enter Rule.primaryExpressionStart,
        .enter Rule.qualifiedAliasMember, .enter Rule.identifier, .token ⟨1, "x", none⟩, .leave,
        .token ⟨2, "::", none⟩, .enter Rule.identifier, .token ⟨1, "f", none⟩, .leave, .leave,
        .leave, .enter Rule.methodInvocation, .token ⟨3, "(", none⟩, .enter Rule.identifier,
        .token ⟨1, "a", none⟩, .leave, .token ⟨4, ")", none⟩, .leave, .enter Rule.memberAccess,
        .token ⟨5, ".", none⟩, .enter Rule.identifier, .token ⟨1, "g", none⟩, .leave, .leave,
        .enter Rule.methodInvocation, .token ⟨3, "(", none⟩, .token ⟨4, ")", none⟩, .leave,
        .leave] = .ok p := ⟨_, (Parse.ofEvents_eq_replay _ _).trans rfl⟩
  let call : Tree := .node 8 Rule.methodInvocation (some ⟨4, 6⟩) [.leaf 9 ⟨3, ⟨4, 4⟩, "("⟩,
    .node 10 Rule.identifier (some ⟨5, 5⟩) [.leaf 11 ⟨1, ⟨5, 5⟩, "a"⟩], .leaf 12 ⟨4, ⟨6, 6⟩, ")"⟩]
  have hroot : p.root = .node 0 Rule.primaryExpression (some ⟨0, 10⟩)
      [.node 1 Rule.primaryExpressionStart (some ⟨0, 3⟩)
        [.node 2 Rule.qualifiedAliasMember (some ⟨0, 3⟩)
          [.node 3 Rule.identifier (some ⟨0, 0⟩) [.leaf 4 ⟨1, ⟨0, 0⟩, "x"⟩],
            .leaf 5 ⟨2, ⟨1, 2⟩, "::"⟩,
            .node 6 Rule.identifier (some ⟨3, 3⟩) [.leaf 7 ⟨1, ⟨3, 3⟩, "f"⟩]]],
        call,
        .node 13 Rule.memberAccess (some ⟨7, 8⟩) [.leaf 14 ⟨5, ⟨7, 7⟩, "."⟩,
          .node 15 Rule.identifier (some ⟨8, 8⟩) [.leaf 16 ⟨1, ⟨8, 8⟩, "g"⟩]],
        .node 17 Rule.methodInvocation (some ⟨9, 10⟩) [.leaf 18 ⟨3, ⟨9, 9⟩, "("⟩,
          .leaf 19 ⟨4, ⟨10, 10⟩, ")"⟩]] := by
    rw [Parse.ofEvents_eq_replay] at h
    obtain rfl := Except.ok.inj h
    rfl
  have hrule : p.root.isRule Rule.primaryExpression = true := by rw [hroot]; rfl
  obtain ⟨-, -, hapart, -⟩ :=
    invocation_subjects (s := Site.ofRoot p.root) h p.root.self_mem_nodes hrule
  refine ⟨p, h, hrule, ?_, hapart call ?_ rfl (.node 10 Rule.identifier (some ⟨5, 5⟩)
    [.leaf 11 ⟨1, ⟨5, 5⟩, "a"⟩]) ?_ ⟨5, 5⟩ rfl⟩
  · rw [marks_of_primaryExpression hrule]
    simp only [Site.ofRoot, hroot]
    cbv
  · simp [Site.ofRoot, hroot, Tree.children]
  · simp [call]

end CSharp

end Highlighting

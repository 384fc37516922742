import Highlighting.Language.JavaScript.Catalog
import Highlighting.Proofs.LeadingMatch

/-!
# What names a class declaration

The rule for class declarations in JavaScript scans for the first identifier and for the word
`function` at the same time. The word is declined whenever it is offered, and all it does is to turn
the category of what comes later. An identifier without tokens is accepted and then not marked, so
the scan goes on behind it, with the state it had.

In terms of the source this comes to: the declaration is named by the identifier that starts first
(`Names`), and it declares a function exactly if the word `function` stands anywhere before the name
beneath the declaration. It does not matter how deep the word or the name lie, nor which of them
lies deeper.

## Main definitions

* `JavaScript.Names`: the identifier that names a declaration

## Main results

* `JavaScript.classDeclarationMarks_of_split`: the mark, by the matches before it
* `JavaScript.class_declaration_names`: the mark, by the source
-/

namespace Highlighting

namespace JavaScript

variable {t u name : Tree} {span : Span} {before after : List Tree}

/-- What the rule looks at: identifiers, and the word `function`. -/
def isNoted : Tree → Bool := Tree.isRuleOrKind Rule.identifier Kind.function

/-- What may be marked: identifiers with tokens. -/
def isName (t : Tree) : Bool := t.isRule Rule.identifier && t.span.isSome

/-- The identifier names the declaration: of the identifiers beneath the declaration that have
tokens it starts first, and it stands beneath none of them. -/
structure Names (t name : Tree) (span : Span) : Prop where
  outermost : name ∈ t.outermost (·.isRule Rule.identifier)
  span_eq : name.span = some span
  start_le : ∀ u ∈ t.descendants, u.isRule Rule.identifier = true → ∀ s, u.span = some s →
    span.start ≤ s.start

theorem isName_iff : isName t = true ↔ t.isRule Rule.identifier = true ∧ ∃ s, t.span = some s := by
  rw [isName, Bool.and_eq_true, Option.isSome_iff_exists]

/-! ### The scan -/

/-- The scan of the rule. -/
def nameScan : Scan := ⟨[Rule.identifier], some Kind.function, false, true⟩

theorem declinesTokensOnly_classDeclaration :
    Scan.DeclinesTokensOnly classDeclarationMarks.answer := by
  intro afterFunction t
  simp [classDeclarationMarks.answer]

theorem classDeclarationMarks_eq_search (h : t.Numbered) :
    classDeclarationMarks t = (nameScan.search Rule.classDeclaration classDeclarationMarks.answer
      (t.outermost isNoted) false []).1 := by
  have hmatches : nameScan.matchesTree = isNoted := Scan.matchesTree_eq_isRuleOrKind _ _ _ _
  rw [← hmatches, ← Scan.run_eq_search_outermost h rfl declinesTokensOnly_classDeclaration]
  rfl

/-- What is noted but may not be marked is passed: a token is the word `function`, and an identifier
has no tokens. -/
theorem passes_of_isName_eq_false (hnoted : isNoted u = true) (hname : isName u = false)
    (afterFunction : Bool) :
    nameScan.Passes classDeclarationMarks.answer u afterFunction (afterFunction || u.isLeaf) := by
  rcases Tree.isRuleOrKind_iff.mp hnoted with hrule | ⟨n, x, rfl, hkind⟩
  · have hspan : u.span = none := by simpa [isName, hrule] using hname
    rw [Tree.isLeaf_of_isRule hrule, Bool.or_false]
    exact ⟨.production u, Scan.hit?_of_isRule hrule, .inr ⟨_, rfl, hspan⟩⟩
  · refine ⟨.terminal (.leaf n x), Scan.hit?_of_kind hkind, .inl ⟨?_, rfl⟩⟩
    simp [classDeclarationMarks.answer, Tree.isLeaf]

theorem foldl_or_isLeaf (ts : List Tree) (b : Bool) :
    ts.foldl (fun b t => b || t.isLeaf) b = (b || ts.any Tree.isLeaf) := by
  induction ts generalizing b with
  | nil => simp
  | cons t ts ih => rw [List.foldl_cons, ih, List.any_cons, Bool.or_assoc]

/-- All that is left of what has been passed is whether the word `function` was among it. -/
theorem search_passed (hnoted : ∀ u ∈ before, isNoted u = true)
    (hname : ∀ u ∈ before, isName u = false) (rest : List Tree) :
    nameScan.search Rule.classDeclaration classDeclarationMarks.answer (before ++ rest) false []
      = nameScan.search Rule.classDeclaration classDeclarationMarks.answer rest
        (before.any Tree.isLeaf) [] := by
  rw [Scan.search_append_of_passes (fun b t => b || t.isLeaf)
    fun u hu => passes_of_isName_eq_false (hnoted u hu) (hname u hu), foldl_or_isLeaf,
    Bool.false_or]

theorem classDeclarationMarks_of_forall (h : t.Numbered)
    (hname : ∀ u ∈ t.outermost isNoted, isName u = false) : classDeclarationMarks t = [] := by
  have hpassed := search_passed (fun u hu => h.test_of_mem_outermost hu) hname []
  rw [List.append_nil] at hpassed
  rw [classDeclarationMarks_eq_search h, hpassed, Scan.search]
  rfl

/-- **The mark of a class declaration**, by the matches before the one that is marked. -/
theorem classDeclarationMarks_of_split (h : t.Numbered)
    (hsplit : t.outermost isNoted = before ++ name :: after)
    (hbefore : ∀ u ∈ before, isName u = false) (hrule : name.isRule Rule.identifier = true)
    (hspan : name.span = some span) :
    classDeclarationMarks t = [⟨span, if before.any Tree.isLeaf then .functionDeclarator
      else .classDeclarator, Rule.classDeclaration⟩] := by
  have hnoted : ∀ u ∈ before, isNoted u = true := fun u hu =>
    h.test_of_mem_outermost (hsplit ▸ List.mem_append_left _ hu)
  rw [classDeclarationMarks_eq_search h, hsplit, search_passed hnoted hbefore]
  exact Scan.search_cons_of_marked rfl (Scan.hit?_of_isRule hrule) rfl hspan after []

/-! ### The source -/

/-- The word `function` is among the matches before the name exactly if it starts before the name in
the source. If it lay beneath an identifier, then that one would have tokens and come first. -/
theorem any_isLeaf_iff (h : t.Orderly) (ht : t.isLeaf = false)
    (hsplit : t.outermost isNoted = before ++ name :: after)
    (hbefore : ∀ u ∈ before, isName u = false) (hspan : name.span = some span) :
    before.any Tree.isLeaf = true ↔
      ∃ x ∈ t.tokens, x.kind = Kind.function ∧ x.span.start < span.start := by
  have hmem : ∀ {u}, u ∈ before ++ name :: after → u ∈ t.outermost isNoted := fun hu => hsplit ▸ hu
  have horderly : ∀ {u}, u ∈ before ++ name :: after → u.Orderly := fun hu =>
    h.of_mem_outermost (hmem hu)
  constructor
  · intro hany
    obtain ⟨u, hu, hleaf⟩ := List.any_eq_true.mp hany
    have hnoted := h.numbered.test_of_mem_outermost (hmem (List.mem_append_left _ hu))
    have hbeneath :=
      h.numbered.mem_descendants_of_mem_outermost (hmem (List.mem_append_left _ hu))
    rcases Tree.isRuleOrKind_iff.mp hnoted with hrule | ⟨n, x, rfl, hkind⟩
    · rw [Tree.isLeaf_of_isRule hrule] at hleaf
      contradiction
    · have hlt := (h.split_outermost hsplit hspan rfl).1 hu
      have hcovers := (horderly (List.mem_append_left _ hu)).start_le_stop rfl
      exact ⟨x, Tree.mem_tokens_of_mem_nodes (List.mem_cons_of_mem _ hbeneath), hkind, by omega⟩
  · rintro ⟨x, hx, hkind, hlt⟩
    obtain ⟨v, hv, hxv, hform⟩ :=
      h.numbered.exists_outermost_of_mem_tokens Rule.identifier ht hx hkind
    have hv : v ∈ before ++ name :: after := hsplit ▸ hv
    obtain ⟨s, hs, hstart, -⟩ := (horderly hv).exists_span hxv
    rcases List.mem_append.mp hv with hvbefore | hvafter
    · rcases hform with hrule | ⟨n, rfl⟩
      · have hnot := hbefore v hvbefore
        rw [isName_iff.mpr ⟨hrule, s, hs⟩] at hnot
        contradiction
      · exact List.any_eq_true.mpr ⟨_, hvbefore, rfl⟩
    · -- What is not before the name starts with it or behind it, and so does the word.
      rcases List.mem_cons.mp hvafter with rfl | hvafter
      · obtain rfl := Option.some.inj (hspan.symm.trans hs)
        omega
      · have hname := (horderly (List.mem_append_right _ List.mem_cons_self)).start_le_stop hspan
        have hbehind := (h.split_outermost hsplit hspan hs).2 hvafter
        omega

/-- **The first identifier that the scan may mark names the declaration.** -/
theorem find?_isName_iff (h : t.Orderly) (hspan : name.span = some span) :
    (t.outermost isNoted).find? isName = some name ↔ Names t name span := by
  rw [h.find?_outermost_eq_some_iff (fun u hu => (isName_iff.mp hu).2) hspan]
  constructor
  · rintro ⟨hname, hname', hfirst⟩
    have hrule := (isName_iff.mp hname').1
    refine ⟨(h.numbered.mem_outermost_isRuleOrKind hrule).mp hname, hspan, fun u hu hu' s hs => ?_⟩
    obtain ⟨v, hv, hv', s', hs', hstart, -⟩ := h.exists_outermost_isRule Kind.function hu hu' hs
    exact Nat.le_trans (hfirst v hv (isName_iff.mpr ⟨hv', s', hs'⟩) s' hs') hstart
  · intro hname
    have hrule : name.isRule Rule.identifier = true :=
      h.numbered.test_of_mem_outermost hname.outermost
    refine ⟨(h.numbered.mem_outermost_isRuleOrKind hrule).mpr hname.outermost,
      isName_iff.mpr ⟨hrule, span, hspan⟩, fun u hu hu' s hs => ?_⟩
    have hbeneath := h.numbered.mem_descendants_of_mem_outermost hu
    exact hname.start_le u hbeneath (isName_iff.mp hu').1 s hs

theorem marks_of_classDeclaration {s : Site} (h : s.tree.isRule Rule.classDeclaration = true) :
    catalog.marks s = classDeclarationMarks s.tree := by
  obtain ⟨_ | ⟨n, r, span, cs⟩, up⟩ := s
  · contradiction
  · obtain rfl : r = Rule.classDeclaration := by simpa [Tree.isRule] using h
    rfl

/-- **What names a class declaration is marked.** In a parse that events describe, nothing is marked
for a class declaration if no identifier beneath it has tokens. Otherwise there is one that names
it, the outermost of those that start first, and this one alone is marked: as a function if the word
`function` starts anywhere before it beneath the declaration, and else as a class. -/
theorem class_declaration_names {source : String} {events : List Event} {p : Parse}
    (h : Parse.ofEvents source events = .ok p) {s : Site} (hs : s.tree ∈ p.root.nodes)
    (hrule : s.tree.isRule Rule.classDeclaration = true) :
    ((∀ u ∈ s.tree.descendants, u.isRule Rule.identifier = true → u.span = none) →
        catalog.marks s = []) ∧
      ((∃ u ∈ s.tree.descendants, u.isRule Rule.identifier = true ∧ u.span ≠ none) →
        ∃ name span, Names s.tree name span) ∧
      ∀ name span, Names s.tree name span →
        catalog.marks s = [⟨span,
          if ∃ x ∈ s.tree.tokens, x.kind = Kind.function ∧ x.span.start < span.start then
            .functionDeclarator
          else .classDeclarator,
          Rule.classDeclaration⟩] := by
  have ht : s.tree.Orderly := Parse.orderly h hs
  rw [marks_of_classDeclaration hrule]
  refine ⟨fun hnone => ?_, ?_, fun name span hname => ?_⟩
  · refine classDeclarationMarks_of_forall ht.numbered fun u hu => ?_
    by_contra hu'
    obtain ⟨hidentifier, span, hspan⟩ := isName_iff.mp (Bool.not_eq_false _ ▸ hu')
    have hbeneath := ht.numbered.mem_descendants_of_mem_outermost hu
    rw [hnone u hbeneath hidentifier] at hspan
    contradiction
  · rintro ⟨u, hu, hidentifier, hspan⟩
    obtain ⟨span, hspan⟩ := Option.ne_none_iff_exists'.mp hspan
    obtain ⟨v, hv, hv', s', hs', -⟩ :=
      ht.exists_outermost_isRule Kind.function hu hidentifier hspan
    have hsome : ((s.tree.outermost isNoted).find? isName).isSome = true :=
      List.find?_isSome.mpr ⟨v, hv, isName_iff.mpr ⟨hv', s', hs'⟩⟩
    obtain ⟨name, hname⟩ := Option.isSome_iff_exists.mp hsome
    obtain ⟨-, span, hspan⟩ := isName_iff.mp (List.find?_some hname)
    exact ⟨name, span, (find?_isName_iff ht hspan).mp hname⟩
  · obtain ⟨-, before, after, hsplit, hbefore⟩ :=
      List.find?_eq_some_iff_append.mp ((find?_isName_iff ht hname.span_eq).mpr hname)
    have hbefore : ∀ u ∈ before, isName u = false := fun u hu => by simpa using hbefore u hu
    rw [classDeclarationMarks_of_split ht.numbered hsplit hbefore
      (ht.numbered.test_of_mem_outermost hname.outermost) hname.span_eq]
    simp only [any_isLeaf_iff ht (Tree.isLeaf_of_isRule hrule) hsplit hbefore hname.span_eq]

/-- The theorem at a declaration that begins with an identifier without tokens. The word `function`
stands before the first one that has tokens, in another branch of the tree. -/
theorem class_declaration_names_function :
    ∃ p, Parse.ofEvents "function make"
        [.enter Rule.classDeclaration, .enter Rule.identifier, .leave, .enter Rule.keyword,
          .token ⟨Kind.function, "function", none⟩, .leave, .enter Rule.classTail,
          .enter Rule.identifier, .token ⟨Kind.identifier, "make", none⟩, .leave, .leave,
          .leave] = .ok p ∧
      p.root.isRule Rule.classDeclaration = true ∧
      (∃ name, Names p.root name ⟨9, 12⟩) ∧
      catalog.marks (Site.ofRoot p.root)
        = [⟨⟨9, 12⟩, .functionDeclarator, Rule.classDeclaration⟩] := by
  refine Exists.imp (fun p h => ⟨h, ?_⟩) ⟨_, (Parse.ofEvents_eq_replay _ _).trans rfl⟩
  let name : Tree :=
    .node 5 Rule.identifier (some ⟨9, 12⟩) [.leaf 6 ⟨Kind.identifier, ⟨9, 12⟩, "make"⟩]
  have hroot : p.root = .node 0 Rule.classDeclaration (some ⟨0, 12⟩)
      [.node 1 Rule.identifier none [],
        .node 2 Rule.keyword (some ⟨0, 7⟩) [.leaf 3 ⟨Kind.function, ⟨0, 7⟩, "function"⟩],
        .node 4 Rule.classTail (some ⟨9, 12⟩) [name]] := by
    rw [Parse.ofEvents_eq_replay] at h
    obtain rfl := Except.ok.inj h
    rfl
  have hrule : p.root.isRule Rule.classDeclaration = true := by rw [hroot]; rfl
  have hname : Names p.root name ⟨9, 12⟩ := by
    have hkeyword : Rule.keyword.id ≠ Rule.identifier.id := by decide
    have hclassTail : Rule.classTail.id ≠ Rule.identifier.id := by decide
    refine ⟨?_, rfl, ?_⟩
    · simp [hroot, Tree.outermost, Tree.outermostOf, Tree.uncovered, Tree.isAbove,
        Tree.descendants_eq_flatMap, Tree.isRule, Tree.children, Tree.id, name, hclassTail]
    · simp [hroot, Tree.descendants_eq_flatMap, Tree.isRule, Tree.children, Tree.span, name,
        hkeyword, hclassTail]
  obtain ⟨-, -, hmarks⟩ :=
    class_declaration_names (s := Site.ofRoot p.root) h p.root.self_mem_nodes hrule
  refine ⟨hrule, ⟨name, hname⟩, ?_⟩
  rw [hmarks name ⟨9, 12⟩ hname, if_pos]
  exact ⟨⟨Kind.function, ⟨0, 7⟩, "function"⟩, by simp [Site.ofRoot, hroot], rfl, by decide⟩

end JavaScript

end Highlighting

import Highlighting.Language.JavaScript.Catalog
import Highlighting.Proofs.LeadingMatch

/-!
# Which name of a called member access is marked

Where a member access in JavaScript is called or constructed, the rule for it scans for one match
only, and two sorts of nodes compete: names of members, and tokens that are identifiers. Which of
them wins depends on the whole shape of the access. In `this.run()` it is the member. In
`point.move()` it is the object, because the token `point` comes first, and it is taken for a type;
in `a.b.c()` the inner access begins with an identifier, too. A name without tokens is accepted and
then not marked, so it hides nothing that stands behind it.

All of this is one question to the source: which token comes first among those that count, the
identifiers and the tokens of names (`Leads`)? If it belongs to a name, the outermost such name is
marked, and else the token itself.

## Main definitions

* `JavaScript.Counts`, `JavaScript.Leads`: the tokens that compete, and the first of them

## Main results

* `JavaScript.called_marks_of_find?`: the mark, by what the scan comes to
* `JavaScript.Leads.find?_eq`: what the scan comes to holds the first token that counts
* `JavaScript.called_member_names`: the mark, by the source
-/

namespace Highlighting

namespace JavaScript

variable {s : Site} {t u v : Tree} {span : Span} {x : Token}

/-- The member access is called or constructed. -/
def Called (s : Site) : Prop :=
  s.isUnder Rule.argumentsExpression = true ∨ s.isUnder Rule.newExpression = true

/-- What the rule looks for: names of members, and tokens that are identifiers. -/
def isSought : Tree → Bool := Tree.isRuleOrKind Rule.identifierName Kind.identifier

/-- The token is an identifier, or it belongs to a name beneath the access. -/
def Counts (t : Tree) (x : Token) : Prop :=
  x.kind = Kind.identifier ∨
    ∃ name ∈ t.descendants, name.isRule Rule.identifierName = true ∧ x ∈ name.tokens

/-- The token comes first in the source among those that count. -/
structure Leads (t : Tree) (x : Token) : Prop where
  mem_tokens : x ∈ t.tokens
  counts : Counts t x
  start_le : ∀ y ∈ t.tokens, Counts t y → x.span.start ≤ y.span.start

/-- What can be marked: nodes with tokens. -/
def hasSpan (t : Tree) : Bool := t.span.isSome

theorem hasSpan_iff : hasSpan t = true ↔ ∃ s, t.span = some s := Option.isSome_iff_exists

theorem hasSpan_eq_false_iff : hasSpan t = false ↔ t.span = none :=
  Option.isSome_eq_false_iff.trans Option.isNone_iff_eq_none

/-! ### The scan -/

/-- The scan of the rule. -/
def memberScan : Scan := ⟨[Rule.identifierName], some Kind.identifier, false, true⟩

/-- The category of a match. -/
def soughtCategory (s : Site) (u : Tree) : Category :=
  if u.isLeaf || s.isUnder Rule.newExpression then .typeIdentifier else .functionIdentifier

theorem hit?_memberScan (h : isSought u = true) :
    ∃ hit, memberScan.hit? u = some hit ∧
      memberDotExpressionMarks.answer s () hit = (some (soughtCategory s u), ()) := by
  rcases Tree.isRuleOrKind_iff.mp h with hrule | ⟨n, x, rfl, hkind⟩
  · refine ⟨.production u, Scan.hit?_of_isRule hrule, ?_⟩
    rw [soughtCategory, Tree.isLeaf_of_isRule hrule]
    rfl
  · exact ⟨.terminal (.leaf n x), Scan.hit?_of_kind hkind, rfl⟩

theorem called_marks_eq_search (hcalled : Called s) (h : s.tree.Numbered) :
    memberDotExpressionMarks s = (memberScan.search Rule.memberDotExpression
      (memberDotExpressionMarks.answer s) (s.tree.outermost isSought) () []).1 := by
  have hmatches : memberScan.matchesTree = isSought := Scan.matchesTree_eq_isRuleOrKind _ _ _ _
  have hdeclines : Scan.DeclinesTokensOnly (memberDotExpressionMarks.answer s) := by
    intro state t
    simp [memberDotExpressionMarks.answer]
  rw [← hmatches, ← Scan.run_eq_search_outermost h rfl hdeclines, memberDotExpressionMarks,
    if_pos (by simpa [Called] using hcalled)]
  rfl

/-- Matches without tokens are passed. -/
theorem search_sought {before : List Tree} (hsought : ∀ u ∈ before, isSought u = true)
    (hspan : ∀ u ∈ before, u.span = none) (rest : List Tree) :
    memberScan.search Rule.memberDotExpression (memberDotExpressionMarks.answer s)
        (before ++ rest) () []
      = memberScan.search Rule.memberDotExpression (memberDotExpressionMarks.answer s) rest ()
        [] := by
  refine Scan.search_append_of_passes (fun _ _ => ()) (fun u hu _ => ?_) rest () []
  obtain ⟨hit, hhit, hanswer⟩ := hit?_memberScan (s := s) (hsought u hu)
  exact ⟨hit, hhit, .inr ⟨_, hanswer, hspan u hu⟩⟩

theorem called_marks_of_find?_eq_none (hcalled : Called s) (h : s.tree.Numbered)
    (hfind : (s.tree.outermost isSought).find? hasSpan = none) :
    memberDotExpressionMarks s = [] := by
  have hspan : ∀ u ∈ s.tree.outermost isSought, u.span = none := by
    simpa [hasSpan_eq_false_iff] using List.find?_eq_none.mp hfind
  have hpassed := search_sought (s := s) (fun u hu => h.test_of_mem_outermost hu) hspan []
  rw [List.append_nil] at hpassed
  rw [called_marks_eq_search hcalled h, hpassed, Scan.search]
  rfl

/-- **The mark of a called member access**: the first outermost match that has tokens. -/
theorem called_marks_of_find? (hcalled : Called s) (h : s.tree.Numbered)
    (hfind : (s.tree.outermost isSought).find? hasSpan = some u)
    (hspan : u.span = some span) :
    memberDotExpressionMarks s = [⟨span, soughtCategory s u, Rule.memberDotExpression⟩] := by
  obtain ⟨-, before, after, hsplit, hbefore⟩ := List.find?_eq_some_iff_append.mp hfind
  have hsought : ∀ v ∈ s.tree.outermost isSought, isSought v = true := fun v hv =>
    h.test_of_mem_outermost hv
  obtain ⟨hit, hhit, hanswer⟩ :=
    hit?_memberScan (s := s) (hsought u (List.mem_of_find?_eq_some hfind))
  rw [hsplit] at hsought
  have hpassed : ∀ v ∈ before, v.span = none := by simpa [hasSpan_eq_false_iff] using hbefore
  rw [called_marks_eq_search hcalled h, hsplit,
    search_sought (fun v hv => hsought v (List.mem_append_left _ hv)) hpassed]
  exact Scan.search_cons_of_marked rfl hhit (by rw [hanswer]) hspan after []

/-! ### The source -/

theorem find?_hasSpan_iff (h : t.Orderly) (hspan : v.span = some span) :
    (t.outermost isSought).find? hasSpan = some v ↔
      v ∈ t.outermost isSought ∧ hasSpan v = true ∧
        ∀ u ∈ t.outermost isSought, hasSpan u = true → ∀ s, u.span = some s →
          span.start ≤ s.start :=
  h.find?_outermost_eq_some_iff (fun _ => hasSpan_iff.mp) hspan

/-- A token of a name lies in an outermost name. -/
theorem exists_sought_of_mem_tokens {name : Tree} (h : t.Numbered) (hname : name ∈ t.descendants)
    (hrule : name.isRule Rule.identifierName = true) (hx : x ∈ name.tokens) :
    ∃ v ∈ t.outermost isSought, x ∈ v.tokens ∧ v.isRule Rule.identifierName = true := by
  obtain ⟨v, hv, hv', hnv⟩ := h.exists_outermost_isRule Kind.identifier hname hrule
  exact ⟨v, hv, Tree.tokens_subset hnv hx, hv'⟩

/-- A token that counts lies in an outermost match. -/
theorem exists_sought_of_counts (h : t.Numbered) (ht : t.isLeaf = false) (hx : x ∈ t.tokens)
    (hcounts : Counts t x) :
    ∃ v ∈ t.outermost isSought, x ∈ v.tokens ∧
      (v.isRule Rule.identifierName = true ∨ ∃ n, v = .leaf n x) := by
  rcases hcounts with hkind | ⟨name, hname, hrule, hx⟩
  · exact h.exists_outermost_of_mem_tokens _ ht hx hkind
  · obtain ⟨v, hv, hxv, hrule⟩ := exists_sought_of_mem_tokens h hname hrule hx
    exact ⟨v, hv, hxv, .inl hrule⟩

/-- And every token of an outermost match counts. -/
theorem counts_of_mem_tokens (h : t.Numbered) (hv : v ∈ t.outermost isSought)
    (hx : x ∈ v.tokens) : Counts t x := by
  have hsought : isSought v = true := h.test_of_mem_outermost hv
  rcases Tree.isRuleOrKind_iff.mp hsought with hrule | ⟨n, y, rfl, hkind⟩
  · exact .inr ⟨v, h.mem_descendants_of_mem_outermost hv, hrule, hx⟩
  · obtain rfl : x = y := by simpa using hx
    exact .inl hkind

/-- What the scan comes to begins with the first token that counts. -/
theorem exists_leads_of_find? (h : t.Orderly) (ht : t.isLeaf = false)
    (hfind : (t.outermost isSought).find? hasSpan = some u) : ∃ x, Leads t x := by
  obtain ⟨span, hspan⟩ := hasSpan_iff.mp (List.find?_some hfind)
  obtain ⟨hu, -, hfirst⟩ := (find?_hasSpan_iff h hspan).mp hfind
  have hbeneath := h.numbered.mem_descendants_of_mem_outermost hu
  obtain ⟨x, _, hx, -, rfl⟩ := (h.of_mem_outermost hu).spanned.exists_ends hspan
  have hx := List.mem_of_mem_head? hx
  refine ⟨x, Tree.tokens_subset (List.mem_cons_of_mem _ hbeneath) hx,
    counts_of_mem_tokens h.numbered hu hx, fun y hy hcounts => ?_⟩
  obtain ⟨v, hv, hyv, -⟩ := exists_sought_of_counts h.numbered ht hy hcounts
  obtain ⟨s, hs, hstart, -⟩ := (h.of_mem_outermost hv).exists_span hyv
  exact Nat.le_trans (hfirst v hv (hasSpan_iff.mpr ⟨s, hs⟩) s hs) hstart

/-- **What the scan comes to holds the first token that counts.** Anything before it would have a
token that counts and starts earlier. -/
theorem Leads.find?_eq (h : Leads t x) (ht : t.Orderly) (hv : v ∈ t.outermost isSought)
    (hx : x ∈ v.tokens) : (t.outermost isSought).find? hasSpan = some v := by
  obtain ⟨span, hspan, hstart, -⟩ := (ht.of_mem_outermost hv).exists_span hx
  refine (find?_hasSpan_iff ht hspan).mpr
    ⟨hv, hasSpan_iff.mpr ⟨span, hspan⟩, fun u hu _ s hs => ?_⟩
  obtain ⟨y, -, hy, -, rfl⟩ := (ht.of_mem_outermost hu).spanned.exists_ends hs
  have hy := List.mem_of_mem_head? hy
  have hyt : y ∈ t.tokens := Tree.tokens_subset
    (List.mem_cons_of_mem _ (ht.numbered.mem_descendants_of_mem_outermost hu)) hy
  exact Nat.le_trans hstart (h.start_le y hyt (counts_of_mem_tokens ht.numbered hu hy))

/-- The scan comes to a name that is a child of the access exactly if no identifier and no name with
tokens stands before it. -/
theorem find?_eq_some_child_iff (h : t.Orderly) (ht : t.isLeaf = false) (hv : v ∈ t.children)
    (hrule : v.isRule Rule.identifierName = true) (hspan : v.span = some span) :
    (t.outermost isSought).find? hasSpan = some v ↔
      (∀ x ∈ t.tokens, x.kind = Kind.identifier → ¬ x.span.stop < span.start) ∧
        ∀ name ∈ t.descendants, name.isRule Rule.identifierName = true → ∀ s, name.span = some s →
          ¬ s.stop < span.start := by
  have hsought : v ∈ t.outermost isSought :=
    h.numbered.mem_outermost_of_mem_children hv (Tree.isRuleOrKind_of_isRule hrule)
  rw [find?_hasSpan_iff h hspan]
  constructor
  · rintro ⟨-, -, hfirst⟩
    constructor
    · intro x hx hkind hlt
      obtain ⟨u, hu, hxu, -⟩ := exists_sought_of_counts h.numbered ht hx (.inl hkind)
      obtain ⟨s, hs, hstart, -⟩ := (h.of_mem_outermost hu).exists_span hxu
      have hcovers := h.inSequence.covers x hx
      have hle := hfirst u hu (hasSpan_iff.mpr ⟨s, hs⟩) s hs
      omega
    · intro name hname hname' s hs hlt
      obtain ⟨u, hu, -, s', hs', hstart, -⟩ :=
        h.exists_outermost_isRule Kind.identifier hname hname' hs
      have hcovers := (h.of_mem_descendants hname).start_le_stop hs
      have hle := hfirst u hu (hasSpan_iff.mpr ⟨s', hs'⟩) s' hs'
      omega
  · rintro ⟨hidentifiers, hnames⟩
    refine ⟨hsought, hasSpan_iff.mpr ⟨span, hspan⟩, fun u hu _ s hs => ?_⟩
    by_contra hle
    have hlt := h.stop_lt_of_start_lt hu hsought hs hspan (by omega)
    have hbeneath := h.numbered.mem_descendants_of_mem_outermost hu
    have hsought' : isSought u = true := h.numbered.test_of_mem_outermost hu
    rcases Tree.isRuleOrKind_iff.mp hsought' with hrule' | ⟨n, x, rfl, hkind⟩
    · exact hnames u hbeneath hrule' s hs hlt
    · obtain rfl : x.span = s := Option.some.inj hs
      have hx := Tree.mem_tokens_of_mem_nodes (List.mem_cons_of_mem _ hbeneath)
      exact hidentifiers x hx hkind hlt

/-! ### The rule -/

theorem marks_of_memberDotExpression (h : s.tree.isRule Rule.memberDotExpression = true) :
    catalog.marks s = memberDotExpressionMarks s := by
  obtain ⟨_ | ⟨n, r, span, cs⟩, up⟩ := s
  · contradiction
  · obtain rfl : r = Rule.memberDotExpression := by simpa [Tree.isRule] using h
    rfl

theorem isUnder_newExpression_eq_false (h : s.isUnder Rule.argumentsExpression = true) :
    s.isUnder Rule.newExpression = false := by
  cases hparent : s.parent? with
  | none => simp [Site.isUnder, hparent]
  | some parent =>
    simp only [Site.isUnder, hparent, Option.any_some] at h ⊢
    exact Tree.isRule_eq_false h (by decide)

/-- Where the access is called, a name that is a child of it is marked as a function exactly if the
scan comes to it. Whatever else covers the same characters would start first, too. -/
theorem mem_called_marks_iff (hargs : s.isUnder Rule.argumentsExpression = true)
    (h : s.tree.Orderly) (hv : v ∈ s.tree.children)
    (hrule : v.isRule Rule.identifierName = true) (hspan : v.span = some span) :
    ⟨span, .functionIdentifier, Rule.memberDotExpression⟩ ∈ memberDotExpressionMarks s ↔
      (s.tree.outermost isSought).find? hasSpan = some v := by
  have hcalled : Called s := .inl hargs
  constructor
  · intro hmark
    cases hfind : (s.tree.outermost isSought).find? hasSpan with
    | none =>
      rw [called_marks_of_find?_eq_none hcalled h.numbered hfind] at hmark
      contradiction
    | some u =>
      obtain ⟨span', hspan'⟩ := hasSpan_iff.mp (List.find?_some hfind)
      rw [called_marks_of_find? hcalled h.numbered hfind hspan', List.mem_singleton] at hmark
      obtain rfl : span = span' := congrArg Override.span hmark
      obtain ⟨-, -, hfirst⟩ := (find?_hasSpan_iff h hspan').mp hfind
      rw [← hfind, find?_hasSpan_iff h hspan]
      exact ⟨h.numbered.mem_outermost_of_mem_children hv (Tree.isRuleOrKind_of_isRule hrule),
        hasSpan_iff.mpr ⟨span, hspan⟩, hfirst⟩
  · intro hfind
    rw [called_marks_of_find? hcalled h.numbered hfind hspan, soughtCategory,
      Tree.isLeaf_of_isRule hrule, isUnder_newExpression_eq_false hargs]
    exact List.mem_singleton_self _

/-- **One name of a called member access is marked.** In a parse that events describe, a member
access that is called or constructed has at most one mark. There is none if no token beneath the
access is an identifier or belongs to a name. If the first of these tokens belongs to a name, then
the outermost such name is marked, as a type where it is constructed and as a function where it is
called; and else the token alone is marked, as a type. So where the access is called, a name that is
a child of it is marked as a function exactly if no identifier and no other name with tokens stands
before it. -/
theorem called_member_names {source : String} {events : List Event} {p : Parse}
    (h : Parse.ofEvents source events = .ok p) {s : Site} (hs : s.tree ∈ p.root.nodes)
    (hrule : s.tree.isRule Rule.memberDotExpression = true) (hcalled : Called s) :
    (catalog.marks s).length ≤ 1 ∧
      ((∀ x, ¬ Leads s.tree x) → catalog.marks s = []) ∧
      (∀ x, Leads s.tree x →
        ((∃ name ∈ s.tree.descendants,
            name.isRule Rule.identifierName = true ∧ x ∈ name.tokens) →
          ∃ name ∈ s.tree.outermost (·.isRule Rule.identifierName), x ∈ name.tokens ∧
            ∃ span, name.span = some span ∧
              catalog.marks s = [⟨span, if s.isUnder Rule.newExpression then .typeIdentifier
                else .functionIdentifier, Rule.memberDotExpression⟩]) ∧
        ((∀ name ∈ s.tree.descendants,
            name.isRule Rule.identifierName = true → x ∉ name.tokens) →
          catalog.marks s = [⟨x.span, .typeIdentifier, Rule.memberDotExpression⟩])) ∧
      (s.isUnder Rule.argumentsExpression = true → ∀ c ∈ s.tree.children,
        c.isRule Rule.identifierName = true → ∀ span, c.span = some span →
          (⟨span, .functionIdentifier, Rule.memberDotExpression⟩ ∈ catalog.marks s ↔
            (∀ x ∈ s.tree.tokens, x.kind = Kind.identifier → ¬ x.span.stop < span.start) ∧
              ∀ name ∈ s.tree.descendants, name.isRule Rule.identifierName = true →
                ∀ span', name.span = some span' → ¬ span'.stop < span.start)) := by
  have ht : s.tree.Orderly := Parse.orderly h hs
  have hnode := Tree.isLeaf_of_isRule hrule
  rw [marks_of_memberDotExpression hrule]
  refine ⟨?_, fun hnone => ?_, fun x hx => ⟨?_, fun hnone => ?_⟩, ?_⟩
  · cases hfind : (s.tree.outermost isSought).find? hasSpan with
    | none => simp [called_marks_of_find?_eq_none hcalled ht.numbered hfind]
    | some u =>
      obtain ⟨span, hspan⟩ := hasSpan_iff.mp (List.find?_some hfind)
      simp [called_marks_of_find? hcalled ht.numbered hfind hspan]
  · cases hfind : (s.tree.outermost isSought).find? hasSpan with
    | none => exact called_marks_of_find?_eq_none hcalled ht.numbered hfind
    | some u =>
      obtain ⟨x, hx⟩ := exists_leads_of_find? ht hnode hfind
      exact absurd hx (hnone x)
  · rintro ⟨name, hname, hname', hxname⟩
    obtain ⟨v, hv, hxv, hv'⟩ := exists_sought_of_mem_tokens ht.numbered hname hname' hxname
    obtain ⟨span, hspan, -⟩ := (ht.of_mem_outermost hv).exists_span hxv
    refine ⟨v, (ht.numbered.mem_outermost_isRuleOrKind hv').mp hv, hxv, span, hspan, ?_⟩
    rw [called_marks_of_find? hcalled ht.numbered (hx.find?_eq ht hv hxv) hspan,
      soughtCategory, Tree.isLeaf_of_isRule hv', Bool.false_or]
  · obtain ⟨v, hv, hxv, hname | ⟨n, rfl⟩⟩ :=
      exists_sought_of_counts ht.numbered hnode hx.mem_tokens hx.counts
    · exact absurd hxv (hnone v (ht.numbered.mem_descendants_of_mem_outermost hv) hname)
    · exact called_marks_of_find? hcalled ht.numbered (hx.find?_eq ht hv hxv) rfl
  · intro hargs c hc hc' span hspan
    rw [← find?_eq_some_child_iff ht hnode hc hc' hspan]
    exact mem_called_marks_iff hargs ht hc hc' hspan

/-- The theorem at `this.a.run()`. The first token that counts is `a`, in the inner access, and so
the name that is called is not marked. -/
theorem called_member_names_nested :
    ∃ p, Parse.ofEvents "this.a.run()"
        [.enter Rule.argumentsExpression, .enter Rule.memberDotExpression,
          .enter Rule.memberDotExpression, .token ⟨1, "this", none⟩, .token ⟨2, ".", none⟩,
          .enter Rule.identifierName, .token ⟨Kind.identifier, "a", none⟩, .leave, .leave,
          .token ⟨2, ".", none⟩, .enter Rule.identifierName,
          .token ⟨Kind.identifier, "run", none⟩, .leave, .leave, .token ⟨3, "(", none⟩,
          .token ⟨4, ")", none⟩, .leave] = .ok p ∧
      ∃ s, (Site.ofRoot p.root).follow? [0] = some s ∧ s.tree ∈ p.root.nodes ∧
        s.tree.isRule Rule.memberDotExpression = true ∧ Called s ∧
        Leads s.tree ⟨Kind.identifier, ⟨5, 5⟩, "a"⟩ ∧
        catalog.marks s = [⟨⟨5, 5⟩, .functionIdentifier, Rule.memberDotExpression⟩] ∧
        ⟨⟨7, 9⟩, .functionIdentifier, Rule.memberDotExpression⟩ ∉ catalog.marks s := by
  refine Exists.imp (fun p h => ⟨h, ?_⟩) ⟨_, (Parse.ofEvents_eq_replay _ _).trans rfl⟩
  let a : Token := ⟨Kind.identifier, ⟨5, 5⟩, "a"⟩
  let inner : Tree := .node 5 Rule.identifierName (some ⟨5, 5⟩) [.leaf 6 a]
  let outer : Tree :=
    .node 8 Rule.identifierName (some ⟨7, 9⟩) [.leaf 9 ⟨Kind.identifier, ⟨7, 9⟩, "run"⟩]
  let access : Tree := .node 1 Rule.memberDotExpression (some ⟨0, 9⟩)
    [.node 2 Rule.memberDotExpression (some ⟨0, 5⟩)
      [.leaf 3 ⟨1, ⟨0, 3⟩, "this"⟩, .leaf 4 ⟨2, ⟨4, 4⟩, "."⟩, inner],
      .leaf 7 ⟨2, ⟨6, 6⟩, "."⟩, outer]
  have hroot : p.root = .node 0 Rule.argumentsExpression (some ⟨0, 11⟩)
      [access, .leaf 10 ⟨3, ⟨10, 10⟩, "("⟩, .leaf 11 ⟨4, ⟨11, 11⟩, ")"⟩] := by
    rw [Parse.ofEvents_eq_replay] at h
    obtain rfl := Except.ok.inj h
    rfl
  have hs : access ∈ p.root.nodes :=
    Tree.mem_nodes_of_mem_children (by rw [hroot]; exact List.mem_cons_self)
  have hcalled : Called ⟨access, [p.root]⟩ := .inl (by rw [hroot]; rfl)
  have hnames : ∀ name ∈ access.descendants, name.isRule Rule.identifierName = true →
      name = inner ∨ name = outer := by
    have hne : Rule.memberDotExpression.id ≠ Rule.identifierName.id := by decide
    simp [access, inner, outer, Tree.descendants_eq_flatMap, Tree.children, Tree.isRule, hne]
  have hleads : Leads access a := by
    refine ⟨by simp [access, inner], .inl rfl, fun y hy hcounts => ?_⟩
    rcases hcounts with hkind | ⟨name, hname, hrule, hy⟩
    · simp only [access, inner, outer, Tree.tokens_node, Tree.tokens_leaf, List.flatMap_cons,
        List.flatMap_nil, List.append_nil, List.cons_append, List.nil_append, List.mem_cons,
        List.not_mem_nil, or_false] at hy
      rcases hy with rfl | rfl | rfl | rfl | rfl <;> first | contradiction | decide
    · rcases hnames name hname hrule with rfl | rfl
      · obtain rfl : y = a := by simpa [inner] using hy
        exact Nat.le_refl _
      · obtain rfl : y = ⟨Kind.identifier, ⟨7, 9⟩, "run"⟩ := by simpa [outer] using hy
        decide
  obtain ⟨-, -, hlead, hchild⟩ := called_member_names (s := ⟨access, [p.root]⟩) h hs rfl hcalled
  refine ⟨⟨access, [p.root]⟩, by rw [hroot]; rfl, hs, rfl, hcalled, hleads, ?_, ?_⟩
  · obtain ⟨name, hname, ha, span, hspan, hmarks⟩ := (hlead a hleads).1
      ⟨inner, by simp [access, Tree.descendants_eq_flatMap, Tree.children, Tree.self_mem_nodes],
        rfl, by simp [inner]⟩
    obtain ⟨hbeneath, hrule, -⟩ := (Parse.orderly h hs).numbered.mem_outermost.mp hname
    rcases hnames name hbeneath hrule with rfl | rfl
    · obtain rfl : ⟨5, 5⟩ = span := Option.some.inj hspan
      rw [hmarks, isUnder_newExpression_eq_false (by rw [hroot]; rfl)]
      rfl
    · simp [outer, a] at ha
  · intro hmark
    have hfree := ((hchild (by rw [hroot]; rfl) outer (by simp [access, Tree.children]) rfl ⟨7, 9⟩
      rfl).mp hmark).1
    exact hfree a hleads.mem_tokens rfl (by decide)

end JavaScript

end Highlighting

import Highlighting.Proofs.NodeSpans
import Highlighting.Proofs.Outermost

/-!
# The match that comes first

A scan for the first match only ends with the first mark it makes, and which one that is depends on
three things at once: on the order of the visits, on the answers, which may change with the matches
that came before, and on matches without tokens, which are accepted but neither marked nor the end
of the scan. Said by the source there is just one of them, the order of the text.

The way from one to the other has two parts. If only tokens are declined, then a declined match has
nothing beneath it, and the scan is offered the outermost matches one after the other and nothing
else: `Scan.run_eq_search_outermost`. Those that leave no mark are passed over one by one, with
nothing to show for it but the state of the answer function: `Scan.search_append_of_passes`. And
outermost nodes stand in the order of the text, each of them behind the end of the one before:
`Tree.Orderly.outermost_apart`. So the first one that is wanted is the one that starts first, and
everything that a scan looks for lies within one of them.

## Main definitions

* `Tree.Orderly`: what is used of a node of a parse
* `Scan.Passes`: a match leaves no mark

## Main results

* `Tree.Orderly.outermost_apart`: outermost nodes do not overlap and stand in order
* `Tree.Orderly.find?_outermost_eq_some_iff`: the first that is wanted is the one that starts first
* `Scan.run_eq_search_outermost`: a scan is offered the outermost matches
-/

namespace Highlighting

/-! ### Nodes of a parse -/

namespace Tree

variable {t u v w : Tree} {s s' : Span} {x : Token} {test wanted : Tree → Bool}

/-- What is used of a node of a parse: nodes beneath it can be told apart, spans are those of the
tokens, and tokens follow each other. -/
structure Orderly (t : Tree) : Prop where
  numbered : t.Numbered
  spanned : t.Spanned
  inSequence : InSequence t.tokens

theorem Orderly.of_mem (h : t.Orderly) (hu : u ∈ t.nodes) : u.Orderly where
  numbered := h.numbered.of_mem hu
  spanned := h.spanned.of_mem hu
  inSequence := h.inSequence.sublist (tokens_sublist_of_mem_nodes hu)

theorem Orderly.of_mem_descendants (h : t.Orderly) (hu : u ∈ t.descendants) : u.Orderly :=
  h.of_mem (List.mem_cons_of_mem _ hu)

theorem Orderly.within (h : t.Orderly) (hu : u ∈ t.nodes) (hs : u.span = some s) :
    ∃ s', t.span = some s' ∧ s'.start ≤ s.start ∧ s.stop ≤ s'.stop :=
  h.spanned.within h.inSequence hu hs

theorem Orderly.start_le_stop (h : t.Orderly) (hs : t.span = some s) : s.start ≤ s.stop := by
  obtain ⟨x, y, hx, hy, rfl⟩ := h.spanned.exists_ends hs
  have hxt := List.mem_of_mem_head? hx
  exact Nat.le_trans (h.inSequence.covers x hxt) (h.inSequence.le_stop hy hxt)

theorem exists_leaf_of_mem_tokens (hx : x ∈ t.tokens) : ∃ n, leaf n x ∈ t.nodes := by
  obtain ⟨u, hu, hux⟩ := List.mem_filterMap.mp hx
  obtain ⟨n, rfl⟩ := exists_eq_leaf hux
  exact ⟨n, hu⟩

/-- A node that has a token has a span, and the token lies within it. -/
theorem Orderly.exists_span (h : t.Orderly) (hx : x ∈ t.tokens) :
    ∃ s, t.span = some s ∧ s.start ≤ x.span.start ∧ x.span.stop ≤ s.stop := by
  obtain ⟨n, hn⟩ := exists_leaf_of_mem_tokens hx
  exact h.within hn rfl

theorem isLeaf_of_isRule {r : RuleId} (h : t.isRule r = true) : t.isLeaf = false := by
  cases t with
  | leaf n x => contradiction
  | node n rule s cs => rfl

/-- A node is a production of one rule only. -/
theorem isRule_eq_false {r r' : RuleId} (h : t.isRule r = true) (hne : r ≠ r') :
    t.isRule r' = false := by
  cases t with
  | leaf n x => contradiction
  | node n rule s cs =>
    obtain rfl : rule = r := by simpa [isRule] using h
    simpa [isRule] using hne

theorem mem_tokens_of_mem_nodes {n : Nat} (h : leaf n x ∈ t.nodes) : x ∈ t.tokens :=
  tokens_subset h (by rw [tokens_leaf]; exact List.mem_singleton_self x)

/-! ### Outermost nodes, in order -/

theorem exists_mem_topmost (hu : u ∈ t.nodes) (htest : test u = true) :
    ∃ v ∈ t.topmost test, u ∈ v.nodes := by
  induction t using induction with
  | leaf n x =>
    rw [nodes_leaf, List.mem_singleton] at hu
    subst hu
    exact ⟨_, by rw [topmost_of_pos htest]; exact List.mem_cons_self, self_mem_nodes _⟩
  | node n r s cs ih =>
    cases hroot : test (.node n r s cs) with
    | true => exact ⟨_, by rw [topmost_of_pos hroot]; exact List.mem_cons_self, hu⟩
    | false =>
      rcases mem_nodes.mp hu with rfl | ⟨c, hc, hu⟩
      · rw [hroot] at htest
        contradiction
      · obtain ⟨v, hv, huv⟩ := ih c hc hu
        exact ⟨v, by rw [topmost_of_neg hroot]; exact List.mem_flatMap.mpr ⟨c, hc, hv⟩, huv⟩

/-- What passes the test beneath a node lies in an outermost node that does. -/
theorem Numbered.exists_outermost (h : t.Numbered) (hu : u ∈ t.descendants)
    (htest : test u = true) : ∃ v ∈ t.outermost test, u ∈ v.nodes := by
  obtain ⟨c, hc, hu⟩ := mem_descendants.mp hu
  obtain ⟨v, hv, huv⟩ := exists_mem_topmost hu htest
  refine ⟨v, ?_, huv⟩
  rw [← h.flatMap_topmost_eq_outermost]
  exact List.mem_flatMap.mpr ⟨c, hc, hv⟩

/-- A child that passes the test is outermost. -/
theorem Numbered.mem_outermost_of_mem_children (h : t.Numbered) (hu : u ∈ t.children)
    (htest : test u = true) : u ∈ t.outermost test := by
  rw [← h.flatMap_topmost_eq_outermost]
  exact List.mem_flatMap.mpr ⟨u, hu, by rw [topmost_of_pos htest]; exact List.mem_cons_self⟩

theorem Numbered.mem_descendants_of_mem_outermost (h : t.Numbered) (hu : u ∈ t.outermost test) :
    u ∈ t.descendants :=
  (h.mem_outermost.mp hu).1

theorem Orderly.of_mem_outermost (h : t.Orderly) (hu : u ∈ t.outermost test) : u.Orderly :=
  h.of_mem_descendants (h.numbered.mem_descendants_of_mem_outermost hu)

theorem Numbered.test_of_mem_outermost (h : t.Numbered) (hu : u ∈ t.outermost test) :
    test u = true :=
  (h.mem_outermost.mp hu).2.1

/-- **Outermost nodes do not overlap and stand in order.** -/
theorem Orderly.outermost_apart (h : t.Orderly) :
    (t.outermost test).Pairwise fun v w => ∀ s s', v.span = some s → w.span = some s' →
      s.stop < s'.start := by
  have hsublist : ((t.outermost test).flatMap tokens).Sublist t.tokens := by
    rw [← h.numbered.flatMap_topmost_eq_outermost]
    exact tokens_flatMap_topmost_sublist test t
  have hpairwise := (h.inSequence.sublist hsublist).pairwise
  rw [List.pairwise_flatMap] at hpairwise
  refine hpairwise.2.imp_of_mem fun {v w} hv hw hvw s s' hs hs' => ?_
  obtain ⟨-, y, -, hy, rfl⟩ := (h.of_mem_outermost hv).spanned.exists_ends hs
  obtain ⟨x, -, hx, -, rfl⟩ := (h.of_mem_outermost hw).spanned.exists_ends hs'
  exact hvw y (List.mem_of_getLast? hy) x (List.mem_of_mem_head? hx)

/-- What comes before and what comes after an outermost node in their list does so in the text. -/
theorem Orderly.split_outermost (h : t.Orderly) {before after : List Tree}
    (hsplit : t.outermost test = before ++ u :: after) (hs : u.span = some s)
    (hs' : w.span = some s') :
    (w ∈ before → s'.stop < s.start) ∧ (w ∈ after → s.stop < s'.start) := by
  have hpairwise : (t.outermost test).Pairwise _ := h.outermost_apart
  rw [hsplit, List.pairwise_append, List.pairwise_cons] at hpairwise
  obtain ⟨-, ⟨hafter, -⟩, hbefore⟩ := hpairwise
  exact ⟨fun hw => hbefore w hw u List.mem_cons_self s' s hs' hs, fun hw => hafter w hw s s' hs hs'⟩

/-- An outermost node that starts before another one ends before it. -/
theorem Orderly.stop_lt_of_start_lt (h : t.Orderly) (hv : v ∈ t.outermost test)
    (hw : w ∈ t.outermost test) (hs : v.span = some s) (hs' : w.span = some s')
    (hlt : s.start < s'.start) : s.stop < s'.start := by
  obtain ⟨before, after, hsplit⟩ := List.append_of_mem hw
  have hcovers := (h.of_mem_outermost hw).start_le_stop hs'
  obtain ⟨hbefore, hafter⟩ := h.split_outermost hsplit hs' hs
  rw [hsplit, List.mem_append, List.mem_cons] at hv
  rcases hv with hv | rfl | hv
  · exact hbefore hv
  · obtain rfl := Option.some.inj (hs.symm.trans hs')
    omega
  · have := hafter hv
    omega

/-- **The first that is wanted is the one that starts first**, if only what has tokens is wanted. -/
theorem Orderly.find?_outermost_eq_some_iff (h : t.Orderly)
    (hwanted : ∀ w, wanted w = true → ∃ s', w.span = some s') (hs : u.span = some s) :
    (t.outermost test).find? wanted = some u ↔
      u ∈ t.outermost test ∧ wanted u = true ∧
        ∀ w ∈ t.outermost test, wanted w = true → ∀ s', w.span = some s' → s.start ≤ s'.start := by
  constructor
  · intro hfind
    have hu := List.mem_of_find?_eq_some hfind
    obtain ⟨hu', before, after, hsplit, hbefore⟩ := List.find?_eq_some_iff_append.mp hfind
    refine ⟨hu, hu', fun w hw hw' s' hs' => ?_⟩
    have hcovers := (h.of_mem_outermost hu).start_le_stop hs
    rw [hsplit, List.mem_append, List.mem_cons] at hw
    rcases hw with hw | rfl | hw
    · have hnot := hbefore w hw
      rw [hw'] at hnot
      contradiction
    · obtain rfl := Option.some.inj (hs.symm.trans hs')
      exact Nat.le_refl _
    · have := (h.split_outermost hsplit hs hs').2 hw
      omega
  · rintro ⟨hu, hu', hfirst⟩
    obtain ⟨before, after, hsplit⟩ := List.append_of_mem hu
    refine List.find?_eq_some_iff_append.mpr ⟨hu', before, after, hsplit, fun w hw => ?_⟩
    rw [Bool.not_eq_true', ← Bool.not_eq_true]
    intro hw'
    have hmem : w ∈ t.outermost test := hsplit ▸ List.mem_append_left _ hw
    obtain ⟨s', hs'⟩ := hwanted w hw'
    have hcovers := (h.of_mem_outermost hmem).start_le_stop hs'
    have hlt := (h.split_outermost hsplit hs hs').1 hw
    have hle := hfirst w hmem hw' s' hs'
    omega

/-! ### A production or a kind of token -/

section RuleOrKind

variable {r : RuleId} {k : TokenKind}

/-- Whether the node is a production of `r` or a token of kind `k`. -/
def isRuleOrKind (r : RuleId) (k : TokenKind) (t : Tree) : Bool := t.isRule r || t.isKind k

theorem isRuleOrKind_iff :
    t.isRuleOrKind r k = true ↔ t.isRule r = true ∨ ∃ n x, t = leaf n x ∧ x.kind = k := by
  cases t with
  | leaf n x => simp [isRuleOrKind, isRule, isKind]
  | node n rule s cs => simp [isRuleOrKind, isKind]

theorem isRuleOrKind_of_isRule (h : t.isRule r = true) : t.isRuleOrKind r k = true :=
  isRuleOrKind_iff.mpr (.inl h)

/-- What has something beneath it is no token. -/
theorem isRule_of_isRuleOrKind (h : t.isRuleOrKind r k = true) (hu : u ∈ t.descendants) :
    t.isRule r = true := by
  rcases isRuleOrKind_iff.mp h with hrule | ⟨n, x, rfl, -⟩
  · exact hrule
  · simp [descendants_eq_flatMap, children] at hu

/-- Tokens stand above nothing, so it does not matter to productions whether they are looked for. -/
theorem Numbered.mem_outermost_isRuleOrKind (h : t.Numbered) (hu : u.isRule r = true) :
    u ∈ t.outermost (isRuleOrKind r k) ↔ u ∈ t.outermost (·.isRule r) := by
  rw [h.mem_outermost, h.mem_outermost]
  refine and_congr_right fun _ => ⟨fun hout => ⟨hu, fun v hv hrule huv => ?_⟩,
    fun hout => ⟨isRuleOrKind_of_isRule hu, fun v hv htest huv => ?_⟩⟩
  · exact hout.2 v hv (isRuleOrKind_of_isRule hrule) huv
  · exact hout.2 v hv (isRule_of_isRuleOrKind htest huv) huv

/-- A production lies in an outermost one. -/
theorem Numbered.exists_outermost_isRule (h : t.Numbered) (k : TokenKind)
    (hu : u ∈ t.descendants) (hrule : u.isRule r = true) :
    ∃ v ∈ t.outermost (isRuleOrKind r k), v.isRule r = true ∧ u ∈ v.nodes := by
  obtain ⟨v, hv, huv⟩ := h.exists_outermost hu (isRuleOrKind_of_isRule (k := k) hrule)
  refine ⟨v, hv, ?_, huv⟩
  rcases List.mem_cons.mp huv with rfl | huv
  · exact hrule
  · exact isRule_of_isRuleOrKind (h.test_of_mem_outermost hv) huv

/-- A production with a span lies in an outermost one, which reaches at least as far. -/
theorem Orderly.exists_outermost_isRule (h : t.Orderly) (k : TokenKind) (hu : u ∈ t.descendants)
    (hrule : u.isRule r = true) (hs : u.span = some s) :
    ∃ v ∈ t.outermost (isRuleOrKind r k), v.isRule r = true ∧
      ∃ s', v.span = some s' ∧ s'.start ≤ s.start ∧ s.stop ≤ s'.stop := by
  obtain ⟨v, hv, hv', huv⟩ := h.numbered.exists_outermost_isRule k hu hrule
  exact ⟨v, hv, hv', (h.of_mem_outermost hv).within huv hs⟩

/-- A token of the kind is outermost itself, or it lies in an outermost production. -/
theorem Numbered.exists_outermost_of_mem_tokens (h : t.Numbered) (r : RuleId)
    (ht : t.isLeaf = false) (hx : x ∈ t.tokens) (hkind : x.kind = k) :
    ∃ v ∈ t.outermost (isRuleOrKind r k), x ∈ v.tokens ∧
      (v.isRule r = true ∨ ∃ n, v = leaf n x) := by
  obtain ⟨n, hn⟩ := exists_leaf_of_mem_tokens hx
  have hbeneath : leaf n x ∈ t.descendants := by
    rcases List.mem_cons.mp hn with rfl | hn
    · contradiction
    · exact hn
  have htest : (leaf n x).isRuleOrKind r k = true := isRuleOrKind_iff.mpr (.inr ⟨n, x, rfl, hkind⟩)
  obtain ⟨v, hv, hxv⟩ := h.exists_outermost hbeneath htest
  refine ⟨v, hv, mem_tokens_of_mem_nodes hxv, ?_⟩
  rcases List.mem_cons.mp hxv with rfl | hxv
  · exact .inr ⟨n, rfl⟩
  · exact .inl (isRule_of_isRuleOrKind (h.test_of_mem_outermost hv) hxv)

end RuleOrKind

end Tree

theorem Parse.orderly {source : String} {events : List Event} {p : Parse}
    (h : Parse.ofEvents source events = .ok p) {t : Tree} (ht : t ∈ p.root.nodes) : t.Orderly :=
  have hp := Parse.sound_of_ofEvents h
  ⟨(Parse.numbered_root h).of_mem ht, hp.spanned.of_mem ht, hp.inSequence ht⟩

/-! ### What a scan is offered -/

namespace Scan

variable {σ : Type} {scan : Scan} {origin : RuleId} {answer : σ → Hit → Option Category × σ}

theorem hit?_of_isRule {r : RuleId} {k : TokenKind} {reversed firstOnly : Bool} {t : Tree}
    (h : t.isRule r = true) :
    (Scan.mk [r] (some k) reversed firstOnly).hit? t = some (.production t) := by
  cases t with
  | leaf n x => contradiction
  | node n rule s cs =>
    obtain rfl : rule = r := by simpa [Tree.isRule] using h
    simp [hit?]

theorem hit?_of_kind {r : RuleId} {k : TokenKind} {reversed firstOnly : Bool} {n : Nat} {x : Token}
    (h : x.kind = k) :
    (Scan.mk [r] (some k) reversed firstOnly).hit? (.leaf n x) = some (.terminal (.leaf n x)) := by
  simp [hit?, h]

theorem matchesTree_eq_isRuleOrKind (r : RuleId) (k : TokenKind) (reversed firstOnly : Bool) :
    (Scan.mk [r] (some k) reversed firstOnly).matchesTree = Tree.isRuleOrKind r k := by
  funext t
  cases t with
  | leaf n x =>
    by_cases h : k = x.kind
    · simp [matchesTree, hit?, Tree.isRuleOrKind, Tree.isRule, Tree.isKind, h]
    · simp [matchesTree, hit?, Tree.isRuleOrKind, Tree.isRule, Tree.isKind, h, Ne.symm h]
  | node n rule s cs =>
    by_cases h : rule = r
    · simp [matchesTree, hit?, Tree.isRuleOrKind, Tree.isRule, Tree.isKind, h]
    · simp [matchesTree, hit?, Tree.isRuleOrKind, Tree.isRule, Tree.isKind, h]

/-- The answer function declines tokens only. -/
def DeclinesTokensOnly (answer : σ → Hit → Option Category × σ) : Prop :=
  ∀ state t, (answer state (.production t)).1 ≠ none

theorem children_of_declined (h : DeclinesTokensOnly answer) {t : Tree} {hit : Hit} {state : σ}
    (hhit : scan.hit? t = some hit) (hanswer : (answer state hit).1 = none) : t.children = [] := by
  cases t with
  | leaf n x => rfl
  | node n r s cs =>
    simp only [hit?, Option.ite_none_right_eq_some] at hhit
    obtain rfl := Option.some.inj hhit.2
    exact absurd hanswer (h state _)

/-- A search that declines tokens only comes to the topmost matches, one after the other. The
induction is on the search, and each of its steps on a match is a step of the other search, too. -/
theorem search_eq_search_topmost (hforward : scan.reversed = false)
    (hdeclines : DeclinesTokensOnly answer) (pending : List Tree) (state : σ)
    (made : List Override) :
    scan.search origin answer pending state made
      = scan.search origin answer (pending.flatMap (Tree.topmost scan.matchesTree)) state made := by
  have hinOrder : ∀ ts, scan.inOrder ts = ts := fun ts => by simp [inOrder, hforward]
  fun_induction search scan origin answer pending state made with
  | case1 state made => rw [List.flatMap_nil, search]
  | case2 t rest state made hhit ih =>
    rw [ih, hinOrder, List.flatMap_append, List.flatMap_cons,
      Tree.topmost_of_neg (by simp [matchesTree, hhit])]
  | case3 t rest state made hit hhit state' hanswer ih =>
    have hleaf := children_of_declined hdeclines hhit (by rw [hanswer])
    rw [hinOrder, hleaf, List.nil_append] at ih
    rw [hinOrder, hleaf, List.nil_append, ih, List.flatMap_cons, topmost_of_hit? hhit,
      List.singleton_append, search]
    simp only [hhit, hanswer]
    rw [hinOrder, hleaf, List.nil_append]
  | case4 t rest state made hit hhit category state' hanswer hmark ih =>
    rw [ih, List.flatMap_cons, topmost_of_hit? hhit, List.singleton_append, search]
    simp only [hhit, hanswer, hmark]
  | case5 t rest state made hit hhit category state' hanswer mark hmark hfirst =>
    rw [List.flatMap_cons, topmost_of_hit? hhit, List.singleton_append, search]
    simp only [hhit, hanswer, hmark, hfirst, if_true]
  | case6 t rest state made hit hhit category state' hanswer mark hmark hfirst ih =>
    rw [ih, List.flatMap_cons, topmost_of_hit? hhit, List.singleton_append, search]
    simp only [hhit, hanswer, hmark, hfirst]
    rfl

/-- **A scan is offered the outermost matches**, from left to right, if it declines tokens only. -/
theorem run_eq_search_outermost {t : Tree} (h : t.Numbered) (hforward : scan.reversed = false)
    (hdeclines : DeclinesTokensOnly answer) (state : σ) :
    scan.run origin answer state t
      = scan.search origin answer (t.outermost scan.matchesTree) state [] := by
  rw [run, search_eq_search_topmost hforward hdeclines, inOrder, hforward,
    ← h.flatMap_topmost_eq_outermost]
  rfl

/-- A match that leaves no mark, and the state of the answer function behind it: it is declined and
has nothing beneath it, or it is accepted and has no tokens. -/
def Passes (scan : Scan) (answer : σ → Hit → Option Category × σ) (t : Tree) (state state' : σ) :
    Prop :=
  ∃ hit, scan.hit? t = some hit ∧
    (answer state hit = (none, state') ∧ t.children = [] ∨
      ∃ category, answer state hit = (some category, state') ∧ t.span = none)

theorem search_cons_of_passes {t : Tree} {state state' : σ} (h : scan.Passes answer t state state')
    (rest : List Tree) (made : List Override) :
    scan.search origin answer (t :: rest) state made
      = scan.search origin answer rest state' made := by
  obtain ⟨hit, hhit, ⟨hanswer, hleaf⟩ | ⟨category, hanswer, hspan⟩⟩ := h
  · rw [search]
    simp only [hhit, hanswer, hleaf]
    simp [inOrder]
  · rw [search]
    simp only [hhit, hanswer, Override.ofTree?, hspan, Option.map_none]

/-- Matches that leave no mark change nothing but the state of the answer function. -/
theorem search_append_of_passes (next : σ → Tree → σ) {before : List Tree}
    (h : ∀ t ∈ before, ∀ state, scan.Passes answer t state (next state t)) (rest : List Tree)
    (state : σ) (made : List Override) :
    scan.search origin answer (before ++ rest) state made
      = scan.search origin answer rest (before.foldl next state) made := by
  induction before generalizing state with
  | nil => rfl
  | cons t before ih =>
    rw [List.forall_mem_cons] at h
    rw [List.cons_append, search_cons_of_passes (h.1 state), ih h.2, List.foldl_cons]

/-- A scan for the first match ends with the first mark it makes. -/
theorem search_cons_of_marked (hfirst : scan.firstOnly = true) {t : Tree} {hit : Hit} {span : Span}
    {category : Category} {state : σ} (hhit : scan.hit? t = some hit)
    (hanswer : (answer state hit).1 = some category) (hspan : t.span = some span)
    (rest : List Tree) (made : List Override) :
    (scan.search origin answer (t :: rest) state made).1
      = made.reverse ++ [⟨span, category, origin⟩] := by
  have hanswer : answer state hit = (some category, (answer state hit).2) := by rw [← hanswer]
  rw [search]
  simp only [hhit]
  rw [hanswer]
  simp [Override.ofTree?, hspan, hfirst]

end Scan

end Highlighting

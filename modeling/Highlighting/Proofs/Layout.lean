import Highlighting.Proofs.Classification
import Highlighting.Proofs.Relocation

/-!
# Layout and comments do not matter

Two files that differ only in blanks, in comments and in the way the parser reports where tokens
stand get the same categories, token by token. Nothing in the program says so in one place.
Overrides are found by offset, and every offset may differ between the two files.

The events of the two files agree once hidden tokens are dropped and places forgotten
(`Event.bare?`). Then their trees agree up to offsets, so one is the other with its tokens moved
(`Parse.exists_move`); a moved tree gets the moved overrides; and since no two tokens start at the
same offset, in either file, looking up a moved token finds the override of the token itself.

## Main definitions

* `Event.bare?`: what an event says apart from layout
* `Token.word`: what a token is apart from its place

## Main results

* `Parse.exists_move`: events that agree apart from layout make trees that agree apart from offsets
* `Engine.get?_walk_move`: a moved token has the moved override
* `visibleCategories_eq_of_bare`: layout and comments do not change the category of a visible token
-/

namespace Highlighting

/-! ### Forgetting the layout -/

/-- What is reported of a token apart from its place. -/
def Lexeme.bare (l : Lexeme) : Lexeme := { l with place := none }

/-- What an event says apart from layout: nothing about hidden tokens, and of a visible token its
kind and text alone. -/
def Event.bare? : Event → Option Event
  | .enter r => some (.enter r)
  | .token l => some (.token l.bare)
  | .hidden _ => none
  | .leave => some .leave

/-- What a token is apart from its place. -/
def Token.word (t : Token) : Lexeme := ⟨t.kind, t.text, none⟩

theorem Lexeme.Reports.word_eq {l : Lexeme} {t : Token} (h : l.Reports t) : t.word = l.bare := by
  rw [Token.word, Lexeme.bare, h.kind_eq, h.text_eq]

namespace Parse

theorem map_bare_script (opened : List (Nat × RuleId)) (next : Nat) (events : List Event) :
    (script opened next events).map (Cue.map Lexeme.bare)
      = script opened next (events.filterMap Event.bare?) := by
  fun_induction script opened next events with
  | case1 => rfl
  | case2 opened next r events ih => simp [Event.bare?, script, Cue.map, ih]
  | case3 opened next l events ih => simp [Event.bare?, script, Cue.map, ih]
  | case4 opened next l events ih => rw [List.filterMap_cons_none rfl, ih]
  | case5 n r opened next events ih => simp [Event.bare?, script, Cue.map, ih]
  | case6 next events ih => simpa [Event.bare?, script] using ih

/-- The words of a tree, with its productions around them, are those of the bare events. -/
theorem map_word_cues {source : String} {events : List Event} {p : Parse}
    (h : ofEvents source events = .ok p) :
    p.root.cues.map (Cue.map Token.word) = script [] 0 (events.filterMap Event.bare?) := by
  rw [← map_bare_script]
  refine (performs_of_ofEvents h).map_eq fun hmatches => hmatches.map_eq fun t l hreports => ?_
  exact Lexeme.Reports.word_eq hreports

end Parse

/-! ### From one layout to another -/

/-- Values for the members of a list without repetitions are the values of a function. -/
theorem exists_map_eq {xs ys : List Nat} (hxs : xs.Nodup) (hlen : xs.length = ys.length) :
    ∃ g : Nat → Nat, xs.map g = ys := by
  refine ⟨fun x => ys.getD (xs.idxOf x) 0, List.ext_getElem (by simpa using hlen) ?_⟩
  intro n hn hn'
  simp [hxs.idxOf_getElem, hn']

namespace Token

theorem move_eq {f : Relocation} {x y : Token} (hword : x.word = y.word)
    (hstart : f.start x.span.start = y.span.start) (hstop : f.stop x.span.stop = y.span.stop) :
    x.move f = y := by
  obtain ⟨kind, ⟨start, stop⟩, text⟩ := x
  obtain ⟨kind', ⟨start', stop'⟩, text'⟩ := y
  simp_all [word, move, Span.move]

theorem map_move_eq {f : Relocation} {xs ys : List Token} (hword : xs.map word = ys.map word)
    (hstart : (xs.map (·.span.start)).map f.start = ys.map (·.span.start))
    (hstop : (xs.map (·.span.stop)).map f.stop = ys.map (·.span.stop)) :
    xs.map (move f) = ys := by
  induction xs generalizing ys with
  | nil => exact (List.map_eq_nil_iff.mp hword.symm).symm
  | cons x xs ih =>
    cases ys with
    | nil => contradiction
    | cons y ys =>
      obtain ⟨hxy, hword⟩ := List.cons.inj hword
      obtain ⟨hxy', hstart⟩ := List.cons.inj hstart
      obtain ⟨hxy'', hstop⟩ := List.cons.inj hstop
      rw [List.map_cons, move_eq hxy hxy' hxy'', ih hword hstart hstop]

/-- Lists of tokens with the same words are moved into each other, if the places of the first one
can be told apart. -/
theorem exists_map_move_eq {xs ys : List Token} (hword : xs.map word = ys.map word)
    (hstart : (xs.map (·.span.start)).Nodup) (hstop : (xs.map (·.span.stop)).Nodup) :
    ∃ f : Relocation, xs.map (move f) = ys := by
  have hlen : xs.length = ys.length := by
    simpa using congrArg List.length hword
  have hlen' : ∀ g : Token → Nat, (xs.map g).length = (ys.map g).length := by
    simpa using hlen
  obtain ⟨start, hs⟩ := exists_map_eq hstart (hlen' (·.span.start))
  obtain ⟨stop, hs'⟩ := exists_map_eq hstop (hlen' (·.span.stop))
  exact ⟨⟨start, stop⟩, map_move_eq hword hs hs'⟩

end Token

namespace Cue

variable {α β : Type}

theorem filterMap_visited?_map (g : α → β) (xs : List (Cue α)) :
    (xs.map (map g)).filterMap visited? = (xs.filterMap visited?).map g := by
  rw [List.filterMap_map, List.map_filterMap]
  refine List.filterMap_congr fun x _ => ?_
  cases x <;> rfl

/-- Cues that agree but for the tokens agree altogether if the tokens do. -/
theorem map_eq_of_visited? {word : α → β} {g : α → α} {xs ys : List (Cue α)}
    (hword : xs.map (map word) = ys.map (map word))
    (hvisited : (xs.filterMap visited?).map g = ys.filterMap visited?) : xs.map (map g) = ys := by
  induction xs generalizing ys with
  | nil => exact (List.map_eq_nil_iff.mp hword.symm).symm
  | cons x xs ih =>
    cases ys with
    | nil => contradiction
    | cons y ys =>
      obtain ⟨hxy, hrest⟩ := List.cons.inj hword
      rw [List.map_cons]
      cases x with
      | enter n r =>
        cases y with
        | enter m r' =>
          obtain ⟨rfl, rfl⟩ := enter.inj hxy
          rw [ih hrest hvisited, map]
        | visit m b => contradiction
        | leave m r' => contradiction
      | visit n a =>
        cases y with
        | enter m r => contradiction
        | visit m b =>
          obtain ⟨hg, hvisited⟩ := List.cons.inj hvisited
          rw [ih hrest hvisited, map, hg, (visit.inj hxy).1]
        | leave m r => contradiction
      | leave n r =>
        cases y with
        | enter m r' => contradiction
        | visit m b => contradiction
        | leave m r' =>
          obtain ⟨rfl, rfl⟩ := leave.inj hxy
          rw [ih hrest hvisited, map]

end Cue

namespace Parse

/-- **Events that agree apart from layout make trees that agree apart from offsets.** -/
theorem exists_move {source source' : String} {events events' : List Event} {p q : Parse}
    (hp : ofEvents source events = .ok p) (hq : ofEvents source' events' = .ok q)
    (h : events.filterMap Event.bare? = events'.filterMap Event.bare?) :
    ∃ f : Relocation, p.root.move f = q.root := by
  have hp' := sound_of_ofEvents hp
  have hq' := sound_of_ofEvents hq
  have hcues : p.root.cues.map (Cue.map Token.word) = q.root.cues.map (Cue.map Token.word) := by
    rw [map_word_cues hp, map_word_cues hq, h]
  have htokens : p.root.tokens.map Token.word = q.root.tokens.map Token.word := by
    rw [← Tree.filterMap_visited?_cues, ← Tree.filterMap_visited?_cues,
      ← Cue.filterMap_visited?_map, ← Cue.filterMap_visited?_map, hcues]
  obtain ⟨f, hf⟩ := Token.exists_map_move_eq htokens (hp'.nodup_map_tokens hp'.nodup_starts)
    (hp'.nodup_map_tokens hp'.nodup_stops)
  refine ⟨f, Tree.cues_injective (hp'.spanned.move f) hq'.spanned ?_⟩
  rw [Tree.cues_move]
  refine Cue.map_eq_of_visited? hcues ?_
  rw [Tree.filterMap_visited?_cues, Tree.filterMap_visited?_cues]
  exact hf

end Parse

/-! ### Overrides of a moved tree -/

/-- A moved offset has the moved mark, if no other mark is moved there. -/
theorem lastAt_map_move {f : Relocation} {offset : Nat} {os : List Override}
    (h : ∀ o ∈ os, f.start o.span.start = f.start offset → o.span.start = offset) :
    lastAt (f.start offset) (os.map (·.move f)) = (lastAt offset os).map (·.move f) := by
  induction os with
  | nil => rfl
  | cons o os ih =>
    obtain ⟨ho, hos⟩ := List.forall_mem_cons.mp h
    have hiff : (o.move f).span.start = f.start offset ↔ o.span.start = offset :=
      ⟨ho, congrArg f.start⟩
    rw [List.map_cons, lastAt_cons, lastAt_cons, ih hos]
    simp only [hiff]
    split_ifs <;> cases lastAt offset os <;> rfl

/-- **A moved token has the moved override.** -/
theorem Engine.get?_walk_move (language : Language) (pending pending' : OverrideSet)
    {f : Relocation} {t : Tree} (ht : t.Spanned) (hmoved : (t.move f).Distinct) {x : Token}
    (hx : x ∈ t.tokens) :
    (Engine.walk ⟨language.catalog, pending'⟩ (t.move f)).1.get? (f.start x.span.start)
      = ((Engine.walk ⟨language.catalog, pending⟩ t).1.get? x.span.start).map (·.move f) := by
  have hsite : Site.ofRoot (t.move f) = (Site.ofRoot t).move f := rfl
  have hinj : ∀ y ∈ t.tokens, f.start y.span.start = f.start x.span.start → y = x := by
    intro y hy hstart
    rw [Tree.Distinct, Tree.tokens_move, List.map_map] at hmoved
    exact List.inj_on_of_nodup_map hmoved hy hx hstart
  rw [get?_walk, get?_walk, hsite, Site.departures_move, List.flatMap_map]
  simp only [language.marks_move]
  rw [← List.map_flatMap, lastAt_map_move]
  intro o ho hstart
  obtain ⟨n, hn, ho⟩ := List.mem_flatMap.mp ho
  obtain ⟨y, hy, hyo⟩ := Site.startsAt_of_mem_marks language.marksBeneath ht hn ho
  rw [← hyo] at hstart ⊢
  rw [hinj y hy hstart]

/-- A moved token has the category of the token. -/
theorem Highlighter.categoryOf_move (language : Language) (mode : Mode)
    (pending pending' : OverrideSet) {f : Relocation} {p q : Parse} (hpq : p.root.move f = q.root)
    (hp : p.root.Spanned) (hq : q.root.Distinct) {t : StreamToken} (ht : t.token ∈ p.root.tokens) :
    categoryOf ⟨language, mode, ⟨language.catalog, pending'⟩⟩ q (t.move f)
      = categoryOf ⟨language, mode, ⟨language.catalog, pending⟩⟩ p t := by
  rw [← hpq] at hq
  have hget := Engine.get?_walk_move language pending pending' hp hq ht
  rw [categoryOf, categoryOf, ← hpq]
  change Option.elim (OverrideSet.get? _ (f.start t.token.span.start)) _ _ = _
  rw [hget, Option.elim_map]
  rfl

/-- **Layout and comments do not matter.** Take two lists of events that become the same when hidden
tokens are dropped and places forgotten. If both make a parse, each of a source of its own, then the
visible tokens of the two parses, in order, get the same categories, in every language and mode. -/
theorem visibleCategories_eq_of_bare (language : Language) (mode : Mode)
    (pending pending' : OverrideSet) {source source' : String} {events events' : List Event}
    {p q : Parse} (hp : Parse.ofEvents source events = .ok p)
    (hq : Parse.ofEvents source' events' = .ok q)
    (h : events.filterMap Event.bare? = events'.filterMap Event.bare?) :
    let highlighter : Highlighter := ⟨language, mode, ⟨language.catalog, pending⟩⟩
    let highlighter' : Highlighter := ⟨language, mode, ⟨language.catalog, pending'⟩⟩
    highlighter.visibleCategories p = highlighter'.visibleCategories q ∧
      (highlighter.visibleCategories p).length = p.root.tokens.length := by
  intro highlighter highlighter'
  have hp' := Parse.sound_of_ofEvents hp
  have hq' := Parse.sound_of_ofEvents hq
  obtain ⟨f, hf⟩ := Parse.exists_move hp hq h
  have htokens : ∀ t ∈ p.root.visible none, t.token ∈ p.root.tokens := by
    intro t ht
    rw [← p.root.map_token_visible none]
    exact List.mem_map_of_mem ht
  have hcategories := highlighter.visibleCategories_eq hp'
  refine ⟨?_, ?_⟩
  · calc highlighter.visibleCategories p
        = (p.root.visible none).map (highlighter.categoryOf p) := hcategories
      _ = ((p.root.visible none).map (·.move f)).map (highlighter'.categoryOf q) := by
        rw [List.map_map]
        refine List.map_congr_left fun t ht => ?_
        exact (Highlighter.categoryOf_move language mode pending pending' hf hp'.spanned
          hq'.distinct (htokens t ht)).symm
      _ = highlighter'.visibleCategories q := by
        rw [← Tree.visible_move, hf, highlighter'.visibleCategories_eq hq']
  · rw [hcategories, ← p.root.map_token_visible none, List.length_map, List.length_map]

/-- The theorem at a class head on one line, and the same with a comment, a line break and a place
for the name. -/
theorem visibleCategories_eq_of_bare_classDefinition :
    ∃ p q, Parse.ofEvents "class A"
        [.enter CSharp.Rule.classDefinition, .token ⟨1, "class", none⟩,
          .enter CSharp.Rule.identifier, .token ⟨2, "A", none⟩, .leave, .leave] = .ok p ∧
      Parse.ofEvents "//x\nclass\n  A"
        [.enter CSharp.Rule.classDefinition, .hidden ⟨3, "//x", none⟩, .token ⟨1, "class", none⟩,
          .enter CSharp.Rule.identifier, .token ⟨2, "A", some ⟨12, 12⟩⟩, .leave, .leave] = .ok q ∧
      (Highlighter.ofLanguage .csharp).visibleCategories p
        = (Highlighter.ofLanguage .csharp).visibleCategories q ∧
      ((Highlighter.ofLanguage .csharp).visibleCategories p).length = 2 := by
  obtain ⟨p, hp⟩ : ∃ p, Parse.ofEvents "class A"
      [.enter CSharp.Rule.classDefinition, .token ⟨1, "class", none⟩,
        .enter CSharp.Rule.identifier, .token ⟨2, "A", none⟩, .leave, .leave] = .ok p :=
    ⟨_, (Parse.ofEvents_eq_replay _ _).trans rfl⟩
  obtain ⟨q, hq⟩ : ∃ q, Parse.ofEvents "//x\nclass\n  A"
      [.enter CSharp.Rule.classDefinition, .hidden ⟨3, "//x", none⟩, .token ⟨1, "class", none⟩,
        .enter CSharp.Rule.identifier, .token ⟨2, "A", some ⟨12, 12⟩⟩, .leave, .leave] = .ok q :=
    ⟨_, (Parse.ofEvents_eq_replay _ _).trans rfl⟩
  obtain ⟨hsame, hlength⟩ := visibleCategories_eq_of_bare .csharp .preprocessing ∅ ∅ hp hq rfl
  have hroot : p.root = .node 0 CSharp.Rule.classDefinition (some ⟨0, 6⟩)
      [.leaf 1 ⟨1, ⟨0, 4⟩, "class"⟩, .node 2 CSharp.Rule.identifier (some ⟨6, 6⟩)
        [.leaf 3 ⟨2, ⟨6, 6⟩, "A"⟩]] := by
    rw [Parse.ofEvents_eq_replay] at hp
    obtain rfl := Except.ok.inj hp
    rfl
  refine ⟨p, q, hp, hq, hsame, hlength.trans ?_⟩
  rw [hroot]
  simp

end Highlighting

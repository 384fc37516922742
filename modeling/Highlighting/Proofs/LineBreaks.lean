import Mathlib.Data.List.Basic
import Highlighting.Oracle.Survey

/-!
# The three ends of a line

A line ends with a line feed, with a carriage return, or with the two together, and which of them a
file uses should not show in the number of its lines. The count takes one character or two at a
time, so what it has counted by some position depends on how the text before it was cut. In
`\r\r\n\n\r` the second return belongs to the feed behind it and the first does not.

What is counted can be said without cutting the text. Every feed and every return ends a line,
except that a return right before a feed leaves it to the feed: `Oracle.lineCount_add_pairCount`.
Positions are counted there, and positions do not depend on one another, so the two other laws are
arithmetic. A text whose pairs and then returns are rewritten as feeds has as many feeds as the text
had ends of lines, and a text that is cut in two loses a pair only where the cut goes through one.

## Main definitions

* `Oracle.pairCount`: at how many positions a return is followed by a feed
* `Oracle.replaceAll`: a text with every occurrence of another one replaced
* `Oracle.feedsOnly`: a text with a line feed at the end of every line

## Main results

* `Oracle.lineCount_add_pairCount`: the number of lines by characters and pairs
* `Oracle.line_ends_count_alike`: the three ends of a line count alike
-/

namespace Highlighting

namespace Oracle

/-! ### Pairs -/

/-- The number of positions at which a carriage return is followed by a line feed. -/
def pairCount (cs : List Char) : Nat :=
  (List.range cs.length).countP fun i => cs[i]? = some '\r' ∧ cs[i + 1]? = some '\n'

@[simp] theorem pairCount_nil : pairCount [] = 0 := rfl

theorem pairCount_cons (c : Char) (cs : List Char) :
    pairCount (c :: cs) = pairCount cs + if c = '\r' ∧ cs.head? = some '\n' then 1 else 0 := by
  rw [pairCount, List.length_cons, List.range_succ_eq_map, List.countP_cons, List.countP_map]
  simp [pairCount, Function.comp_def, List.head?_eq_getElem?]

theorem pairCount_cons_of_ne {c : Char} (h : c ≠ '\r') (cs : List Char) :
    pairCount (c :: cs) = pairCount cs := by
  rw [pairCount_cons, if_neg fun hpair => h hpair.1, Nat.add_zero]

/-- Only a cut between a return and a feed loses a pair. -/
theorem pairCount_append (a b : List Char) :
    pairCount (a ++ b) = pairCount a + pairCount b
      + if a.getLast? = some '\r' ∧ b.head? = some '\n' then 1 else 0 := by
  induction a with
  | nil => simp
  | cons c a ih =>
    rw [List.cons_append, pairCount_cons, ih, pairCount_cons]
    cases a with
    | nil => simp
    | cons d a =>
      rw [List.cons_append, List.head?_cons, List.head?_cons, List.getLast?_cons_cons]
      omega

theorem pairCount_eq_zero {cs : List Char} (h : '\r' ∉ cs) : pairCount cs = 0 := by
  rw [pairCount, List.countP_eq_zero]
  intro i _ hpair
  exact h (List.mem_of_getElem? (of_decide_eq_true hpair).1)

/-- A pair counts as a feed, as a return and as a pair. -/
theorem counts_of_pair (cs : List Char) :
    ('\r' :: '\n' :: cs).count '\n' = cs.count '\n' + 1 ∧
      ('\r' :: '\n' :: cs).count '\r' = cs.count '\r' + 1 ∧
      pairCount ('\r' :: '\n' :: cs) = pairCount cs + 1 := by
  refine ⟨?_, ?_, ?_⟩
  · rw [List.count_cons_of_ne (by decide), List.count_cons_self]
  · rw [List.count_cons_self, List.count_cons_of_ne (by decide)]
  · rw [pairCount_cons, if_pos ⟨rfl, rfl⟩, pairCount_cons_of_ne (by decide)]

/-- At any other position no pair begins. -/
theorem pairCount_cons_of_not {c : Char} {cs : List Char}
    (h : ∀ rest, c = '\r' → cs = '\n' :: rest → False) :
    pairCount (c :: cs) = pairCount cs := by
  rw [pairCount_cons, if_neg, Nat.add_zero]
  rintro ⟨hreturn, hhead⟩
  obtain ⟨rest, hrest⟩ := List.head?_eq_some_iff.mp hhead
  exact h rest hreturn hrest

/-! ### Counting by characters -/

/-- Whatever the count starts from, it grows by the feeds and the returns, and a return that is
followed by a feed counts for nothing. -/
theorem breaksFrom_add_pairCount (n : Nat) (cs : List Char) :
    breaksFrom n cs + pairCount cs = n + cs.count '\n' + cs.count '\r' := by
  fun_induction breaksFrom n cs with
  | case1 n => rfl
  | case2 n cs ih =>
    obtain ⟨hfeeds, hreturns, hpairs⟩ := counts_of_pair cs
    omega
  | case3 n c cs hpair ih =>
    -- One character counts at most once, since it is not a feed and a return at the same time.
    have hends : (if c == '\n' || c == '\r' then n + 1 else n)
        = n + (if c == '\n' then 1 else 0) + (if c == '\r' then 1 else 0) := by
      by_cases hfeed : c = '\n'
      · subst hfeed
        rfl
      · by_cases hreturn : c = '\r' <;> simp [hfeed, hreturn]
    rw [pairCount_cons_of_not hpair, ih, hends, List.count_cons, List.count_cons]
    omega

/-- **The number of lines by characters.** Feeds and returns end lines, and where a return is
followed by a feed the two end one line. -/
theorem lineCount_add_pairCount (cs : List Char) :
    lineCount cs + pairCount cs = 1 + cs.count '\n' + cs.count '\r' :=
  breaksFrom_add_pairCount 1 cs

/-! ### Texts with line feeds only -/

/-- The text with every occurrence of `first :: others` replaced by `new`, from left to right. -/
def replaceAll (first : Char) (others new : List Char) : List Char → List Char
  | [] => []
  | c :: cs =>
    if c = first ∧ others <+: cs then
      new ++ replaceAll first others new (cs.drop others.length)
    else
      c :: replaceAll first others new cs
termination_by cs => cs.length
decreasing_by
  · simp only [List.length_drop, List.length_cons]
    omega
  · simp

/-- The text with every pair of a return and a feed, and then every return that is left, replaced by
a feed. -/
def feedsOnly (cs : List Char) : List Char :=
  replaceAll '\r' [] ['\n'] (replaceAll '\r' ['\n'] ['\n'] cs)

theorem replaceAll_nil_eq_map (c d : Char) (cs : List Char) :
    replaceAll c [] [d] cs = cs.map fun x => if x = c then d else x := by
  induction cs with
  | nil => rw [replaceAll, List.map_nil]
  | cons x cs ih =>
    rw [replaceAll, List.length_nil, List.drop_zero, ih, List.map_cons]
    by_cases hx : x = c <;> simp [hx]

/-- Replacing the pairs takes a return from each of them. -/
theorem count_replaceAll_pairs (cs : List Char) :
    (replaceAll '\r' ['\n'] ['\n'] cs).count '\n' = cs.count '\n' ∧
      (replaceAll '\r' ['\n'] ['\n'] cs).count '\r' + pairCount cs = cs.count '\r' := by
  fun_induction replaceAll '\r' ['\n'] ['\n'] cs with
  | case1 => exact ⟨rfl, rfl⟩
  | case2 c cs hpair ih =>
    obtain ⟨rfl, rest, rfl⟩ := hpair
    obtain ⟨hfeeds, hreturns, hpairs⟩ := counts_of_pair rest
    rw [List.singleton_append, List.length_singleton, List.drop_succ_cons, List.drop_zero] at ih
    rw [List.singleton_append, List.singleton_append, List.length_singleton, List.drop_succ_cons,
      List.drop_zero, hfeeds, hreturns, hpairs, List.count_cons_self,
      List.count_cons_of_ne (by decide)]
    omega
  | case3 c cs hpair ih =>
    have hnot : ∀ rest, c = '\r' → cs = '\n' :: rest → False := fun rest hreturn hrest =>
      hpair ⟨hreturn, rest, hrest.symm⟩
    rw [pairCount_cons_of_not hnot, List.count_cons, List.count_cons, List.count_cons,
      List.count_cons]
    omega

theorem return_not_mem_feedsOnly (cs : List Char) : '\r' ∉ feedsOnly cs := by
  rw [feedsOnly, replaceAll_nil_eq_map, List.mem_map]
  rintro ⟨x, -, hx⟩
  split_ifs at hx with hreturn
  · exact absurd hx (by decide)
  · exact hreturn hx

theorem count_map_feed (cs : List Char) :
    (cs.map fun x => if x = '\r' then '\n' else x).count '\n' = cs.count '\n' + cs.count '\r' := by
  induction cs with
  | nil => rfl
  | cons x cs ih =>
    have hx : (if (if x = '\r' then '\n' else x) == '\n' then 1 else 0)
        = (if x == '\n' then 1 else 0) + (if x == '\r' then 1 else 0) := by
      by_cases hreturn : x = '\r' <;> simp [hreturn]
    rw [List.map_cons, List.count_cons, List.count_cons, List.count_cons, ih, hx]
    omega

theorem count_feedsOnly (cs : List Char) :
    (feedsOnly cs).count '\n' + pairCount cs = cs.count '\n' + cs.count '\r' := by
  obtain ⟨hfeeds, hreturns⟩ := count_replaceAll_pairs cs
  rw [feedsOnly, replaceAll_nil_eq_map, count_map_feed, hfeeds, ← hreturns]
  omega

/-! ### The three laws -/

/-- **The three ends of a line count alike.** A text has one line more than it has feeds and
returns, where a return that is followed by a feed is not counted. It has as many lines as the same
text with feeds at the ends of all lines. And two texts that are put together have the lines of
both, where the last of the one and the first of the other become one line; if the one ends in a
return and the other begins with a feed, a line is lost beyond that. -/
theorem line_ends_count_alike :
    (∀ cs, lineCount cs + pairCount cs = 1 + cs.count '\n' + cs.count '\r') ∧
      (∀ cs, lineCount cs = lineCount (feedsOnly cs)) ∧
      ∀ a b, lineCount (a ++ b)
          + (if a.getLast? = some '\r' ∧ b.head? = some '\n' then 2 else 1)
        = lineCount a + lineCount b := by
  refine ⟨lineCount_add_pairCount, fun cs => ?_, fun a b => ?_⟩
  · have hreturns : (feedsOnly cs).count '\r' = 0 :=
      List.count_eq_zero.mpr (return_not_mem_feedsOnly cs)
    have hpairs := pairCount_eq_zero (return_not_mem_feedsOnly cs)
    have hfeeds := count_feedsOnly cs
    have hlines := lineCount_add_pairCount cs
    have hlines' := lineCount_add_pairCount (feedsOnly cs)
    omega
  · have hpairs := pairCount_append a b
    have ha := lineCount_add_pairCount a
    have hb := lineCount_add_pairCount b
    have hab := lineCount_add_pairCount (a ++ b)
    rw [List.count_append, List.count_append] at hab
    split_ifs at hpairs ⊢ <;> omega

example : lineCount "\r\r\n\n\r".toList = 5 := by decide

end Oracle

end Highlighting

import Mathlib.Algebra.Order.Field.Basic
import Mathlib.Data.Nat.Count
import Mathlib.Order.Interval.Finset.Nat
import Mathlib.Tactic.Linarith
import Highlighting.Proofs.Deficit

/-!
# A score counts the right characters

The scorer goes through the reference token by token. It adds up how many characters the tokens
cover and on how many of them the prediction agrees, and it never looks at a character that no token
covers. The score is meant as something else: the share of the characters of the source that are
right, where a character is right if the reference leaves it blank or the prediction agrees with the
reference there. `Score.Right` says this of the two rows of cells.

The two come to the same if the tokens of the reference do not overlap. This is proved one token at
a time: laying another token over the cells makes its characters, all of them right before, depend
on the prediction, and the tally changes by just as much (`Score.count_right_append`). Tokens
without a place, and tokens whose place is empty, change neither side, so they need no exception.

The condition is needed. Where two tokens overlap, their common characters are covered twice and
shown once.

## Main definitions

* `Highlight.Separate`: highlights that lie in a text and do not overlap
* `Score.Right`: the character at an offset is right

## Main results

* `Score.agreeing_eq_count`: the cells of a span that agree, counted over the whole source
* `Score.count_right_append`, `Score.sum_agreeing_add_length`: one token more, and all tokens
* `overChars_counts_right`: the tally of a prediction counts the right characters
-/

namespace Highlighting

/-- The highlights lie in a text of some length and do not overlap. Only what they cover counts: one
that has no place or an empty one is not restricted. -/
structure Highlight.Separate (hs : List Highlight) (length : Nat) : Prop where
  /-- What is covered lies in the text. -/
  inside : ∀ s ∈ spans hs, ∀ n, s.1.Covers n → n < length
  /-- Nothing is covered twice. -/
  apart : (spans hs).Pairwise fun s u => s.1.Apart u.1

theorem Span.covers_lt_iff {s : Span} {length : Nat} :
    (∀ n, s.Covers n → n < length) ↔ (s.start ≤ s.stop → s.stop < length) := by
  constructor
  · intro h hle
    exact h s.stop ⟨hle, Nat.le_refl _⟩
  · rintro h n ⟨hstart, hstop⟩
    have hlast := h (Nat.le_trans hstart hstop)
    omega

theorem Highlight.separate_iff {hs : List Highlight} {length : Nat} :
    Separate hs length ↔
      (∀ s ∈ spans hs, s.1.start ≤ s.1.stop → s.1.stop < length) ∧
        (spans hs).Pairwise fun s u => s.1.Apart u.1 := by
  constructor
  · rintro ⟨hinside, hapart⟩
    exact ⟨fun s hs => Span.covers_lt_iff.mp (hinside s hs), hapart⟩
  · rintro ⟨hinside, hapart⟩
    exact ⟨fun s hs => Span.covers_lt_iff.mpr (hinside s hs), hapart⟩

instance (hs : List Highlight) (length : Nat) : Decidable (Highlight.Separate hs length) :=
  decidable_of_iff _ Highlight.separate_iff.symm

namespace Score

/-- The character at an offset is right: the reference has no category for it, or the prediction has
one that is the same to the task. -/
def Right (task : Task) (predicted reference : Cells) (n : Nat) : Prop :=
  reference.get? n = none ∨
    (predicted.get? n).isSome ∧
      (predicted.get? n).map task.coarsen = (reference.get? n).map task.coarsen

instance (task : Task) (predicted reference : Cells) :
    DecidablePred (Right task predicted reference) :=
  fun _ => inferInstanceAs (Decidable (_ ∨ _ ∧ _))

/-! ### Counting offsets -/

/-- Counts add up alike if they do so at every offset. -/
theorem count_add_count {p q p' q' : Nat → Prop} [DecidablePred p] [DecidablePred q]
    [DecidablePred p'] [DecidablePred q'] {n : Nat}
    (h : ∀ i < n, ((if p i then 1 else 0) + if q i then 1 else 0)
      = ((if p' i then 1 else 0) + if q' i then 1 else 0 : Nat)) :
    Nat.count p n + Nat.count q n = Nat.count p' n + Nat.count q' n := by
  induction n with
  | zero => simp
  | succ n ih =>
    have ih := ih fun i hi => h i (Nat.lt_succ_of_lt hi)
    have hn := h n (Nat.lt_succ_self n)
    rw [Nat.count_succ, Nat.count_succ, Nat.count_succ, Nat.count_succ]
    omega

theorem count_congr {p q : Nat → Prop} [DecidablePred p] [DecidablePred q] {n : Nat}
    (h : ∀ i < n, p i ↔ q i) : Nat.count p n = Nat.count q n :=
  le_antisymm (Nat.count_mono_left fun i hi => (h i hi).mp)
    (Nat.count_mono_left fun i hi => (h i hi).mpr)

/-- Offsets from `m` on do not count if none of them is meant. -/
theorem count_eq_of_forall_lt {p : Nat → Prop} [DecidablePred p] {m n : Nat} (hmn : m ≤ n)
    (h : ∀ i, p i → i < m) : Nat.count p n = Nat.count p m := by
  obtain ⟨d, rfl⟩ := Nat.exists_eq_add_of_le hmn
  have hrest : Nat.count (fun i => p (m + i)) d = 0 := by
    refine Nat.count_iff_forall_not.mpr fun i _ hi => ?_
    exact absurd (h _ hi) (Nat.not_lt.mpr (Nat.le_add_right m i))
  rw [Nat.count_add, hrest, Nat.add_zero]

theorem countP_extract {α : Type} (xs : Array α) (q : α → Bool) (start stop : Nat) :
    (xs.extract start stop).countP q = Nat.count (fun i => start ≤ i ∧ xs[i]?.any q) stop := by
  induction stop with
  | zero => simp
  | succ stop ih =>
    rw [Nat.count_succ, ← ih]
    by_cases hstart : start ≤ stop
    · by_cases hsize : stop < xs.size
      · rw [Array.extract_succ_right (Nat.lt_succ_of_le hstart) hsize, Array.countP_push]
        simp [hstart, hsize]
      · have hextract : xs.extract start (stop + 1) = xs.extract start stop := by
          rw [Array.extract_eq_extract_right]
          omega
        simp [hextract, Array.getElem?_eq_none (Nat.not_lt.mp hsize)]
    · have hempty : ∀ j ≤ stop + 1, xs.extract start j = #[] := fun j hj =>
        Array.extract_eq_empty_of_le (by omega)
      simp [hempty, hstart]

/-! ### One token -/

theorem length_eq_count {s : Span} {n : Nat} (h : ∀ i, s.Covers i → i < n) :
    s.length = Nat.count s.Covers n := by
  have hfilter : (Finset.range n).filter s.Covers = Finset.Icc s.start s.stop := by
    ext i
    rw [Finset.mem_filter, Finset.mem_range, Finset.mem_Icc]
    exact ⟨And.right, fun hi => ⟨h i hi, hi⟩⟩
  rw [Nat.count_eq_card_filter_range, hfilter, Nat.card_Icc, Span.length]

/-- **The cells of a span that agree**, counted over the whole source. -/
theorem agreeing_eq_count (predicted : Cells) (task : Task) (target : Category) {s : Span} {n : Nat}
    (h : ∀ i, s.Covers i → i < n) :
    agreeing predicted task target s
      = Nat.count (fun i => s.Covers i ∧ (predicted.get? i).map task.coarsen = some target) n := by
  have hcell : ∀ i, (predicted.cells[i]?.any fun cell => cell.map task.coarsen == some target)
      ↔ (predicted.get? i).map task.coarsen = some target := by
    intro i
    rw [Cells.get?]
    cases predicted.cells[i]? <;> simp
  rw [agreeing, countP_extract]
  by_cases hempty : s.stop < s.start
  · have hzero : ∀ i, ¬ s.Covers i := by
      rintro i ⟨hstart, hstop⟩
      omega
    rw [Nat.count_iff_forall_not.mpr fun i hi hstart => by omega,
      Nat.count_iff_forall_not.mpr fun i _ hi => hzero i hi.1]
  · have hstop : s.stop < n := h s.stop ⟨Nat.not_lt.mp hempty, Nat.le_refl _⟩
    rw [count_eq_of_forall_lt hstop fun i hi => Nat.lt_succ_of_le hi.1.2]
    refine count_congr fun i hi => ?_
    rw [hcell, Span.Covers, and_iff_left (Nat.le_of_lt_succ hi)]

/-- **One token more.** Before it is laid over the cells, the characters it covers are all right;
afterwards those are right on which the prediction agrees. -/
theorem count_right_append (predicted : Cells) (task : Task) {spans : List (Span × Category)}
    {s : Span × Category} {length : Nat} (hinside : ∀ i, s.1.Covers i → i < length)
    (hapart : ∀ u ∈ spans, u.1.Apart s.1) :
    Nat.count (Right task predicted (Cells.project (spans ++ [s]) length)) length + s.1.length
      = Nat.count (Right task predicted (Cells.project spans length)) length
        + agreeing predicted task (task.coarsen s.2) s.1 := by
  rw [length_eq_count hinside, agreeing_eq_count predicted task _ hinside]
  refine count_add_count fun i hi => ?_
  simp only [Right, Cells.get?_project _ hi, lastOver_append_singleton]
  by_cases hcovers : s.1.Covers i
  · have hblank : lastOver i spans = none :=
      lastOver_eq_none_iff.mpr fun u hu hui => hapart u hu i hui hcovers
    cases predicted.get? i <;> simp [hcovers, hblank, Nat.add_comm]
  · simp [hcovers]

/-! ### All tokens -/

/-- **What is matched and what is blank make up what is right.** -/
theorem sum_agreeing_add_length (predicted : Cells) (task : Task)
    {spans : List (Span × Category)} {length : Nat}
    (hinside : ∀ s ∈ spans, ∀ i, s.1.Covers i → i < length)
    (hapart : spans.Pairwise fun s u => s.1.Apart u.1) :
    (spans.map fun s => agreeing predicted task (task.coarsen s.2) s.1).sum + length
      = (spans.map fun s => s.1.length).sum
        + Nat.count (Right task predicted (Cells.project spans length)) length := by
  induction spans using List.reverseRecOn with
  | nil =>
    have hright : ∀ i < length, Right task predicted (Cells.project [] length) i := by
      intro i hi
      rw [Right, Cells.get?_project _ hi]
      exact .inl rfl
    rw [Nat.count_of_forall fun {i} => hright i]
    rfl
  | append_singleton spans s ih =>
    obtain ⟨hspans, -, hs⟩ := List.pairwise_append.mp hapart
    have hlast := count_right_append predicted task
      (hinside s (by simp)) fun u hu => hs u hu s (List.mem_singleton_self s)
    have ih := ih (fun u hu => hinside u (List.mem_append_left _ hu)) hspans
    simp only [List.map_append, List.sum_append, List.map_singleton, List.sum_singleton]
    omega

/-- What is covered, token by token, is what shows a category. -/
theorem sum_length_eq_count {spans : List (Span × Category)} {length : Nat}
    (hinside : ∀ s ∈ spans, ∀ i, s.1.Covers i → i < length)
    (hapart : spans.Pairwise fun s u => s.1.Apart u.1) :
    (spans.map fun s => s.1.length).sum
      = Nat.count (fun i => ((Cells.project spans length).get? i).isSome) length := by
  -- A prediction without cells matches nothing, so what it gets right is what is not covered.
  have hnothing := sum_agreeing_add_length (Cells.blank 0) .full hinside hapart
  have hmatched : (spans.map fun s =>
      agreeing (Cells.blank 0) .full (Task.full.coarsen s.2) s.1).sum = 0 := by
    refine List.sum_eq_zero fun count hcount => ?_
    obtain ⟨s, -, rfl⟩ := List.mem_map.mp hcount
    simp [agreeing, Cells.blank]
  have hsplit : Nat.count (Right .full (Cells.blank 0) (Cells.project spans length)) length
      + Nat.count (fun i => ((Cells.project spans length).get? i).isSome) length
        = Nat.count (fun _ => True) length + Nat.count (fun _ => False) length := by
    refine count_add_count fun i _ => ?_
    have hget : (Cells.blank 0).get? i = none := by simp [Cells.get?, Cells.blank]
    cases hi : (Cells.project spans length).get? i <;> simp [Right, hget, hi]
  rw [Nat.count_true, Nat.count_false] at hsplit
  omega

/-- The bounds of an exact score. -/
theorem score_bounds {matched covered chars : Nat} (hmatched : matched ≤ covered)
    (hcovered : covered ≤ chars) (hchars : 0 < chars) :
    (0 : ℚ) ≤ (chars - covered) / chars ∧
      ((chars : ℚ) - covered) / chars ≤ (matched + chars - covered) / chars ∧
      ((matched : ℚ) + chars - covered) / chars ≤ 1 := by
  have hchars : (0 : ℚ) < chars := Nat.cast_pos.mpr hchars
  have hcovered : (covered : ℚ) ≤ chars := Nat.cast_le.mpr hcovered
  have hmatched : (matched : ℚ) ≤ covered := Nat.cast_le.mpr hmatched
  have hzero : (0 : ℚ) ≤ matched := Nat.cast_nonneg matched
  refine ⟨div_nonneg (by linarith) hchars.le, ?_, (div_le_one hchars).mpr (by linarith)⟩
  exact div_le_div_of_nonneg_right (by linarith) hchars.le

end Score

/-- **A score counts the right characters.** Against a reference whose tokens lie in the source and
do not overlap, as far as they have a place, any prediction gets a tally. What is covered is the
number of characters for which the reference has a category, and what is matched together with what
is not covered is the number of characters that are right. So the exact score lies between the share
of the characters that are not covered and one. -/
theorem overChars_counts_right (predicted : Cells) (task : Task) {reference : List Highlight}
    {source : String} (hsource : source ≠ "") (hreference : reference ≠ [])
    (hseparate : Highlight.Separate reference source.length) :
    let marked := Cells.project (Highlight.spans reference) source.length
    ∃ tally, Score.overChars predicted reference source task = .ok tally ∧
      tally.chars = source.length ∧
      tally.covered = Nat.count (fun n => (marked.get? n).isSome) source.length ∧
      (tally.matched : Int) + tally.chars - tally.covered
        = Nat.count (Score.Right task predicted marked) source.length ∧
      let blank : ℚ := (tally.chars - tally.covered) / tally.chars
      let score : ℚ := (tally.matched + tally.chars - tally.covered) / tally.chars
      0 ≤ blank ∧ blank ≤ score ∧ score ≤ 1 := by
  intro marked
  have htally := Score.overChars_eq hreference hsource predicted task
  have hcovered := Score.sum_length_eq_count hseparate.inside hseparate.apart
  have hright := Score.sum_agreeing_add_length predicted task hseparate.inside hseparate.apart
  generalize ((Highlight.spans reference).map fun s =>
    Score.agreeing predicted task (task.coarsen s.2) s.1).sum = matched at htally hright
  generalize ((Highlight.spans reference).map fun s => s.1.length).sum = covered
    at htally hcovered hright
  have hright : matched + source.length
      = covered + Nat.count (Score.Right task predicted marked) source.length := hright
  have hcovered_le : covered ≤ source.length := hcovered ▸ Nat.count_le _
  have hmatched_le : matched ≤ covered := by
    have hle := Nat.count_le (Score.Right task predicted marked) (n := source.length)
    omega
  have hpos : 0 < source.length := Nat.pos_of_ne_zero (mt String.length_eq_zero_iff.mp hsource)
  refine ⟨_, htally, rfl, hcovered, ?_, Score.score_bounds hmatched_le hcovered_le hpos⟩
  show (matched : Int) + source.length - covered = _
  omega

/-- The theorem at a reference out of order, with a token at the end of the file and an empty one,
and a prediction that ends early. -/
theorem overChars_counts_right_short :
    let reference : List Highlight :=
      [⟨⟨3, 3, "c", 7, none, ""⟩, .fieldIdentifier⟩, ⟨⟨-1, -1, "<EOF>", 65535, none, ""⟩, .any⟩,
        ⟨⟨2, 1, "", 7, none, ""⟩, .comment⟩, ⟨⟨0, 1, "ab", 8, none, ""⟩, .keyword⟩]
    let marked := Cells.project (Highlight.spans reference) 4
    Highlight.Separate reference "ab c".length ∧
      (List.range 4).map (fun n => decide (Score.Right .full ⟨#[some .keyword, none]⟩ marked n))
        = [true, false, true, false] ∧
      ∃ tally, Score.overChars ⟨#[some .keyword, none]⟩ reference "ab c" .full = .ok tally ∧
        (tally.matched : Int) + tally.chars - tally.covered
          = Nat.count (Score.Right .full ⟨#[some .keyword, none]⟩ marked) 4 ∧
        ((tally.matched : ℚ) + tally.chars - tally.covered) / tally.chars ≤ 1 := by
  intro reference marked
  have hseparate : Highlight.Separate reference "ab c".length := by decide
  obtain ⟨tally, hok, -, -, hright, -, -, hone⟩ :=
    overChars_counts_right ⟨#[some .keyword, none]⟩ .full (by decide) (List.cons_ne_nil _ _)
      hseparate
  exact ⟨hseparate, by decide, tally, hok, hright, hone⟩

end Highlighting

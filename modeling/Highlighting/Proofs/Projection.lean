import Mathlib.Data.List.Induction
import Mathlib.Data.List.Pairwise
import Mathlib.Tactic.SplitIfs
import Highlighting.Cells

/-!
# The cell at an offset

Spans are laid over the cells of a source one after the other, each by filling its cells in a loop.
What a cell holds in the end does not show the loops: it is the category of the last span that
covers the offset. For spans without overlap this is the only span that covers it, so the cells of a
span all hold its category, in whatever order the spans come.

## Main definitions

* `Span.Covers`: an offset lies in a span
* `Span.Apart`: two spans do not overlap
* `lastOver`: the category of the last of some spans that covers an offset

## Main results

* `Cells.project?_eq_some`: no cell is filled that is not there
* `Cells.get?_project`, `Cells.toList_cells_project`: the last span that covers an offset decides
* `Cells.get?_project_of_mem`: spans without overlap do not cover each other up
-/

namespace Highlighting

/-- The offset lies in the span. -/
def Span.Covers (s : Span) (n : Nat) : Prop := s.start ≤ n ∧ n ≤ s.stop

instance (s : Span) (n : Nat) : Decidable (s.Covers n) := inferInstanceAs (Decidable (_ ∧ _))

/-- No offset lies in both spans. -/
def Span.Apart (s u : Span) : Prop := ∀ n, s.Covers n → ¬ u.Covers n

theorem Span.apart_iff {s u : Span} :
    s.Apart u ↔ s.stop < s.start ∨ u.stop < u.start ∨ s.stop < u.start ∨ u.stop < s.start := by
  constructor
  · intro h
    by_contra hne
    -- Otherwise the later one of the two starts lies in both.
    exact h (max s.start u.start) ⟨by omega, by omega⟩ ⟨by omega, by omega⟩
  · rintro h n ⟨hs, hs'⟩ ⟨hu, hu'⟩
    omega

instance (s u : Span) : Decidable (s.Apart u) := decidable_of_iff _ Span.apart_iff.symm

theorem Span.apart_of_lt {s u : Span} (h : s.stop < u.start) : s.Apart u :=
  Span.apart_iff.mpr (.inr (.inr (.inl h)))

/-- The category of the last span that covers an offset. -/
def lastOver (n : Nat) (spans : List (Span × Category)) : Option Category :=
  (spans.findRev? fun s => s.1.Covers n).map (·.2)

theorem lastOver_append_singleton (n : Nat) (spans : List (Span × Category)) (s : Span × Category) :
    lastOver n (spans ++ [s]) = if s.1.Covers n then some s.2 else lastOver n spans := by
  unfold lastOver
  split_ifs with h <;> simp [h]

theorem lastOver_cons (n : Nat) (s : Span × Category) (spans : List (Span × Category)) :
    lastOver n (s :: spans)
      = (lastOver n spans).or (if s.1.Covers n then some s.2 else none) := by
  rw [lastOver, lastOver, List.findRev?_eq_find?_reverse, List.findRev?_eq_find?_reverse,
    List.reverse_cons, List.find?_append, Option.map_or]
  split_ifs with h <;> simp [h]

/-- Which span shows does not depend on the categories. -/
theorem lastOver_map (n : Nat) (f : Category → Category) (spans : List (Span × Category)) :
    lastOver n (spans.map fun s => (s.1, f s.2)) = (lastOver n spans).map f := by
  rw [lastOver, lastOver, List.findRev?_eq_find?_reverse, List.findRev?_eq_find?_reverse,
    ← List.map_reverse, List.find?_map, Option.map_map, Option.map_map]
  rfl

theorem lastOver_eq_none_iff {n : Nat} {spans : List (Span × Category)} :
    lastOver n spans = none ↔ ∀ s ∈ spans, ¬ s.1.Covers n := by
  simp [lastOver]

namespace Cells

/-! ### Filling and painting -/

theorem getElem?_fill (category : Category) (start count : Nat) (cells : Array (Option Category))
    (h : start + count ≤ cells.size) (n : Nat) :
    (fill category start count cells h)[n]?
      = if start ≤ n ∧ n < start + count then some (some category) else cells[n]? := by
  fun_induction fill category start count cells h with
  | case1 => rw [if_neg (by omega)]
  | case2 start cells count h ih =>
    rw [ih, Array.getElem?_set]
    by_cases hn : start = n
    · rw [if_neg (by omega), if_pos hn, if_pos (by omega)]
    · rw [if_neg hn]
      exact if_congr (by omega) rfl rfl

theorem Slice.get?_fill {x : Cells} (slice : x.Slice) (category : Category) (n : Nat) :
    (slice.fill category).get? n
      = if slice.start ≤ n ∧ n < slice.start + slice.count then some category else x.get? n := by
  rw [get?, Slice.fill]
  refine (congrArg Option.join (getElem?_fill ..)).trans ?_
  rw [apply_ite Option.join]
  rfl

theorem before?_eq_some {n m : Nat} : before? n = some m ↔ n = m + 1 := by
  cases n <;> simp [before?]

theorem slice?_eq_some {x : Cells} {start stop : Nat} {slice : x.Slice}
    (h : x.slice? start stop = some slice) :
    slice.start = start ∧ slice.count = stop + 1 - start := by
  unfold slice? at h
  split at h
  · obtain rfl := Option.some.inj h
    exact ⟨rfl, rfl⟩
  · contradiction

/-- A span gives its category to the cells that it covers. -/
theorem get?_paint? {length : Nat} {x y : Cells} {s : Span × Category} (hx : x.size = length)
    (h : paint? length x s = some y) (n : Nat) :
    y.get? n = if s.1.Covers n ∧ n < length then some s.2 else x.get? n := by
  unfold paint? at h
  split at h
  · next hguard =>
    rw [Bool.or_eq_true, decide_eq_true_eq, Span.isEmpty, beq_iff_eq, Span.length] at hguard
    obtain rfl := Option.some.inj h
    rw [if_neg (by rw [Span.Covers]; omega)]
  · obtain ⟨last, hlast, h⟩ := Option.bind_eq_some_iff.mp h
    obtain ⟨slice, hslice, h⟩ := Option.bind_eq_some_iff.mp h
    obtain rfl := Option.some.inj h
    obtain rfl := before?_eq_some.mp hlast
    obtain ⟨hstart, hcount⟩ := slice?_eq_some hslice
    rw [slice.get?_fill, hstart, hcount]
    refine if_congr ?_ rfl rfl
    rw [Span.Covers]
    omega

/-! ### Projecting -/

theorem toList_inj {x y : Cells} : x.cells.toList = y.cells.toList ↔ x = y := by
  cases x
  cases y
  rw [Cells.mk.injEq, Array.toList_inj]

/-- **No cell is filled that is not there.** -/
theorem project?_eq_some (spans : List (Span × Category)) (length : Nat) :
    project? spans length = some (project spans length) :=
  (Option.some_get _).symm

/-- One more span is laid over what the spans before it have left. -/
theorem paint?_project (spans : List (Span × Category)) (s : Span × Category) (length : Nat) :
    paint? length (project spans length) s = some (project (spans ++ [s]) length) := by
  have h := project?_eq_some (spans ++ [s]) length
  rw [project?, List.foldlM_append, ← project?, project?_eq_some] at h
  simpa using h

@[simp] theorem size_project (spans : List (Span × Category)) (length : Nat) :
    (project spans length).size = length := by
  induction spans using List.reverseRecOn with
  | nil => exact Array.size_replicate
  | append_singleton spans s ih =>
    obtain ⟨y, hy, hsize⟩ := exists_paint? ih s
    rw [paint?_project] at hy
    rwa [Option.some.inj hy]

/-- **The last span that covers an offset decides** which category the cell holds; a cell that no
span covers holds none. -/
theorem get?_project (spans : List (Span × Category)) {length n : Nat} (hn : n < length) :
    (project spans length).get? n = lastOver n spans := by
  induction spans using List.reverseRecOn with
  | nil =>
    change (blank length).get? n = none
    simp [blank, get?, hn]
  | append_singleton spans s ih =>
    rw [get?_paint? (size_project spans length) (paint?_project spans s length), ih,
      lastOver_append_singleton]
    simp [hn]

/-- The cells of a source, one after the other. -/
theorem toList_cells_project (spans : List (Span × Category)) (length : Nat) :
    (project spans length).cells.toList = (List.range length).map fun n => lastOver n spans := by
  have hsize : (project spans length).cells.size = length := size_project spans length
  refine List.ext_getElem (by simp [hsize]) fun n hn _ => ?_
  rw [Array.length_toList, hsize] at hn
  have hget := get?_project spans hn
  rw [get?, Array.getElem?_eq_getElem (by rwa [hsize]), Option.join_some] at hget
  rw [List.getElem_map, List.getElem_range, Array.getElem_toList, hget]

/-- **Spans without overlap do not cover each other up.** -/
theorem get?_project_of_mem {spans : List (Span × Category)}
    (hapart : spans.Pairwise fun x y => x.1.Apart y.1) {s : Span × Category}
    (hs : s ∈ spans) {length n : Nat} (hn : s.1.Covers n) (hlength : n < length) :
    (project spans length).get? n = some s.2 := by
  have hunique : ∀ u ∈ spans, u.1.Covers n → u = s := by
    intro u hu hun
    refine List.Pairwise.forall_of_forall_of_flip (R := fun u v : Span × Category =>
      u.1.Covers n → v.1.Covers n → u = v) (fun _ _ _ _ => rfl) ?_ ?_ hu hs hun hn
    · exact hapart.imp fun huv hu hv => absurd hv (huv n hu)
    · exact hapart.imp fun huv hv hu => absurd hv (huv n hu)
  rw [get?_project spans hlength, lastOver, List.findRev?_eq_find?_reverse]
  cases hfind : spans.reverse.find? fun u => decide (u.1.Covers n) with
  | none =>
    have hnot := List.find?_eq_none.mp hfind s (List.mem_reverse.mpr hs)
    exact absurd (decide_eq_true hn) hnot
  | some u =>
    have hu : u.1.Covers n := by simpa using List.find?_some hfind
    rw [hunique u (List.mem_reverse.mp (List.mem_of_find?_eq_some hfind)) hu, Option.map_some]

end Cells

end Highlighting

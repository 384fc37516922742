import Highlighting.Baseline
import Highlighting.Proofs.Projection

/-!
# Tokens of a baseline, laid end to end

A baseline tool says nothing of offsets. Its tokens are laid from the beginning of the source, each
where the one before it ends, whether or not their texts have anything to do with the source. So a
token becomes a span by way of a running offset and of the length of its text, less one because
spans include their last character, which an empty text does not have; and the spans are then cut
off at the end of the source.

None of this is left in the result. The cells are the categories of the characters that the tokens
spell, `Baseline.ribbon`, cut off or filled up to the length of the source. The invariant behind
this is about the offset: the spans from an offset on show at a character what the ribbon has as far
from its beginning as the character is from the offset, and nothing before the offset
(`Baseline.lastOver_spansFrom`).

How the characters are divided into tokens does not show in the ribbon. Hence it does not matter to
the cells, and neither do tokens without characters.

## Main definitions

* `Baseline.ribbon`: the categories of the characters that tokens spell

## Main results

* `Baseline.lastOver_spansFrom`: what spans laid from an offset on show
* `Baseline.toList_cells_spans`: the cells of tokens, by the ribbon
* `Baseline.project_spans_eq_iff`: tokens show the same if their ribbons begin in the same way
* `Baseline.tokens_lie_end_to_end`: the cells of tokens, and what does not matter to them
-/

namespace Highlighting

namespace Baseline

/-- The categories of the characters that the tokens spell, in order. -/
def ribbon (ts : List Token) : List Category :=
  ts.flatMap fun t => List.replicate t.text.length t.category

@[simp] theorem ribbon_nil : ribbon [] = [] := rfl

@[simp] theorem ribbon_cons (t : Token) (ts : List Token) :
    ribbon (t :: ts) = List.replicate t.text.length t.category ++ ribbon ts :=
  List.flatMap_cons

@[simp] theorem ribbon_append (ts us : List Token) : ribbon (ts ++ us) = ribbon ts ++ ribbon us :=
  List.flatMap_append

/-! ### What the spans show -/

/-- **What spans laid from an offset on show** is the ribbon, moved by the offset. -/
theorem lastOver_spansFrom (offset : Nat) (ts : List Token) (n : Nat) :
    lastOver n (spansFrom offset ts) = if offset ≤ n then (ribbon ts)[n - offset]? else none := by
  fun_induction spansFrom offset ts with
  | case1 offset => simp [lastOver]
  | case2 offset t ts next hempty ih =>
    have hlength : t.text.length = 0 := by simpa using hempty
    have hnext : next = offset := by omega
    rw [ih, hnext, ribbon_cons, hlength, List.replicate_zero, List.nil_append]
  | case3 offset t ts next hempty ih =>
    have hlength : t.text.length ≠ 0 := by simpa using hempty
    have hnext : next = offset + t.text.length := rfl
    have hcovers : (⟨offset, next - 1⟩ : Span).Covers n ↔ offset ≤ n ∧ n < next := by
      show offset ≤ n ∧ n ≤ next - 1 ↔ _
      omega
    rw [lastOver_cons, ih, ribbon_cons]
    -- The character stands before the token, in it, or behind it.
    rcases Nat.lt_or_ge n offset with hbefore | hoffset
    · rw [if_neg (by omega), if_neg (by rw [hcovers]; omega), if_neg (by omega), Option.or_none]
    rw [if_pos hoffset]
    by_cases hin : n < next
    · have hreplicate : n - offset < (List.replicate t.text.length t.category).length := by
        rw [List.length_replicate]
        omega
      rw [if_neg (by omega), if_pos (hcovers.mpr ⟨hoffset, hin⟩), Option.none_or,
        List.getElem?_append_left hreplicate, List.getElem?_replicate_of_lt (by omega)]
    · have hrest : n - offset - (List.replicate t.text.length t.category).length = n - next := by
        rw [List.length_replicate]
        omega
      rw [if_pos (by omega), if_neg (by rw [hcovers]; omega), Option.or_none,
        List.getElem?_append_right (by rw [List.length_replicate]; omega), hrest]

/-- The entries of a list up to some length, with nothing where the list has ended. -/
theorem map_getElem?_range (xs : List Category) (length : Nat) :
    (List.range length).map (xs[·]?) = ((xs.map some).take length).rightpad length none := by
  have hlength : ((xs.map some).take length).length = min length xs.length := by simp
  refine List.ext_getElem ?_ fun n hn _ => ?_
  · rw [List.length_map, List.length_range, List.length_rightpad, hlength]
    omega
  rw [List.length_map, List.length_range] at hn
  rw [List.getElem_map, List.getElem_range]
  simp only [List.rightpad]
  by_cases hxs : n < xs.length
  · rw [List.getElem?_eq_getElem hxs, List.getElem_append_left (by omega), List.getElem_take,
      List.getElem_map]
  · rw [List.getElem?_eq_none (by omega), List.getElem_append_right (by omega),
      List.getElem_replicate]

/-- The cells that tokens give to a source, one after the other. -/
theorem toList_cells_spans (ts : List Token) (length : Nat) :
    (Cells.project (spans ts) length).cells.toList
      = (List.range length).map ((ribbon ts)[·]?) := by
  rw [Cells.toList_cells_project]
  refine List.map_congr_left fun n _ => ?_
  rw [spans, lastOver_spansFrom, if_pos (Nat.zero_le n), Nat.sub_zero]

/-- **Tokens show the same if their ribbons begin in the same way**, and only then. -/
theorem project_spans_eq_iff {ts us : List Token} {length : Nat} :
    Cells.project (spans ts) length = Cells.project (spans us) length
      ↔ (ribbon ts).take length = (ribbon us).take length := by
  rw [← Cells.toList_inj, toList_cells_spans, toList_cells_spans, List.map_inj_left]
  constructor
  · intro h
    refine List.ext_getElem? fun n => ?_
    rw [List.getElem?_take, List.getElem?_take]
    split_ifs with hn
    · exact h n (List.mem_range.mpr hn)
    · rfl
  · intro h n hn
    rw [List.mem_range] at hn
    rw [← List.getElem?_take_of_lt hn, h, List.getElem?_take_of_lt hn]

/-! ### What does not show -/

theorem ribbon_filter_isEmpty (ts : List Token) :
    ribbon (ts.filter fun t => !t.text.isEmpty) = ribbon ts := by
  induction ts with
  | nil => rfl
  | cons t ts ih =>
    by_cases hempty : t.text.isEmpty
    · have hlength : t.text.length = 0 := by simpa using hempty
      rw [List.filter_cons_of_neg (by simp [hempty]), ih, ribbon_cons, hlength, List.replicate_zero,
        List.nil_append]
    · rw [List.filter_cons_of_pos (by simp [hempty]), ribbon_cons, ribbon_cons, ih]

/-- The parts of a token spell its characters, with its category. -/
theorem ribbon_of_parts {parts : List Token} {t : Token}
    (htext : String.join (parts.map (·.text)) = t.text)
    (hcategory : ∀ q ∈ parts, q.category = t.category) :
    ribbon parts = List.replicate t.text.length t.category := by
  refine List.eq_replicate_iff.mpr ⟨?_, fun c hc => ?_⟩
  · rw [← htext, String.length_join, ribbon, List.length_flatMap, List.map_map]
    simp [Function.comp_def]
  · obtain ⟨q, hq, hc⟩ := List.mem_flatMap.mp hc
    rw [List.eq_of_mem_replicate hc, hcategory q hq]

/-- **Tokens lie end to end.** The cells that tokens of a baseline give to a source are the
categories of the characters they spell, one after the other, as many as the source has characters;
if the tokens spell fewer characters, the remaining cells hold nothing. So tokens without characters
may come and go, and a token may be cut into parts of its category. In general two lists of tokens
give the same cells exactly if the characters they spell have the same categories, up to the length
of the source. -/
theorem tokens_lie_end_to_end (source : String) :
    let shown (ts : List Token) := Cells.project (spans ts) source.length
    (∀ ts, (shown ts).cells.toList
        = (((ribbon ts).map some).take source.length).rightpad source.length none) ∧
      (∀ ts us, (ts.filter fun t => !t.text.isEmpty) = (us.filter fun t => !t.text.isEmpty) →
        shown ts = shown us) ∧
      (∀ before t parts after, String.join (parts.map (·.text)) = t.text →
        (∀ q ∈ parts, q.category = t.category) →
        shown (before ++ parts ++ after) = shown (before ++ t :: after)) ∧
      ∀ ts us, shown ts = shown us
        ↔ (ribbon ts).take source.length = (ribbon us).take source.length := by
  intro shown
  refine ⟨fun ts => ?_, fun ts us hfilter => ?_, fun before t parts after htext hcategory => ?_,
    fun ts us => project_spans_eq_iff⟩
  · rw [toList_cells_spans, map_getElem?_range]
  · refine project_spans_eq_iff.mpr ?_
    rw [← ribbon_filter_isEmpty ts, hfilter, ribbon_filter_isEmpty]
  · refine project_spans_eq_iff.mpr ?_
    rw [ribbon_append, ribbon_append, ribbon_append, ribbon_cons, ribbon_of_parts htext hcategory,
      List.append_assoc]

/-- The theorem at a declaration whose keyword is cut in two, with an empty comment in it, over a
source that ends before the tokens do. -/
theorem tokens_lie_end_to_end_declaration :
    let shown (ts : List Token) := Cells.project (spans ts) "int é".length
    let name : Token := ⟨"éé", .null, .variableDeclarator⟩
    let gap : List Token := [⟨" ", .null, .any⟩, ⟨"", .null, .comment⟩]
    let parts : List Token := [⟨"in", .null, .keyword⟩, ⟨"t", .null, .keyword⟩]
    String.join (parts.map (·.text)) = "int" ∧
      shown (parts ++ gap ++ [name]) = shown (⟨"int", .null, .keyword⟩ :: (gap ++ [name])) ∧
      shown (gap ++ [name]) = shown [⟨" ", .null, .any⟩, name] ∧
      (shown (parts ++ gap ++ [name])).cells.toList = [some .keyword, some .keyword, some .keyword,
        some .any, some .variableDeclarator] := by
  intro shown name gap parts
  obtain ⟨hcells, hempty, hparts, -⟩ := tokens_lie_end_to_end "int é"
  have htext : String.join (parts.map (·.text)) = "int" := by decide
  refine ⟨htext, ?_, hempty _ _ rfl, ?_⟩
  · rw [List.append_assoc]
    exact hparts [] ⟨"int", .null, .keyword⟩ parts (gap ++ [name]) htext (by simp [parts])
  · rw [hcells]
    cbv

end Baseline

end Highlighting

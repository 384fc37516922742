import Mathlib.Data.List.Basic
import Highlighting.Highlighter
import Highlighting.Proofs.Engine
import Highlighting.Proofs.Starts

/-!
# The category of a token

Classifying a parse takes two stages over the whole stream, but what comes out for a token can be
said for that token alone: the category of the override that the walk over the tree returns for its
start, and the category of the lexicon if there is none.

## Main definitions

* `Highlighter.categoryOf`: the category of a token of a parse
* `Highlighter.visibleCategories`: the categories that the tokens of the tree get, in source order

## Main results

* `Highlighter.resolve_lexical`: any overrides, applied on top of the lexical stage
* `Highlighter.classify_eq`: classifying a parse gives every token of the stream its category
* `Highlighter.visibleCategories_eq`: the same for the tokens of the tree
-/

namespace Highlighting

namespace Highlighter

variable (h : Highlighter) (p : Parse)

/-- The category of a token of a parse. -/
def categoryOf (t : StreamToken) : Category :=
  ((h.engine.walk p.root).1.get? t.token.span.start).elim
    (h.language.lexicon.classify h.mode t.token.kind t.parent) (·.category)

theorem span?_record (language : Language) (t : StreamToken) :
    (record language t).span? = some t.token.span := rfl

/-- Applied on top of the lexical stage, a set of overrides is looked up once for each token. -/
theorem resolve_lexical (s : OverrideSet) :
    s.resolve (h.lexical p) = p.stream.map fun t => ⟨record h.language t,
      (s.get? t.token.span.start).elim
        (h.language.lexicon.classify h.mode t.token.kind t.parent) (·.category)⟩ := by
  rw [OverrideSet.resolve, lexical, records, List.map_map, List.map_map]
  refine List.map_congr_left fun t _ => ?_
  simp only [Function.comp_apply, span?_record, Option.bind_some]
  cases s.get? t.token.span.start <;> rfl

/-- **Classifying a parse** gives every token of the stream its category. -/
theorem classify_eq :
    (h.classify p).1 = p.stream.map fun t => ⟨record h.language t, h.categoryOf p t⟩ := by
  have hwalk : (h.engine.reset.walk p.root).1 = (h.engine.walk p.root).1 := by
    rw [Engine.walk_eq, Engine.walk_eq]
    rfl
  change (h.engine.reset.walk p.root).1.resolve (h.lexical p) = _
  rw [hwalk, resolve_lexical]
  rfl

/-- The categories that the tokens of the tree get, in source order. Hidden tokens are left out. -/
def visibleCategories : List Category :=
  (((h.classify p).1.zip p.stream).filter fun x => x.2.token ∈ p.root.tokens).map (·.1.category)

variable {p}

/-- **The categories of the tokens of the tree**, each found by its start and its parent. -/
theorem visibleCategories_eq {source : String} (hp : p.Sound source) :
    h.visibleCategories p = (p.root.visible none).map (h.categoryOf p) := by
  rw [visibleCategories, classify_eq, ← List.map_prod_right_eq_zip, List.filter_map, List.map_map,
    ← hp.visible_eq]
  refine congrArg _ (List.filter_congr fun t ht => ?_)
  exact Bool.eq_iff_iff.mpr (decide_eq_true_iff.trans (hp.mem_tokens_iff ht))

end Highlighter

end Highlighting

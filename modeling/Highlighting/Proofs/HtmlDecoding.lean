import Mathlib.Data.List.Chain
import Mathlib.Tactic.SplitIfs
import Highlighting.Html

/-!
# Reading rendered source back

Highlighted source is rendered for the eye, but nothing of it is lost: the text can be read back,
and so can the colour of every character. `Html.decode` does this. It knows the two kinds of tags
and the five entities, and nothing of how a source is rendered.

What makes it work is that the characters which could be taken for markup never stand for
themselves. Entities are put in one kind after the other, and still every character of a text
becomes what it would become on its own (`Html.toList_escape`). So the only angle brackets of a
rendered text are those of its tags, and the only ampersands those of its entities, however much the
source itself looks like tags or entities. A colour contains none of them.

The writer holds the last piece of a source back. Whatever it has written so far, and the piece that
it holds back, are the maximal pieces of the source so far (`Html.Writer.Shows`). So a stretch of
text outside of elements is one piece, and each element is one piece.

## Main definitions

* `Html.Run`, `Html.MaximalRuns`: pieces of one colour, and when they are all of a coloured text
* `Html.Markup`, `Html.lex`: the characters and tags of a rendered text
* `Html.decode`: the source and its pieces
* `Html.Writer.Shows`: what has been written of a coloured text
* `Html.occurrences`: how often something is written in a text

## Main results

* `Html.toList_escape`: entities may be put in one kind after the other
* `Html.Writer.Shows.add`, `Html.exists_runs`: a source is written in its maximal pieces
* `Html.lex_flatMap_written`, `Html.gather_markup`: pieces read back, first their tags, then the
  pieces
* `Html.MaximalRuns.decode_render`: a rendered text read back
* `Html.render_loses_nothing`
-/

namespace Highlighting

namespace Html

/-! ### Pieces of one colour -/

/-- A piece of text of one colour. -/
structure Run where
  /-- The text. -/
  text : List Char
  /-- Its colour, if it has one. -/
  color : Option String
  deriving DecidableEq, Repr

/-- The characters of a piece, each with its colour. -/
def Run.chars (r : Run) : List (Char × Option String) := r.text.map (·, r.color)

/-- A coloured text is made of the given pieces, and none of them can be made longer. -/
structure MaximalRuns (cs : List (Char × Option String)) (rs : List Run) : Prop where
  /-- Put together, the pieces are the text. -/
  flatMap_chars : rs.flatMap Run.chars = cs
  /-- No piece is empty. -/
  text_ne_nil : ∀ r ∈ rs, r.text ≠ []
  /-- Neighbours differ in colour. -/
  isChain : rs.IsChain fun r s => r.color ≠ s.color

namespace MaximalRuns

variable {cs : List (Char × Option String)} {rs : List Run}

theorem eq_nil (h : MaximalRuns [] rs) : rs = [] := by
  refine List.eq_nil_iff_forall_not_mem.mpr fun r hr => h.text_ne_nil r hr ?_
  have hchars := List.flatMap_eq_nil_iff.mp h.flatMap_chars r hr
  exact List.map_eq_nil_iff.mp hchars

/-- The last piece may become longer. -/
theorem grow {r : Run} (h : MaximalRuns cs (rs ++ [r])) (c : Char) :
    MaximalRuns (cs ++ [(c, r.color)]) (rs ++ [⟨r.text ++ [c], r.color⟩]) := by
  refine ⟨?_, ?_, ?_⟩
  · rw [← h.flatMap_chars]
    simp [Run.chars]
  · have hne := h.text_ne_nil
    rw [List.forall_mem_append] at hne ⊢
    exact ⟨hne.1, by simp⟩
  · have hchain := h.isChain
    rw [List.isChain_append] at hchain ⊢
    exact ⟨hchain.1, List.isChain_singleton _, by simpa using hchain.2.2⟩

/-- A character of another colour begins a piece. -/
theorem begin (h : MaximalRuns cs rs) {color : Option String}
    (hlast : ∀ r ∈ rs.getLast?, r.color ≠ color) (c : Char) :
    MaximalRuns (cs ++ [(c, color)]) (rs ++ [⟨[c], color⟩]) := by
  refine ⟨?_, ?_, ?_⟩
  · rw [← h.flatMap_chars]
    simp [Run.chars]
  · rw [List.forall_mem_append]
    exact ⟨h.text_ne_nil, by simp⟩
  · rw [List.isChain_append]
    exact ⟨h.isChain, List.isChain_singleton _, by simpa using hlast⟩

end MaximalRuns

/-! ### Markup -/

/-- What a rendered text is made of. -/
inductive Markup where
  /-- A character of the source. -/
  | char (c : Char)
  /-- A tag, by what stands between the angle brackets. -/
  | tag (name : List Char)
  deriving DecidableEq, Repr

/-- What a reader of a rendered text is in the middle of. -/
inductive Focus where
  /-- Text. -/
  | text
  /-- A tag, with its characters so far, latest first. -/
  | tag (chars : List Char)
  /-- An entity, with its characters so far, latest first. -/
  | entity (chars : List Char)

/-- The character that an entity stands for. -/
def entity? : List Char → Option Char
  | ['a', 'm', 'p'] => some '&'
  | ['l', 't'] => some '<'
  | ['g', 't'] => some '>'
  | ['q', 'u', 'o', 't'] => some '"'
  | ['#', '3', '9'] => some '\''
  | _ => none

/-- The characters and tags of a text, from the middle of something on. -/
def lex : Focus → List Char → Option (List Markup)
  | .text, [] => some []
  | .text, c :: cs =>
    if c = '<' then lex (.tag []) cs
    else if c = '&' then lex (.entity []) cs
    else (lex .text cs).map (.char c :: ·)
  | .tag _, [] => none
  | .tag chars, c :: cs =>
    if c = '>' then (lex .text cs).map (.tag chars.reverse :: ·)
    else lex (.tag (c :: chars)) cs
  | .entity _, [] => none
  | .entity chars, c :: cs =>
    if c = ';' then (entity? chars.reverse).bind fun c => (lex .text cs).map (.char c :: ·)
    else lex (.entity (c :: chars)) cs

/-- The tag at the beginning of a rendered text. -/
def preStart : List Char := ['p', 'r', 'e']

/-- The tag at the end of a rendered text. -/
def preEnd : List Char := ['/', 'p', 'r', 'e']

/-- The tag at the beginning of an element, up to its colour. -/
def spanStart : List Char :=
  ['s', 'p', 'a', 'n', ' ', 's', 't', 'y', 'l', 'e', '=', '"', 'c', 'o', 'l', 'o', 'r', ':']

/-- The tag at the end of an element. -/
def spanEnd : List Char := ['/', 's', 'p', 'a', 'n']

/-- The colour of the element that a tag begins. -/
def color? (name : List Char) : Option String :=
  (spanStart.isPrefixOf? name).bind fun rest =>
    if rest.getLast? = some '"' then some (String.ofList rest.dropLast) else none

/-- The piece outside of elements that ends where a tag stands, if there is any. -/
def bare (chars : List Char) : List Run :=
  if chars.isEmpty then [] else [⟨chars.reverse, none⟩]

/-- The pieces of a text from the middle of one on: its colour, if it stands in an element, and its
characters so far, latest first. -/
def gather : Option String → List Char → List Markup → Option (List Run)
  | _, _, [] => none
  | color, chars, .char c :: rest => gather color (c :: chars) rest
  | some color, chars, .tag name :: rest =>
    if name = spanEnd then (gather none [] rest).map (⟨chars.reverse, some color⟩ :: ·)
    else none
  | none, chars, .tag name :: rest =>
    if name = preEnd then if rest.isEmpty then some (bare chars) else none
    else (color? name).bind fun color => (gather (some color) [] rest).map (bare chars ++ ·)

/-- The source that a rendered text shows, and its pieces. -/
def decode (html : String) : Option (String × List Run) :=
  match lex .text html.toList with
  | some (.tag name :: rest) =>
    if name = preStart then
      (gather none [] rest).map fun rs => (String.ofList (rs.flatMap (·.text)), rs)
    else none
  | _ => none

/-! ### Reading tags and entities -/

/-- The characters and tags of a piece. -/
def Run.markup (r : Run) : List Markup :=
  match r.color with
  | none => r.text.map .char
  | some color => .tag (spanStart ++ color.toList ++ ['"']) ::
      (r.text.map .char ++ [.tag spanEnd])

/-- A colour can stand in a tag. -/
def Plain (color : String) : Prop := '<' ∉ color.toList ∧ '>' ∉ color.toList

theorem lex_tag {name : List Char} (h : '>' ∉ name) (chars rest : List Char) :
    lex (.tag chars) (name ++ '>' :: rest)
      = (lex .text rest).map (.tag (chars.reverse ++ name) :: ·) := by
  induction name generalizing chars with
  | nil => simp [lex]
  | cons c name ih =>
    rw [List.mem_cons, not_or] at h
    rw [List.cons_append, lex, if_neg (Ne.symm h.1), ih h.2]
    simp

/-- A character as text. -/
def escapeChar : Char → List Char
  | '&' => ['&', 'a', 'm', 'p', ';']
  | '<' => ['&', 'l', 't', ';']
  | '>' => ['&', 'g', 't', ';']
  | '"' => ['&', 'q', 'u', 'o', 't', ';']
  | '\'' => ['&', '#', '3', '9', ';']
  | c => [c]

/-- A text, character by character. -/
def escapeAll (text : List Char) : List Char := text.flatMap escapeChar

theorem toList_substitute (text : String) (c : Char) (replacement : String) :
    (substitute text c replacement).toList
      = text.toList.flatMap fun d => if d = c then replacement.toList else [d] := by
  rw [substitute, String.toList_join, List.flatMap_map]
  refine List.flatMap_congr fun d _ => ?_
  split_ifs <;> simp

/-- **Entities may be put in one kind after the other.** No entity but that of the ampersand is
touched by a later replacement, and the ampersand goes first. -/
theorem toList_escape (text : String) : (escape text).toList = escapeAll text.toList := by
  simp only [escape, entities, List.foldl_cons, List.foldl_nil, toList_substitute,
    List.flatMap_assoc, escapeAll]
  refine List.flatMap_congr fun c _ => ?_
  symm
  unfold escapeChar
  split
  · rfl
  · rfl
  · rfl
  · rfl
  · rfl
  · next hamp hlt hgt hquot hapos =>
    simp only [List.flatMap_singleton, if_neg hamp, if_neg hlt, if_neg hgt, if_neg hquot,
      if_neg hapos]

theorem lex_escapeChar (c : Char) (rest : List Char) :
    lex .text (escapeChar c ++ rest) = (lex .text rest).map (.char c :: ·) := by
  unfold escapeChar
  split
  · simp [lex, entity?]
  · simp [lex, entity?]
  · simp [lex, entity?]
  · simp [lex, entity?]
  · simp [lex, entity?]
  · next hamp hlt _ _ _ =>
    have h1 : c ≠ '<' := hlt
    have h2 : c ≠ '&' := hamp
    simp [lex, h1, h2]

theorem lex_escapeAll (text rest : List Char) :
    lex .text (escapeAll text ++ rest) = (lex .text rest).map (text.map .char ++ ·) := by
  induction text with
  | nil => simp [escapeAll]
  | cons c text ih =>
    rw [escapeAll, List.flatMap_cons, List.append_assoc, lex_escapeChar, ← escapeAll, ih,
      Option.map_map]
    rfl

/-- A piece as it is written. -/
def Run.written (r : Run) : List Char :=
  match r.color with
  | none => escapeAll r.text
  | some color => '<' :: (spanStart ++ color.toList ++ ['"'] ++
      '>' :: (escapeAll r.text ++ '<' :: (spanEnd ++ ['>'])))

theorem toList_renderRun (text : String) (color : Option String) :
    (renderRun text color).toList = Run.written ⟨text.toList, color⟩ := by
  unfold renderRun Run.written
  cases color with
  | none => rw [toList_escape]
  | some color =>
    rw [String.toList_append, String.toList_append, toList_escape]
    simp [toString, spanStart, spanEnd]

theorem lex_written {r : Run} (h : ∀ color, r.color = some color → Plain color)
    (rest : List Char) :
    lex .text (r.written ++ rest) = (lex .text rest).map (r.markup ++ ·) := by
  obtain ⟨text, _ | color⟩ := r
  · exact lex_escapeAll text rest
  · have hname : '>' ∉ spanStart ++ color.toList ++ ['"'] := by
      simp [spanStart, (h color rfl).2]
    have hend : '>' ∉ spanEnd := by simp [spanEnd]
    have hsplit : Run.written ⟨text, some color⟩ ++ rest
        = '<' :: (spanStart ++ color.toList ++ ['"'] ++ '>' ::
          (escapeAll text ++ '<' :: (spanEnd ++ '>' :: rest))) := by
      simp [Run.written]
    rw [hsplit, lex, if_pos rfl, lex_tag hname, lex_escapeAll, lex, if_pos rfl, lex_tag hend]
    simp [Run.markup, Function.comp_def]

theorem lex_flatMap_written {rs : List Run}
    (h : ∀ r ∈ rs, ∀ color, r.color = some color → Plain color) (rest : List Char) :
    lex .text (rs.flatMap Run.written ++ rest)
      = (lex .text rest).map (rs.flatMap Run.markup ++ ·) := by
  induction rs with
  | nil => simp
  | cons r rs ih =>
    rw [List.forall_mem_cons] at h
    rw [List.flatMap_cons, List.append_assoc, lex_written h.1, ih h.2, Option.map_map,
      List.flatMap_cons]
    simp [Function.comp_def]

/-! ### Gathering pieces -/

theorem gather_chars (color : Option String) (chars text : List Char) (rest : List Markup) :
    gather color chars (text.map .char ++ rest) = gather color (text.reverse ++ chars) rest := by
  induction text generalizing chars with
  | nil => rfl
  | cons c text ih =>
    rw [List.map_cons, List.cons_append, gather, ih]
    simp

theorem color?_spanStart (color : String) :
    color? (spanStart ++ color.toList ++ ['"']) = some color := by
  have hrest : spanStart.isPrefixOf? (spanStart ++ color.toList ++ ['"'])
      = some (color.toList ++ ['"']) := by
    rw [List.isPrefixOf?_eq_some_iff_append_eq, List.append_assoc]
  rw [color?, hrest]
  simp

/-- **The pieces of a text are found again.** Characters outside of elements that wait for the next
tag make one piece, so the piece that follows them has to be an element. -/
theorem gather_markup {rs : List Run} (hne : ∀ r ∈ rs, r.text ≠ [])
    (hchain : rs.IsChain fun r s => r.color ≠ s.color) {chars : List Char}
    (hchars : chars ≠ [] → ∀ r, rs.head? = some r → r.color ≠ none) :
    gather none chars (rs.flatMap Run.markup ++ [.tag preEnd]) = some (bare chars ++ rs) := by
  induction rs generalizing chars with
  | nil => simp [gather]
  | cons r rs ih =>
    rw [List.forall_mem_cons] at hne
    rw [List.isChain_cons] at hchain
    obtain ⟨text, _ | color⟩ := r
    · have hnil : chars = [] := by
        by_contra h
        exact hchars h _ rfl rfl
      have hnext : text.reverse ≠ [] → ∀ r, rs.head? = some r → r.color ≠ none :=
        fun _ r hr => (hchain.1 r hr).symm
      have hbare : bare text.reverse = [⟨text, none⟩] := by
        simp [bare, hne.1]
      rw [List.flatMap_cons, Run.markup, List.append_assoc, gather_chars, hnil, List.append_nil,
        ih hne.2 hchain.2 hnext, hbare]
      rfl
    · have hpre : ¬ spanStart ++ color.toList ++ ['"'] = preEnd := by
        simp [spanStart, preEnd]
      have hmarkup : List.flatMap Run.markup (⟨text, some color⟩ :: rs) ++ [.tag preEnd]
          = .tag (spanStart ++ color.toList ++ ['"']) :: (text.map .char ++
            .tag spanEnd :: (rs.flatMap Run.markup ++ [.tag preEnd])) := by
        simp [Run.markup]
      rw [hmarkup, gather, if_neg hpre, color?_spanStart, Option.bind_some, gather_chars, gather,
        if_pos rfl, ih hne.2 hchain.2 (by simp)]
      simp [bare]

/-! ### How often something is written -/

/-- How often a pattern is written in a text. -/
def occurrences (pattern : List Char) : List Char → Nat
  | [] => 0
  | c :: cs => (if pattern.isPrefixOf (c :: cs) then 1 else 0) + occurrences pattern cs

/-- What begins with an angle bracket is not written where there is none. -/
theorem occurrences_append {pattern text : List Char} (h : '<' ∉ text) (rest : List Char) :
    occurrences ('<' :: pattern) (text ++ rest) = occurrences ('<' :: pattern) rest := by
  induction text with
  | nil => rfl
  | cons c text ih =>
    rw [List.mem_cons, not_or] at h
    rw [List.cons_append, occurrences, ih h.2]
    simp [h.1]

theorem not_mem_escapeAll (text : List Char) : '<' ∉ escapeAll text := by
  intro h
  obtain ⟨c, -, hc⟩ := List.mem_flatMap.mp h
  unfold escapeChar at hc
  split at hc
  · simp at hc
  · simp at hc
  · simp at hc
  · simp at hc
  · simp at hc
  · next hlt _ _ _ => exact hlt (by simpa [eq_comm] using hc)

/-- How an element begins. -/
def openTag : List Char := ['<', 's', 'p', 'a', 'n']

/-- How an element ends. -/
def closeTag : List Char := ['<', '/', 's', 'p', 'a', 'n', '>']

/-- A piece is written with one tag at its beginning and one at its end, if it has a colour, and
with none otherwise. -/
theorem occurrences_written {r : Run} (h : ∀ color, r.color = some color → Plain color)
    (rest : List Char) :
    occurrences openTag (r.written ++ rest)
        = (if r.color.isSome then 1 else 0) + occurrences openTag rest ∧
      occurrences closeTag (r.written ++ rest)
        = (if r.color.isSome then 1 else 0) + occurrences closeTag rest := by
  obtain ⟨text, _ | color⟩ := r
  · constructor
    · simpa [Run.written, openTag] using occurrences_append (not_mem_escapeAll text) rest
    · simpa [Run.written, closeTag] using occurrences_append (not_mem_escapeAll text) rest
  · have hname : '<' ∉ spanStart ++ color.toList ++ ['"'] ++ '>' :: escapeAll text := by
      simp [spanStart, (h color rfl).1, not_mem_escapeAll]
    have hend : '<' ∉ spanEnd ++ ['>'] := by simp [spanEnd]
    have hsplit : Run.written ⟨text, some color⟩ ++ rest
        = '<' :: ((spanStart ++ color.toList ++ ['"'] ++ '>' :: escapeAll text) ++
          '<' :: ((spanEnd ++ ['>']) ++ rest)) := by
      simp [Run.written]
    rw [hsplit]
    constructor
    · rw [openTag, occurrences, occurrences_append hname, occurrences, occurrences_append hend]
      simp [spanStart, spanEnd]
    · rw [closeTag, occurrences, occurrences_append hname, occurrences, occurrences_append hend]
      simp [spanStart, spanEnd]

theorem occurrences_flatMap_written {rs : List Run}
    (h : ∀ r ∈ rs, ∀ color, r.color = some color → Plain color) (rest : List Char) :
    occurrences openTag (rs.flatMap Run.written ++ rest)
        = rs.countP (·.color.isSome) + occurrences openTag rest ∧
      occurrences closeTag (rs.flatMap Run.written ++ rest)
        = rs.countP (·.color.isSome) + occurrences closeTag rest := by
  induction rs with
  | nil => simp
  | cons r rs ih =>
    rw [List.forall_mem_cons] at h
    obtain ⟨hopen, hclose⟩ := occurrences_written h.1 (rs.flatMap Run.written ++ rest)
    obtain ⟨ihopen, ihclose⟩ := ih h.2
    rw [List.flatMap_cons, List.append_assoc, hopen, hclose, ihopen, ihclose, List.countP_cons]
    constructor
    · omega
    · omega

/-! ### Colours -/

theorem plain_color {c : Category} {color : String} (h : c.color = some color) : Plain color := by
  cases c with
  | any => contradiction
  | _ =>
    obtain rfl := Option.some.inj h
    simp [Plain]

theorem color_injective {c d : Category} (h : c.color = d.color) : c = d := by
  revert h
  cases c <;> cases d <;> simp [Category.color]

/-- Text without a category and text of the category `any` are shown alike. -/
theorem bind_color (x : Option Category) : x.bind Category.color = (x.getD .any).color := by
  cases x with
  | none => rfl
  | some c => rfl

theorem getElem?_colored (source : List Char) (cells : Cells) (n : Nat) :
    (colored source cells)[n]?
      = source[n]?.map fun c => (c, (cells.get? n).bind Category.color) := by
  simp [colored, Function.comp_def]

theorem map_fst_colored (source : List Char) (cells : Cells) :
    (colored source cells).map Prod.fst = source := by
  simp [colored, Function.comp_def]

/-- The colour of a piece is that of some category. -/
theorem MaximalRuns.plain {source : List Char} {cells : Cells} {rs : List Run}
    (h : MaximalRuns (colored source cells) rs) {r : Run} (hr : r ∈ rs) {color : String}
    (hcolor : r.color = some color) : Plain color := by
  obtain ⟨c, text, htext⟩ := List.exists_cons_of_ne_nil (h.text_ne_nil r hr)
  have hmem : (c, r.color) ∈ colored source cells := by
    rw [← h.flatMap_chars]
    exact List.mem_flatMap.mpr ⟨r, hr, by simp [Run.chars, htext]⟩
  obtain ⟨⟨d, n⟩, -, hx⟩ := List.mem_map.mp hmem
  obtain ⟨category, -, hcategory⟩ :=
    Option.bind_eq_some_iff.mp ((Prod.mk.inj hx).2.trans hcolor)
  exact plain_color hcategory

/-! ### Writing -/

namespace Writer

/-- The piece that is held back, if there is one. -/
def pending (w : Writer) : List Run :=
  if w.run.isEmpty then [] else [⟨w.run.toList, w.color⟩]

/-- The writer has written the given pieces, and together with the one that it holds back they are
the maximal pieces of a coloured text. Nothing is held back only before the first character. -/
structure Shows (cs : List (Char × Option String)) (rs : List Run) (w : Writer) : Prop where
  /-- The pieces are what has been written. -/
  output_eq : w.output.toList = '<' :: (preStart ++ '>' :: rs.flatMap Run.written)
  /-- With the last one they are maximal. -/
  maximal : MaximalRuns cs (rs ++ w.pending)
  /-- There is a last one. -/
  run_ne : cs ≠ [] → w.run.isEmpty = false

variable {cs : List (Char × Option String)} {rs : List Run} {w : Writer}

theorem shows_start : Shows [] [] {} where
  output_eq := by simp [preStart]
  maximal := ⟨rfl, by simp [pending], .nil⟩
  run_ne h := absurd rfl h

/-- What is held back is written. -/
theorem Shows.output_flush (h : w.Shows cs rs) : w.flush.output.toList
    = '<' :: (preStart ++ '>' :: (rs ++ w.pending).flatMap Run.written) := by
  unfold flush pending
  split_ifs
  · rw [h.output_eq, List.append_nil]
  · simp [h.output_eq, toList_renderRun]

theorem pending_push (output run : String) (c : Char) (color : Option String) :
    pending ⟨output, run.push c, color⟩ = [⟨run.toList ++ [c], color⟩] := by
  rw [pending, if_neg (by simp), String.toList_push]

/-- **One more character** makes the piece that is held back longer, or begins another one. -/
theorem Shows.add (h : w.Shows cs rs) (x : Char × Option String) :
    ∃ rs, (w.add x).Shows (cs ++ [x]) rs := by
  obtain ⟨c, color⟩ := x
  have hmax := h.maximal
  cases hempty : w.run.isEmpty with
  | true =>
    -- This is the first character, and it does not matter which colour came before it.
    obtain rfl : cs = [] := by
      by_contra hne
      rw [h.run_ne hne] at hempty
      contradiction
    obtain ⟨rfl, -⟩ := List.append_eq_nil_iff.mp hmax.eq_nil
    have hadd : w.add (c, color) = ⟨w.output, w.run.push c, color⟩ := by
      simp [Writer.add, flush, hempty]
    have hrun : w.run.toList = [] := by simpa using hempty
    refine ⟨[], hadd ▸ ⟨h.output_eq, ?_, by simp⟩⟩
    rw [pending_push, hrun]
    exact MaximalRuns.begin ⟨rfl, by simp, .nil⟩ (by simp) c
  | false =>
    have hpending : w.pending = [⟨w.run.toList, w.color⟩] := by
      rw [pending, if_neg (by simp [hempty])]
    rw [hpending] at hmax
    by_cases hcolor : color = w.color
    · have hadd : w.add (c, color) = ⟨w.output, w.run.push c, color⟩ := by
        simp [Writer.add, hcolor]
      refine ⟨rs, hadd ▸ ⟨h.output_eq, ?_, by simp⟩⟩
      rw [pending_push, hcolor]
      exact hmax.grow c
    · have hadd : w.add (c, color) = ⟨w.flush.output, "".push c, color⟩ := by
        simp [Writer.add, flush, hempty, hcolor]
      refine ⟨rs ++ w.pending, hadd ▸ ⟨h.output_flush, ?_, by simp⟩⟩
      rw [pending_push, hpending]
      exact hmax.begin (by simpa using Ne.symm hcolor) c

end Writer

/-- **A source is written in its maximal pieces.** -/
theorem exists_runs (source : String) (cells : Cells) :
    ∃ rs, MaximalRuns (colored source.toList cells) rs ∧
      (render source cells).toList = '<' :: (preStart ++ '>' ::
        (rs.flatMap Run.written ++ '<' :: (preEnd ++ ['>']))) := by
  have hloop : ∀ cs : List (Char × Option String),
      ∃ rs, (cs.foldl Writer.add {}).Shows cs rs := by
    intro cs
    induction cs using List.reverseRecOn with
    | nil => exact ⟨[], Writer.shows_start⟩
    | append_singleton cs x ih =>
      obtain ⟨rs, hrs⟩ := ih
      rw [List.foldl_append]
      exact hrs.add x
  obtain ⟨rs, hrs⟩ := hloop (colored source.toList cells)
  refine ⟨_, hrs.maximal, ?_⟩
  rw [render, String.toList_append, hrs.output_flush]
  simp [preEnd]

/-! ### Whole texts -/

section

variable {source : String} {cells : Cells} {rs : List Run}

/-- **A rendered text can be read back**: the source, and its pieces as they were written. -/
theorem MaximalRuns.decode_render (hmax : MaximalRuns (colored source.toList cells) rs)
    (hrender : (render source cells).toList = '<' :: (preStart ++ '>' ::
      (rs.flatMap Run.written ++ '<' :: (preEnd ++ ['>'])))) :
    decode (render source cells) = some (source, rs) := by
  have hstart : '>' ∉ preStart := by simp [preStart]
  have hend : '>' ∉ preEnd := by simp [preEnd]
  have hlex : lex .text (render source cells).toList
      = some (.tag preStart :: (rs.flatMap Run.markup ++ [.tag preEnd])) := by
    rw [hrender, lex, if_pos rfl, lex_tag hstart, lex_flatMap_written fun r hr _ => hmax.plain hr,
      lex, if_pos rfl, lex_tag hend, lex]
    rfl
  have hsource : rs.flatMap (·.text) = source.toList := by
    rw [← map_fst_colored source.toList cells, ← hmax.flatMap_chars, List.map_flatMap]
    simp [Run.chars, Function.comp_def]
  have hgather : gather none [] (rs.flatMap Run.markup ++ [.tag preEnd]) = some (bare [] ++ rs) :=
    gather_markup hmax.text_ne_nil hmax.isChain (by simp)
  rw [decode, hlex]
  simp [hgather, hsource, bare]

theorem MaximalRuns.occurrences_render (hmax : MaximalRuns (colored source.toList cells) rs)
    (hrender : (render source cells).toList = '<' :: (preStart ++ '>' ::
      (rs.flatMap Run.written ++ '<' :: (preEnd ++ ['>'])))) :
    occurrences openTag (render source cells).toList = rs.countP (·.color.isSome) ∧
      occurrences closeTag (render source cells).toList = rs.countP (·.color.isSome) := by
  have hstart : '<' ∉ preStart ++ ['>'] := by simp [preStart]
  have hend : '<' ∉ preEnd ++ ['>'] := by simp [preEnd]
  have hsplit : (render source cells).toList = '<' :: ((preStart ++ ['>']) ++
      (rs.flatMap Run.written ++ '<' :: ((preEnd ++ ['>']) ++ []))) := by
    rw [hrender]
    simp
  obtain ⟨hopen, hclose⟩ := occurrences_flatMap_written (fun r hr _ => hmax.plain hr)
    ('<' :: ((preEnd ++ ['>']) ++ []))
  rw [hsplit]
  constructor
  · rw [occurrences, openTag, occurrences_append hstart, ← openTag, hopen, occurrences, openTag,
      occurrences_append hend]
    simp [preStart, preEnd, occurrences]
  · rw [occurrences, closeTag, occurrences_append hstart, ← closeTag, hclose, occurrences, closeTag,
      occurrences_append hend]
    simp [preStart, preEnd, occurrences]

end

/-- What can be told of the categories of a text from its colours. -/
theorem getD_any_eq_of_colored_eq {source : List Char} {cells cells' : Cells}
    (h : colored source cells = colored source cells') {n : Nat} (hn : n < source.length) :
    (cells.get? n).getD .any = (cells'.get? n).getD .any := by
  have hget := congrArg (·[n]?) h
  simp only [getElem?_colored, List.getElem?_eq_getElem hn, Option.map_some, Option.some.injEq,
    Prod.mk.injEq, true_and, bind_color] at hget
  exact color_injective hget

/-- **A rendered text loses nothing.** Whatever the source looks like and however many cells there
are, the text can be decoded: into the source, and into its maximal pieces of one colour, where
characters of the category `any`, without a category and past the end of the cells have no colour.
It has one element for each piece with a colour. So the same text is rendered only for the same
source, and only for cells that agree on every character of it, `any` and no category being the
same. -/
theorem render_loses_nothing (source : String) (cells : Cells) :
    (∃ rs, MaximalRuns (colored source.toList cells) rs ∧
        decode (render source cells) = some (source, rs) ∧
        occurrences openTag (render source cells).toList = rs.countP (·.color.isSome) ∧
        occurrences closeTag (render source cells).toList = rs.countP (·.color.isSome)) ∧
      ∀ source' cells', render source cells = render source' cells' →
        source = source' ∧
          ∀ n < source.length, (cells.get? n).getD .any = (cells'.get? n).getD .any := by
  obtain ⟨rs, hmax, hrender⟩ := exists_runs source cells
  have hdecode := hmax.decode_render hrender
  constructor
  · exact ⟨rs, hmax, hdecode, hmax.occurrences_render hrender⟩
  · intro source' cells' h
    obtain ⟨rs', hmax', hrender'⟩ := exists_runs source' cells'
    rw [h, hmax'.decode_render hrender'] at hdecode
    obtain ⟨rfl, rfl⟩ := Prod.mk.inj (Option.some.inj hdecode)
    have hcolored : colored source'.toList cells = colored source'.toList cells' := by
      rw [← hmax.flatMap_chars, ← hmax'.flatMap_chars]
    exact ⟨rfl, fun n hn => getD_any_eq_of_colored_eq hcolored (by rwa [String.length_toList])⟩

end Html

end Highlighting

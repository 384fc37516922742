import Mathlib.Data.List.TakeWhile
import Highlighting.Proofs.JsonEmbedding
import Highlighting.Proofs.RecordCodec

/-!
# The two layouts of oracle files

Records that are written to a file are read back, in order and without loss, in either layout: a
record on each line, or one array. What else stands in the file does not matter. Lines that are
blank or that do not decode as a record are passed over, and so are items of the array that are
values but no records.

The two layouts have little in common on the way back. A line is read leniently and decoded as it
stands. An array is read strictly, as a whole, and its items are decoded in canonical form. So an
item that is no record has to be JSON, where a line that is no record may be anything.

## Main definitions

* `Oracle.Part`: a record as it is written, or any other text
* `Oracle.Part.IsLine`, `Oracle.Part.IsItem`: what may stand in a file of either layout
* `Oracle.asLines`, `Oracle.asArray`: the two layouts

## Main results

* `Oracle.ofLines_asLines`, `Oracle.parse_asArray`: either layout is read back
* `Oracle.parse_recovers_records`
-/

namespace Highlighting

namespace Oracle

open Json

/-! ### Parts of a file -/

/-- A part of a file: a line, or an item of an array. -/
inductive Part where
  /-- A record as it is written, with blank space behind it. -/
  | record (r : Record) (padding : String)
  /-- Any other text. -/
  | other (text : String)

namespace Part

/-- What stands in the file. -/
def text : Part → String
  | .record r padding => compact r.toJson ++ padding
  | .other text => text

/-- The record, if the part is one. -/
def record? : Part → Option Record
  | .record r _ => some r
  | .other _ => none

/-- The part can be a line. What is not a record is blank or does not decode as one. -/
def IsLine : Part → Prop
  | .record _ padding => ∀ c ∈ padding.toList, Reader.isSpace c = true ∧ c ≠ '\n'
  | .other text =>
    '\n' ∉ text.toList ∧ (Text.trim text.toList = [] ∨ ofLine? text.toList = none)

/-- The part can be an item of an array. What is not a record is a value that does not decode as
one. Inside of the array there is one level of nesting less for it than on its own; a value that has
been read strictly has a canonical form unless it nests too deeply. -/
def IsItem : Part → Prop
  | .record _ padding => ∀ c ∈ padding.toList, Reader.isSpace c = true
  | .other text =>
    ∃ v, readStrict text = .ok v ∧ (v.canonical? (maxDepth - 1)).isSome = true ∧ ofItems [v] = []

end Part

/-- A file with a part on each line. -/
def asLines (parts : List Part) : String :=
  String.intercalate "\n" (parts.map Part.text)

/-- A file that is an array. -/
def asArray (parts : List Part) : String :=
  "[" ++ String.intercalate "," (parts.map Part.text) ++ "]"

/-! ### Records as they are written -/

theorem readsAs_record {r : Record} (h : r.InRange) {padding : String}
    (hpadding : ∀ c ∈ padding.toList, Reader.isSpace c = true) (strict : Bool) :
    Reader.ReadsAs strict 4 (compact r.toJson ++ padding).toList r.toJson := by
  rw [String.toList_append]
  exact (readsAs_compact (Record.writable_toJson h) strict).append_spaces hpadding

/-! ### Lines -/

theorem ofLine?_record {r : Record} (h : r.InRange) {padding : String}
    (hpadding : ∀ c ∈ padding.toList, Reader.isSpace c = true) :
    ofLine? (compact r.toJson ++ padding).toList = some r := by
  have hread : read? (compact r.toJson ++ padding) = some r.toJson := by
    rw [read?, (readsAs_record h hpadding false).run_eq_ok (by decide)]
    rfl
  rw [ofLine?, String.ofList_toList, hread, Option.bind_some, Record.ofJson?_toJson h]

/-- No value begins with a blank. -/
theorem begin_of_isBlank (s : Reader.State) (strict : Bool) {c : Char} (h : Text.isBlank c = true) :
    s.begin strict c = .error .this := by
  have hdigit : ¬ c.isDigit = true := by
    intro hdigit
    obtain ⟨hzero, hnine⟩ := Char.isDigit_iff_toNat.mp hdigit
    have h48 : 48 ≤ c.toNat := hzero
    have h57 : c.toNat ≤ 57 := hnine
    simp only [Text.isBlank, Bool.or_eq_true, Bool.and_eq_true, decide_eq_true_eq, beq_iff_eq] at h
    omega
  unfold Reader.State.begin
  split
  case h_9 => rw [if_neg hdigit]
  all_goals exact absurd h (by decide)

theorem run_of_isBlank {line : List Char} (h : ∀ c ∈ line, Text.isBlank c = true) (n : Nat) :
    (({} : Reader.State).run false line n).toOption = none := by
  induction line generalizing n with
  | nil => rfl
  | cons c line ih =>
    obtain ⟨hc, hline⟩ := List.forall_mem_cons.mp h
    by_cases hspace : Reader.isSpace c = true
    · have hstep : ({} : Reader.State).step false c = .ok {} := if_pos hspace
      rw [Reader.State.run_of_step hstep, ih hline]
    · have hstep : ({} : Reader.State).step false c = .error .this :=
        (if_neg hspace).trans (begin_of_isBlank {} false hc)
      rw [Reader.State.run, hstep]
      rfl

theorem isBlank_of_trim_eq_nil {line : List Char} (h : Text.trim line = []) :
    ∀ c ∈ line, Text.isBlank c = true := by
  intro c hc
  rw [← List.takeWhile_append_dropWhile (p := Text.isBlank) (l := line), List.mem_append] at hc
  rw [Text.trim, List.reverse_eq_nil_iff, Text.trimStart, List.dropWhile_eq_nil_iff] at h
  rcases hc with hc | hc
  · exact List.mem_takeWhile_imp hc
  · exact h c (List.mem_reverse.mpr hc)

theorem Part.IsLine.ofLine?_text {part : Part} (h : part.IsLine)
    (hrange : ∀ r ∈ part.record?, r.InRange) : ofLine? part.text.toList = part.record? := by
  cases part with
  | record r padding => exact ofLine?_record (hrange r rfl) fun c hc => (h c hc).1
  | other text =>
    rcases h.2 with hblank | hother
    · show ofLine? text.toList = none
      rw [ofLine?, read?, String.toList_ofList, run_of_isBlank (isBlank_of_trim_eq_nil hblank),
        Option.bind_none]
    · exact hother

theorem Part.IsLine.newline_not_mem {part : Part} (h : part.IsLine)
    (hrange : ∀ r ∈ part.record?, r.InRange) : '\n' ∉ part.text.toList := by
  cases part with
  | record r padding =>
    rw [Part.text, String.toList_append, List.mem_append]
    rintro (hmem | hmem)
    · exact absurd (printable_of_mem_compact (Record.writable_toJson (hrange r rfl)) '\n' hmem)
        (by decide)
    · exact (h '\n' hmem).2 rfl
  | other text => exact h.1

theorem ofLines_asLines {parts : List Part} (h : ∀ part ∈ parts, part.IsLine)
    (hrange : ∀ part ∈ parts, ∀ r ∈ part.record?, r.InRange) :
    ofLines (asLines parts) = parts.filterMap Part.record? := by
  by_cases hnil : parts = []
  · -- Without parts there is still one line, which is empty.
    subst hnil
    rfl
  · have htext : (asLines parts).toList = ['\n'].intercalate (parts.map (·.text.toList)) := by
      rw [asLines, String.toList_intercalate, List.map_map]
      rfl
    have hlines : ∀ line ∈ parts.map (·.text.toList), '\n' ∉ line := by
      rw [List.forall_mem_map]
      exact fun part hpart => (h part hpart).newline_not_mem (hrange part hpart)
    rw [ofLines, htext, List.splitOn_intercalate '\n' hlines (by simpa using hnil),
      List.filterMap_map]
    refine List.filterMap_congr fun part hpart => ?_
    rw [Function.comp_apply, (h part hpart).ofLine?_text (hrange part hpart)]

/-! ### Items -/

theorem run_of_readStrict {text : String} {v : Json} (h : readStrict text = .ok v) :
    ({} : Reader.State).run true text.toList 0 = .ok v := by
  rw [readStrict] at h
  cases hrun : ({} : Reader.State).run true text.toList 0 with
  | error n => simp [hrun, Except.mapError] at h
  | ok w => simpa [hrun, Except.mapError] using h

theorem Part.IsItem.exists_readsAs {part : Part} (h : part.IsItem)
    (hrange : ∀ r ∈ part.record?, r.InRange) :
    ∃ v, Reader.ReadsAs true (maxDepth - 1) part.text.toList v
      ∧ ofItems [v] = part.record?.toList := by
  cases part with
  | record r padding =>
    refine ⟨r.toJson, (readsAs_record (hrange r rfl) h true).mono (by decide), ?_⟩
    have hdecode : (r.toJson.canonical? maxDepth).bind Record.ofJson? = some r :=
      Record.bind_canonical?_toJson (hrange r rfl) (maxDepth - 4)
    simp [ofItems, hdecode, record?]
  | other text =>
    obtain ⟨v, hread, hdepth, hother⟩ := h
    exact ⟨v, Reader.readsAs_of_run (run_of_readStrict hread) hdepth, hother⟩

theorem ofItems_cons (v : Json) (vs : List Json) : ofItems (v :: vs) = ofItems [v] ++ ofItems vs :=
  List.filterMap_append (l := [v])

theorem exists_items {parts : List Part} (h : ∀ part ∈ parts, part.IsItem)
    (hrange : ∀ part ∈ parts, ∀ r ∈ part.record?, r.InRange) :
    ∃ vs, List.Forall₂ (Reader.ReadsAs true (maxDepth - 1)) (parts.map (·.text.toList)) vs
      ∧ ofItems vs = parts.filterMap Part.record? := by
  induction parts with
  | nil => exact ⟨[], .nil, rfl⟩
  | cons part parts ih =>
    obtain ⟨hpart, hparts⟩ := List.forall_mem_cons.mp h
    obtain ⟨hrange, hranges⟩ := List.forall_mem_cons.mp hrange
    obtain ⟨v, hv, hrecord⟩ := hpart.exists_readsAs hrange
    obtain ⟨vs, hvs, hrecords⟩ := ih hparts hranges
    refine ⟨v :: vs, .cons hv hvs, ?_⟩
    rw [ofItems_cons, hrecord, hrecords]
    cases hr : part.record? <;> simp [hr]

theorem parse_asArray {parts : List Part} (h : ∀ part ∈ parts, part.IsItem)
    (hrange : ∀ part ∈ parts, ∀ r ∈ part.record?, r.InRange) :
    parse (asArray parts) = .ok (parts.filterMap Part.record?) := by
  obtain ⟨vs, hvs, hrecords⟩ := exists_items h hrange
  have htext : (asArray parts).toList
      = '[' :: [','].intercalate (parts.map (·.text.toList)) ++ [']'] := by
    rw [asArray, String.toList_append, String.toList_append, String.toList_intercalate,
      List.map_map]
    rfl
  have hread : readStrict (asArray parts) = .ok (.arr vs) := by
    rw [readStrict, htext, (Reader.ReadsAs.array hvs).run_eq_ok (by decide)]
    rfl
  have harray : isArray (asArray parts) = true := by
    rw [isArray, htext]
    rfl
  rw [parse, if_pos harray, hread]
  exact congrArg Except.ok hrecords

/-! ### Both layouts -/

/-- A file gives back the records that are written to it, whatever else stands in it: on lines,
among lines that are blank or do not decode as a record, unless the file as a whole looks like an
array, and in an array, among values that do not decode as a record. -/
theorem parse_recovers_records (records : List Record) (hrange : ∀ r ∈ records, r.InRange) :
    (∀ parts : List Part, parts.filterMap Part.record? = records →
        (∀ part ∈ parts, part.IsLine) → (Text.trimStart (asLines parts).toList).head? ≠ some '[' →
        parse (asLines parts) = .ok records)
      ∧ ∀ parts : List Part, parts.filterMap Part.record? = records →
        (∀ part ∈ parts, part.IsItem) → parse (asArray parts) = .ok records := by
  have hparts (parts : List Part) (h : parts.filterMap Part.record? = records) :
      ∀ part ∈ parts, ∀ r ∈ part.record?, r.InRange := by
    intro part hpart r hr
    exact hrange r (h ▸ List.mem_filterMap.mpr ⟨part, hpart, hr⟩)
  constructor
  · intro parts hrecords hlines hfirst
    have harray : isArray (asLines parts) = false := by
      simpa [isArray] using hfirst
    rw [parse, harray, ofLines_asLines hlines (hparts parts hrecords), hrecords]
    rfl
  · intro parts hrecords hitems
    rw [parse_asArray hitems (hparts parts hrecords), hrecords]

/-- Two records with little in common. One has the end of a file, which has no place and no
production, no origin, and a source that needs escapes; the other has all that may be missing. -/
theorem parse_recovers_records_between :
    let first : Record :=
      ⟨"a\r\n\"\t😀", none, [⟨⟨-1, -1, "<EOF>", TokenKind.endOfFile, none, "EOF"⟩, .any⟩]⟩
    let second : Record :=
      ⟨"", some ⟨some "u"⟩, [⟨⟨0, 8, "é", 7, some 3, "ID"⟩, .keyword⟩]⟩
    parse (asLines [.other "x", .record first "\r", .other " ", .record second "", .other ""])
        = .ok [first, second]
      ∧ parse (asArray [.other "[]", .record first "\n", .record second "", .other " null"])
        = .ok [first, second] := by
  intro first second
  have hrange : ∀ r ∈ [first, second], r.InRange := by decide
  obtain ⟨hlines, hitems⟩ := parse_recovers_records [first, second] hrange
  refine ⟨hlines _ rfl ?_ ?_, hitems _ rfl ?_⟩
  · have hother : ofLine? ['x'] = none := rfl
    simp [Part.IsLine, hother, Reader.isSpace, Text.trim, Text.trimStart, Text.isBlank]
  · simp [asLines, Part.text, Text.trimStart, Text.isBlank]
  · have hempty : readStrict "[]" = .ok (.arr []) := by
      rw [readStrict, show "[]".toList = ['[', ']'] by simp]
      rfl
    have hnull : readStrict " null" = .ok .null := by
      rw [readStrict, show " null".toList = [' ', 'n', 'u', 'l', 'l'] by simp]
      rfl
    have hfirst : (Part.record first "\n").IsItem := by simp [Part.IsItem, Reader.isSpace]
    have hsecond : (Part.record second "").IsItem := by simp [Part.IsItem]
    simp only [List.forall_mem_cons]
    exact ⟨⟨_, hempty, rfl, rfl⟩, hfirst, hsecond, ⟨_, hnull, rfl, rfl⟩, by simp⟩

end Oracle

end Highlighting

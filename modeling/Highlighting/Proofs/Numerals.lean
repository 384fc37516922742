import Mathlib.Data.Nat.Digits.Defs
import Highlighting.Proofs.Spelling
import Highlighting.Text.Numeral

/-!
# Numerals with blanks around them

A number that is written as text may have blanks around it, a sign and zeros in front. Such a text
is trimmed and then read from left to right, and each digit makes ten times as much of the number so
far.

`Text.Writes` says which integer a text stands for without trimming and reading. The text can be cut
into blanks, a numeral and blanks, and the digits of the numeral denote the number in base ten. This
does not say how far the blanks reach, but a numeral neither begins nor ends with a blank, which
leaves no choice (`Text.writes_iff`). A sign is no digit, so there is no choice within the numeral,
either (`Text.Denotes.unique`).

## Main definitions

* `Text.Digits`, `Text.valueOf`: digits and the number they denote
* `Text.Denotes`, `Text.Writes`: numerals, and texts that are numerals up to blanks

## Main results

* `Text.integer?_eq_some_iff`: reading a numeral gives what it denotes
* `Text.writes_iff`: trimming finds the numeral
-/

namespace Highlighting

namespace Text

/-! ### Digits and signs -/

/-- The characters are one or more digits. -/
def Digits (cs : List Char) : Prop := cs ≠ [] ∧ ∀ c ∈ cs, '0' ≤ c ∧ c ≤ '9'

/-- The number that digits denote in base ten, the last one for ones. -/
def valueOf (cs : List Char) : Nat := Nat.ofDigits 10 (cs.reverse.map digitValue)

/-- A numeral, digits with or without a sign, denotes an integer. -/
inductive Denotes : List Char → Int → Prop where
  | unsigned {cs : List Char} (h : Digits cs) : Denotes cs (valueOf cs)
  | plus {cs : List Char} (h : Digits cs) : Denotes ('+' :: cs) (valueOf cs)
  | minus {cs : List Char} (h : Digits cs) : Denotes ('-' :: cs) (-valueOf cs)

/-- A text is a numeral with blanks in front of it and behind it. -/
def Writes (text : String) (n : Int) : Prop :=
  ∃ before numeral after, text.toList = before ++ numeral ++ after ∧
    Blank before ∧ Blank after ∧ Denotes numeral n

variable {cs before after : List Char} {n : Int}

theorem isDigit_iff (c : Char) : c.isDigit = true ↔ '0' ≤ c ∧ c ≤ '9' := by
  rw [Char.isDigit, Bool.and_eq_true, decide_eq_true_iff, decide_eq_true_iff]
  rfl

theorem digits?_eq_some_iff {m : Nat} : digits? cs = some m ↔ Digits cs ∧ m = valueOf cs := by
  have hvalue : cs.foldl (fun n c => 10 * n + digitValue c) 0 = valueOf cs := by
    rw [valueOf, Nat.ofDigits_eq_foldr, List.foldr_map, List.foldr_reverse]
    simp [Nat.add_comm]
  have hdigits : ¬(cs.isEmpty || !cs.all Char.isDigit) ↔ Digits cs := by
    simp [Digits, isDigit_iff]
  rw [digits?, hvalue]
  by_cases h : Digits cs
  · rw [if_neg (hdigits.mpr h), Option.some.injEq, eq_comm]
    exact (and_iff_right h).symm
  · rw [if_pos (not_not.mp (hdigits.not.mpr h))]
    exact iff_of_false (by simp) fun hm => h hm.1

theorem map_digits?_eq_some_iff {f : Nat → Int} :
    (digits? cs).map f = some n ↔ Digits cs ∧ n = f (valueOf cs) := by
  rw [Option.map_eq_some_iff]
  constructor
  · rintro ⟨m, hm, rfl⟩
    obtain ⟨hdigits, rfl⟩ := digits?_eq_some_iff.mp hm
    exact ⟨hdigits, rfl⟩
  · rintro ⟨hdigits, rfl⟩
    exact ⟨_, digits?_eq_some_iff.mpr ⟨hdigits, rfl⟩, rfl⟩

theorem not_digits_cons {c : Char} (h : c.isDigit = false) : ¬Digits (c :: cs) := by
  rintro ⟨-, hdigits⟩
  rw [(isDigit_iff c).mpr (hdigits c List.mem_cons_self)] at h
  contradiction

theorem integer?_minus (cs : List Char) :
    integer? ('-' :: cs) = (digits? cs).map fun m : Nat => -(m : Int) := by
  cases h : digits? cs <;> simp [integer?, h]

theorem integer?_unsigned (hminus : ∀ ds, cs ≠ '-' :: ds) (hplus : ∀ ds, cs ≠ '+' :: ds) :
    integer? cs = (digits? cs).map Int.ofNat := by
  rw [integer?, natural?]
  · exact hplus
  · exact hminus

/-- **Reading a numeral gives what it denotes**, and reading anything else gives nothing. -/
theorem integer?_eq_some_iff : integer? cs = some n ↔ Denotes cs n := by
  -- A sign is no digit, so the first character decides which way of writing a numeral it can be.
  by_cases hminus : ∃ ds, cs = '-' :: ds
  · obtain ⟨ds, rfl⟩ := hminus
    rw [integer?_minus, map_digits?_eq_some_iff]
    constructor
    · rintro ⟨hdigits, rfl⟩
      exact .minus hdigits
    · rintro (hdigits | _ | hdigits)
      · exact absurd hdigits (not_digits_cons rfl)
      · exact ⟨hdigits, rfl⟩
  by_cases hplus : ∃ ds, cs = '+' :: ds
  · obtain ⟨ds, rfl⟩ := hplus
    show (digits? ds).map Int.ofNat = some n ↔ _
    rw [map_digits?_eq_some_iff]
    constructor
    · rintro ⟨hdigits, rfl⟩
      exact .plus hdigits
    · rintro (hdigits | hdigits | _)
      · exact absurd hdigits (not_digits_cons rfl)
      · exact ⟨hdigits, rfl⟩
  rw [integer?_unsigned (not_exists.mp hminus) (not_exists.mp hplus), map_digits?_eq_some_iff]
  constructor
  · rintro ⟨hdigits, rfl⟩
    exact .unsigned hdigits
  · rintro (hdigits | hdigits | hdigits)
    · exact ⟨hdigits, rfl⟩
    · exact absurd ⟨_, rfl⟩ hplus
    · exact absurd ⟨_, rfl⟩ hminus

theorem Denotes.unique {m : Int} (hn : Denotes cs n) (hm : Denotes cs m) : n = m :=
  Option.some.inj ((integer?_eq_some_iff.mpr hn).symm.trans (integer?_eq_some_iff.mpr hm))

/-! ### Blanks around a numeral -/

/-- The characters neither begin nor end with a blank, and there are some. -/
def Trimmed (cs : List Char) : Prop :=
  (∃ c, cs.head? = some c ∧ isBlank c = false) ∧ ∃ c, cs.getLast? = some c ∧ isBlank c = false

theorem isBlank_eq_false_of_digit {c : Char} (h : '0' ≤ c ∧ c ≤ '9') : isBlank c = false := by
  have hlow : 48 ≤ c.toNat := h.1
  have hhigh : c.toNat ≤ 57 := h.2
  rw [← Bool.not_eq_true]
  intro hblank
  simp only [isBlank, Bool.or_eq_true, Bool.and_eq_true, decide_eq_true_eq, beq_iff_eq] at hblank
  omega

theorem Digits.trimmed (h : Digits cs) : Trimmed cs := by
  obtain ⟨hne, hdigits⟩ := h
  have hfirst := isBlank_eq_false_of_digit (hdigits _ (List.head_mem hne))
  have hlast := isBlank_eq_false_of_digit (hdigits _ (List.getLast_mem hne))
  exact ⟨⟨_, List.head?_eq_some_head hne, hfirst⟩, _, List.getLast?_eq_some_getLast hne, hlast⟩

theorem Digits.trimmed_cons (h : Digits cs) {c : Char} (hc : isBlank c = false) :
    Trimmed (c :: cs) := by
  obtain ⟨d, hlast, hd⟩ := h.trimmed.2
  refine ⟨⟨c, rfl, hc⟩, d, ?_, hd⟩
  rw [List.getLast?_cons, hlast]
  rfl

theorem Denotes.trimmed (h : Denotes cs n) : Trimmed cs := by
  cases h with
  | unsigned h => exact h.trimmed
  | plus h => exact h.trimmed_cons rfl
  | minus h => exact h.trimmed_cons rfl

theorem trimStart_append {c : Char} (hbefore : Blank before) (hc : cs.head? = some c)
    (hblank : isBlank c = false) : trimStart (before ++ cs) = cs := by
  obtain ⟨rest, rfl⟩ := List.head?_eq_some_iff.mp hc
  rw [trimStart, List.dropWhile_append_of_pos hbefore,
    List.dropWhile_cons_of_neg (by simp [hblank])]

theorem Trimmed.trim_eq (h : Trimmed cs) (hbefore : Blank before) (hafter : Blank after) :
    trim (before ++ cs ++ after) = cs := by
  obtain ⟨⟨c, hhead, hc⟩, d, hlast, hd⟩ := h
  -- Trimming the end is trimming the start of the reversed text, where the last character is first.
  have hstart : trimStart (before ++ cs ++ after) = cs ++ after := by
    rw [List.append_assoc]
    exact trimStart_append hbefore (by rw [List.head?_append, hhead]; rfl) hc
  have hstop : trimStart (after.reverse ++ cs.reverse) = cs.reverse := by
    refine trimStart_append (fun x hx => hafter x (List.mem_reverse.mp hx)) ?_ hd
    rw [List.head?_reverse, hlast]
  rw [trim, hstart, List.reverse_append, hstop, List.reverse_reverse]

theorem exists_eq_trim (cs : List Char) :
    ∃ before after, cs = before ++ trim cs ++ after ∧ Blank before ∧ Blank after := by
  refine ⟨cs.takeWhile isBlank, ((trimStart cs).reverse.takeWhile isBlank).reverse, ?_,
    blank_takeWhile cs, fun x hx => blank_takeWhile _ x (List.mem_reverse.mp hx)⟩
  have hsplit (us : List Char) : us.takeWhile isBlank ++ trimStart us = us :=
    List.takeWhile_append_dropWhile
  rw [trim, List.append_assoc, ← List.reverse_append, hsplit, List.reverse_reverse, hsplit]

/-- **Trimming finds the numeral.** -/
theorem writes_iff {text : String} : Writes text n ↔ Denotes (trim text.toList) n := by
  constructor
  · rintro ⟨before, numeral, after, htext, hbefore, hafter, hn⟩
    rwa [htext, hn.trimmed.trim_eq hbefore hafter]
  · intro h
    obtain ⟨before, after, htext, hbefore, hafter⟩ := exists_eq_trim text.toList
    exact ⟨before, _, after, htext, hbefore, hafter, h⟩

end Text

end Highlighting

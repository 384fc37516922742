import Mathlib.Data.List.Forall2
import Highlighting.Json.Decode
import Highlighting.Json.Printer
import Highlighting.Json.Reader

/-!
# Reading JSON that has been written

A value is written on one line by `Json.compact`, and both readings give it back, the lenient one
and the strict one. This holds of values without doubles and within a limit of nesting, which is
what `Json.Writable` says: a double is not always the one that is nearest to its digits.

The reader goes through a text once, one character at a time, and knows nothing of where a value
ends until it has seen the character behind it. So the statement that is proved by induction, a
`Json.Reader.ReadsAs`, is about a text in the middle of another one: wherever a value may stand, and
whatever is already open there, reading the text comes to the same state as completing the value,
provided that what follows cannot belong to a number.

## Main definitions

* `Json.Reader.ReadsAs`: a text is read as a value wherever a value may stand
* `Json.Writable`: values that can be written and read back
* `Json.Printable`: characters that are no control characters

## Main results

* `Json.Reader.State.run_numeral`: a number is over where something else begins
* `Json.Reader.State.run_bracketed`: parts between brackets, for arrays and for objects
* `Json.readsAs_compact`: what is written is read back
* `Json.printable_of_mem_compact`: what is written stays on one line
-/

namespace Highlighting

namespace Json

namespace Reader

/-- Whether a number can be over behind what has been read of it. -/
def NumeralPhase.canEnd : NumeralPhase → Bool
  | .zero | .whole | .fraction | .exponent => true
  | .minus | .point | .mark | .sign => false

/-- Whether a character can follow a value. -/
def isDelimiter (c : Char) : Bool :=
  isSpace c || c == ',' || c == ']' || c == '\x7d'

/-- A text that is over, or goes on with something that cannot belong to the value before it. -/
def Ends (rest : List Char) : Prop :=
  ∀ c ∈ rest.head?, isDelimiter c = true

theorem ends_nil : Ends [] := by
  intro c hc
  cases hc

theorem ends_cons {c : Char} (h : isDelimiter c = true) (rest : List Char) : Ends (c :: rest) := by
  intro d hd
  cases hd
  exact h

/-- The member of an object, if its name can be read. -/
def member? (m : Option String × Json) : Option (String × Json) :=
  m.1.map (·, m.2)

theorem Frame.close_object (members : List (Option String × Json)) (name : Option String) :
    (Frame.object members name).close
      = ((members.reverse.mapM member?).map Json.obj).getD .unreadable := by
  rw [Frame.close]
  split
  · next h =>
    have hnone : members.reverse.mapM member? = none := h
    rw [hnone, Option.map_none, Option.getD_none]
  · next named h =>
    have hsome : members.reverse.mapM member? = some named := h
    rw [hsome, Option.map_some, Option.getD_some]

/-- A value may stand where the reader is. -/
def State.WantsValue (s : State) : Prop := s.focus = .value ∨ s.focus = .firstItem

/-- The text is read as the value wherever a value may stand, provided that as many levels of
nesting are left as are given. -/
def ReadsAs (strict : Bool) (depth : Nat) (text : List Char) (v : Json) : Prop :=
  ∀ s : State, s.WantsValue → (strict = true → s.depth + depth ≤ maxDepth) →
    ∀ rest, Ends rest → ∀ n,
      s.run strict (text ++ rest) n = (s.complete v).run strict rest (n + text.length)

namespace State

variable {strict : Bool} {s s' : State}

theorem run_of_step {c : Char} (h : s.step strict c = .ok s') (cs : List Char) (n : Nat) :
    s.run strict (c :: cs) n = s'.run strict cs (n + 1) := by
  rw [run, h]

@[simp] theorem complete_refocus (s : State) (f : Focus) (v : Json) :
    { s with focus := f }.complete v = s.complete v := by
  obtain ⟨_ | ⟨_ | _, _⟩, _, _, _⟩ := s <;> rfl

@[simp] theorem focus_complete (s : State) (v : Json) : (s.complete v).focus = .after := by
  obtain ⟨_ | ⟨_ | _, _⟩, _, _, _⟩ := s <;> rfl

theorem run_spaces (s : State) (v : Json) {spaces : List Char}
    (h : ∀ c ∈ spaces, isSpace c = true) (rest : List Char) (n : Nat) :
    (s.complete v).run strict (spaces ++ rest) n
      = (s.complete v).run strict rest (n + spaces.length) := by
  induction spaces generalizing n with
  | nil => rfl
  | cons c spaces ih =>
    obtain ⟨hc, hspaces⟩ := List.forall_mem_cons.mp h
    have hstep : (s.complete v).step strict c = .ok (s.complete v) := by
      rw [step, focus_complete]
      exact if_pos hc
    rw [List.cons_append, run_of_step hstep, ih hspaces, List.length_cons, Nat.add_right_comm,
      Nat.add_assoc]

/-! ### Strings -/

theorem run_inText (s : State) (t : OpenText) {c : Char} (hquote : c ≠ '"') (hback : c ≠ '\\')
    (hc : ¬ c < ' ') (rest : List Char) (n : Nat) :
    { s with focus := .text .plain t }.run strict (c :: rest) n
      = (s.inText t c).run strict rest (n + 1) := by
  refine run_of_step ?_ rest n
  simp [step, stepText, stepPlain, inText, hquote, hback, hc]

theorem run_backslash (s : State) (t : OpenText) (rest : List Char) (n : Nat) :
    { s with focus := .text .plain t }.run strict ('\\' :: rest) n
      = { s with focus := .text .escape t }.run strict rest (n + 1) :=
  run_of_step rfl rest n

theorem run_escape (s : State) (t : OpenText) {c d : Char}
    (h : ∀ s : State, s.stepEscape t c = .ok (s.inText t d)) (rest : List Char) (n : Nat) :
    { s with focus := .text .plain t }.run strict ('\\' :: c :: rest) n
      = (s.inText t d).run strict rest (n + 2) := by
  have hescape : ({ s with focus := .text .escape t } : State).step strict c
      = .ok (s.inText t d) := h _
  rw [run_backslash, run_of_step hescape]

theorem hexDigit?_digitChar : ∀ d < 16, Text.hexDigit? (Nat.digitChar d) = some d := by
  decide

theorem utf8Size_digitChar : ∀ d < 16, (Nat.digitChar d).utf8Size = 1 := by
  decide

theorem run_hexDigit (s : State) (t : OpenText) (k m : Nat) (high : Option Nat) {d : Nat}
    (hd : d < 16) (rest : List Char) (n : Nat) :
    { s with focus := .text (.hex (k + 2) (some m) high) t }.run strict (Nat.digitChar d :: rest) n
      = { s with focus := .text (.hex (k + 1) (some (16 * m + d)) high) t }.run strict rest
        (n + 1) := by
  refine run_of_step ?_ rest n
  simp [step, stepText, hexDigit?_digitChar d hd, utf8Size_digitChar d hd]

/-- The last digit of an escape by number completes a character, unless the number is half of a
surrogate pair. -/
theorem run_lastHexDigit (s : State) (t : OpenText) (m : Nat) {d : Nat} (hd : d < 16)
    (hm : 16 * m + d < 0xD800) (rest : List Char) (n : Nat) :
    { s with focus := .text (.hex 1 (some m) none) t }.run strict (Nat.digitChar d :: rest) n
      = (s.inText t (Char.ofNat (16 * m + d))).run strict rest (n + 1) := by
  have hhigh : isHigh (16 * m + d) = false := by
    simp only [isHigh, Bool.and_eq_false_imp, decide_eq_true_eq, decide_eq_false_iff_not]
    omega
  have hlow : isLow (16 * m + d) = false := by
    simp only [isLow, Bool.and_eq_false_imp, decide_eq_true_eq, decide_eq_false_iff_not]
    omega
  refine run_of_step ?_ rest n
  simp [step, stepText, hexDigit?_digitChar d hd, utf8Size_digitChar d hd, takeNumber, hhigh, hlow,
    inText]

theorem run_escapeNumber (s : State) (t : OpenText) {c : Char} (hc : c < ' ') (rest : List Char)
    (n : Nat) :
    { s with focus := .text .plain t }.run strict
        ('\\' :: 'u' :: '0' :: '0' :: Nat.digitChar (c.toNat / 16) :: Nat.digitChar (c.toNat % 16)
          :: rest) n
      = (s.inText t c).run strict rest (n + 6) := by
  have hnat : c.toNat < 32 := hc
  have hu : ({ s with focus := .text .escape t } : State).step strict 'u'
      = .ok { s with focus := .text (.hex 4 (some 0) none) t } := rfl
  rw [run_backslash, run_of_step hu]
  rw [show '0' = Nat.digitChar 0 from rfl, run_hexDigit s t 2 0 none (by omega),
    run_hexDigit s t 1 _ none (by omega), run_hexDigit s t 0 _ none (by omega),
    run_lastHexDigit s t _ (by omega) (by omega)]
  have hvalue : 16 * (16 * (16 * (16 * 0 + 0) + 0) + c.toNat / 16) + c.toNat % 16 = c.toNat := by
    omega
  rw [hvalue, Char.ofNat_toNat]

theorem run_escapeChar (s : State) (t : OpenText) (c : Char) (rest : List Char) (n : Nat) :
    { s with focus := .text .plain t }.run strict ((escapeChar c).toList ++ rest) n
      = (s.inText t c).run strict rest (n + (escapeChar c).toList.length) := by
  unfold escapeChar
  split
  case h_8 hquote hback _ _ _ _ _ =>
    split_ifs with hc
    · simpa using run_escapeNumber s t hc rest n
    · simpa using run_inText s t hquote hback hc rest n
  all_goals simpa using run_escape s t (fun _ => rfl) rest n

theorem run_escapeChars (s : State) (t : OpenText) (cs rest : List Char) (n : Nat) :
    { s with focus := .text .plain t }.run strict (cs.flatMap (escapeChar · |>.toList) ++ rest) n
      = { s with focus := .text .plain { t with chars := cs.reverse ++ t.chars } }.run strict rest
        (n + (cs.flatMap (escapeChar · |>.toList)).length) := by
  induction cs generalizing t n with
  | nil => rfl
  | cons c cs ih =>
    rw [List.flatMap_cons, List.append_assoc, run_escapeChar, inText, ih]
    simp [Nat.add_assoc]

theorem toList_stringText (text : String) :
    (stringText text).toList = '"' :: (text.toList.flatMap (escapeChar · |>.toList) ++ ['"']) := by
  simp [stringText, String.toList_join, List.flatMap_map]

theorem step_of_wantsValue (h : s.WantsValue) {c : Char} (hspace : isSpace c = false)
    (hc : c ≠ ']') : s.step strict c = s.begin strict c := by
  rcases h with h | h <;> simp [step, h, hspace, hc]

/-! ### Words -/

theorem run_word (s : State) (v : Json) {missing : List Char} (h : missing ≠ [])
    (rest : List Char) (n : Nat) :
    { s with focus := .word missing v }.run strict (missing ++ rest) n
      = (s.complete v).run strict rest (n + missing.length) := by
  induction missing generalizing n with
  | nil => exact absurd rfl h
  | cons c missing ih =>
    by_cases hm : missing = []
    · subst hm
      have hstep : ({ s with focus := .word [c] v } : State).step strict c
          = .ok (s.complete v) := by
        simp [step]
      rw [List.cons_append, run_of_step hstep]
      rfl
    · have hstep : ({ s with focus := .word (c :: missing) v } : State).step strict c
          = .ok { s with focus := .word missing v } := by
        simp [step, hm]
      rw [List.cons_append, run_of_step hstep, ih hm, List.length_cons, Nat.add_right_comm,
        Nat.add_assoc]

/-! ### Numbers -/

theorem completeNumeral_of_finish {x : Numeral} {v : Json} (h : finishNumeral x = v)
    (hv : v ≠ .unreadable) (s : State) : s.completeNumeral strict x = .ok (s.complete v) := by
  unfold completeNumeral
  rw [h]
  split
  · exact absurd rfl hv
  · rfl

theorem isDigit_eq_false_of_isDelimiter {c : Char} (h : isDelimiter c = true) :
    c.isDigit = false ∧ c ≠ '.' ∧ c ≠ 'e' ∧ c ≠ 'E' := by
  simp only [isDelimiter, isSpace, Bool.or_eq_true, beq_iff_eq] at h
  rcases h with (((((rfl | rfl) | rfl) | rfl) | rfl) | rfl) | rfl <;> decide

/-- A number that can be over is complete when something follows that cannot belong to it. -/
theorem run_numeral (s : State) {phase : NumeralPhase} {x : Numeral} {v : Json}
    (hphase : phase.canEnd = true) (hx : finishNumeral x = v) (hv : v ≠ .unreadable)
    {rest : List Char} (hrest : Ends rest) (n : Nat) :
    { s with focus := .numeral phase x }.run strict rest n = (s.complete v).run strict rest n := by
  have hdone (f : Focus) : ({ s with focus := f } : State).completeNumeral strict x
      = .ok (s.complete v) := by
    rw [completeNumeral_of_finish hx hv, complete_refocus]
  cases rest with
  | nil =>
    have hfinish : ({ s with focus := .numeral phase x } : State).finish? strict
        = (s.complete v).finish? strict := by
      cases phase <;> simp_all [finish?, NumeralPhase.canEnd]
    rw [run, run, hfinish]
  | cons c rest =>
    obtain ⟨hdigit, hpoint, hmark, hmark'⟩ := isDigit_eq_false_of_isDelimiter (hrest c rfl)
    -- The character that ends the number is also the first one behind it, in the same step.
    have hstep : ({ s with focus := .numeral phase x } : State).step strict c
        = (s.complete v).step strict c := by
      have hgoOn : ({ s with focus := .numeral phase x } : State).endNumeral strict x c
          = (s.complete v).goOn c := by
        rw [endNumeral, hdone]
        rfl
      cases phase <;> simp_all [step, stepNumeral, NumeralPhase.canEnd]
    rw [run, run, hstep]

theorem run_digits (s : State) (x : Numeral) {ds : List Char} (h : ∀ d ∈ ds, d.isDigit = true)
    (rest : List Char) (n : Nat) :
    { s with focus := .numeral .whole x }.run strict (ds ++ rest) n
      = ({ s with
          focus := .numeral .whole
            { x with whole := (ds.map (·.toNat - 48)).reverse ++ x.whole } } : State).run strict
        rest (n + ds.length) := by
  induction ds generalizing x n with
  | nil => rfl
  | cons d ds ih =>
    obtain ⟨hd, hds⟩ := List.forall_mem_cons.mp h
    have hstep : ({ s with focus := .numeral .whole x } : State).step strict d
        = .ok { s with
            focus := .numeral .whole { x with whole := (d.toNat - 48) :: x.whole } } := by
      simp [step, stepNumeral, hd]
    rw [List.cons_append, run_of_step hstep, ih _ hds]
    simp [Nat.add_assoc, Nat.add_comm 1]

theorem toList_toString_ofNat (m : Nat) : (toString (Int.ofNat m)).toList = Nat.toDigits 10 m := by
  simp [toString, Int.repr]

theorem toList_toString_negSucc (m : Nat) :
    (toString (Int.negSucc m)).toList = '-' :: Nat.toDigits 10 (m + 1) := by
  simp [toString, Int.repr]

theorem ofDigits_toDigits (m : Nat) :
    Numeral.ofDigits ((Nat.toDigits 10 m).map (·.toNat - 48)) = m := by
  rw [Numeral.ofDigits, List.foldl_map]
  exact Nat.ofDigitChars_toDigits (by omega) (by omega)

theorem digitChar_ne_zero : ∀ d < 10, 0 < d → Nat.digitChar d ≠ '0' := by
  decide

/-- The digits of a positive number do not begin with a zero. -/
theorem toDigits_eq_cons {m : Nat} (hm : 0 < m) :
    ∃ d ds, Nat.toDigits 10 m = d :: ds ∧ d ≠ '0' ∧ ∀ c ∈ d :: ds, c.isDigit = true := by
  have hdigits : ∀ c ∈ Nat.toDigits 10 m, c.isDigit = true := fun c hc =>
    Nat.isDigit_of_mem_toDigits (by omega) (by omega) hc
  suffices h : ∃ d ds, Nat.toDigits 10 m = d :: ds ∧ d ≠ '0' by
    obtain ⟨d, ds, hds, hd⟩ := h
    exact ⟨d, ds, hds, hd, hds ▸ hdigits⟩
  clear hdigits
  induction m using Nat.strongRecOn with
  | _ m ih =>
    by_cases h : m < 10
    · exact ⟨Nat.digitChar m, [], Nat.toDigits_of_lt_base h, digitChar_ne_zero m h hm⟩
    · obtain ⟨d, ds, hds, hd⟩ := ih (m / 10) (by omega) (by omega)
      refine ⟨d, ds ++ [Nat.digitChar (m % 10)], ?_, hd⟩
      rw [Nat.toDigits_eq_if (by omega), if_neg h, hds, List.cons_append]

theorem value_toDigits {m : Nat} (hm : m ≤ Numeral.maxSignificand) :
    ({ negative := false, whole := (Nat.toDigits 10 m).map (·.toNat - 48) } : Numeral).value
      = .int m := by
  simp [Numeral.value, ofDigits_toDigits, hm]

theorem value_minus_toDigits {m : Nat} (hpos : 0 < m) (hm : m ≤ Nat.pow 2 63) :
    ({ negative := true, whole := (Nat.toDigits 10 m).map (·.toNat - 48) } : Numeral).value
      = .int (-m) := by
  simp [Numeral.value, ofDigits_toDigits, hpos, hm]

/-- Digits behind the first one, which is no zero. -/
theorem run_whole (s : State) {negative : Bool} {d : Char} {ds : List Char} {v : Json}
    (hds : ∀ c ∈ ds, c.isDigit = true)
    (hv : ({ negative, whole := (d :: ds).map (·.toNat - 48) } : Numeral).value = v)
    (hv' : v ≠ .unreadable) {rest : List Char} (hrest : Ends rest) (n : Nat) :
    { s with focus := .numeral .whole { negative, whole := [d.toNat - 48] } }.run strict
        (ds ++ rest) n
      = (s.complete v).run strict rest (n + ds.length) := by
  have hfinish : finishNumeral
      { negative, whole := (ds.map (·.toNat - 48)).reverse ++ [d.toNat - 48] } = v := by
    simpa [finishNumeral] using hv
  rw [run_digits s _ hds, run_numeral s rfl hfinish hv' hrest]

theorem begin_digit (s : State) {d : Char} (hd : d.isDigit = true) (hzero : d ≠ '0') :
    s.begin strict d
      = .ok { s with focus := .numeral .whole { negative := false, whole := [d.toNat - 48] } } := by
  unfold begin
  split
  case h_8 => exact absurd rfl hzero
  case h_9 => rw [if_pos hd]
  all_goals exact absurd hd (by decide)

theorem isSpace_eq_false_of_isDigit {c : Char} (h : c.isDigit = true) :
    isSpace c = false ∧ c ≠ ']' := by
  constructor
  · by_contra hspace
    simp only [isSpace, Bool.or_eq_true, beq_iff_eq, Bool.not_eq_false] at hspace
    rcases hspace with ((rfl | rfl) | rfl) | rfl <;> exact absurd h (by decide)
  · rintro rfl
    exact absurd h (by decide)

theorem run_natural (h : s.WantsValue) {m : Nat} (hm : m ≤ Numeral.maxSignificand)
    {rest : List Char} (hrest : Ends rest) (n : Nat) :
    s.run strict (Nat.toDigits 10 m ++ rest) n
      = (s.complete (.int m)).run strict rest (n + (Nat.toDigits 10 m).length) := by
  have hvalue := value_toDigits hm
  rcases Nat.eq_zero_or_pos m with rfl | hpos
  · have hbegin : s.step strict '0'
        = .ok { s with focus := .numeral .zero { negative := false, whole := [0] } } :=
      step_of_wantsValue h rfl (by decide)
    rw [Nat.toDigits_zero, List.singleton_append, run_of_step hbegin]
    exact run_numeral s rfl (by simpa [finishNumeral] using hvalue) (by simp) hrest (n + 1)
  · obtain ⟨d, ds, hds, hzero, hdigits⟩ := toDigits_eq_cons hpos
    obtain ⟨hd, hds'⟩ := List.forall_mem_cons.mp hdigits
    obtain ⟨hspace, hbracket⟩ := isSpace_eq_false_of_isDigit hd
    rw [hds] at hvalue ⊢
    rw [List.cons_append,
      run_of_step ((step_of_wantsValue h hspace hbracket).trans (begin_digit s hd hzero)),
      run_whole s hds' hvalue (by simp) hrest, List.length_cons, Nat.add_right_comm, Nat.add_assoc]

theorem run_negative (h : s.WantsValue) {m : Nat} (hpos : 0 < m) (hm : m ≤ Nat.pow 2 63)
    {rest : List Char} (hrest : Ends rest) (n : Nat) :
    s.run strict ('-' :: Nat.toDigits 10 m ++ rest) n
      = (s.complete (.int (-m))).run strict rest (n + ('-' :: Nat.toDigits 10 m).length) := by
  have hbegin : s.step strict '-'
      = .ok { s with focus := .numeral .minus { negative := true, whole := [] } } :=
    step_of_wantsValue h rfl (by decide)
  have hvalue := value_minus_toDigits hpos hm
  obtain ⟨d, ds, hds, hzero, hdigits⟩ := toDigits_eq_cons hpos
  obtain ⟨hd, hds'⟩ := List.forall_mem_cons.mp hdigits
  have hstep : ({ s with focus := .numeral .minus { negative := true, whole := [] } } : State).step
      strict d
      = .ok { s with focus := .numeral .whole { negative := true, whole := [d.toNat - 48] } } := by
    simp [step, stepNumeral, hzero, hd]
  rw [hds] at hvalue ⊢
  rw [List.cons_append, run_of_step hbegin, List.cons_append, run_of_step hstep,
    run_whole s hds' hvalue (by simp) hrest, List.length_cons, List.length_cons]
  congr 1
  omega

/-! ### Arrays and objects -/

/-- The reader one level deeper, inside of an array or object. -/
def within (s : State) (frame : Frame) (focus : Focus) : State :=
  { s with stack := frame :: s.stack, depth := s.depth + 1, focus }

theorem push_eq_within (h : strict = true → s.depth + 1 ≤ maxDepth) (frame : Frame)
    (focus : Focus) : s.push strict frame focus = .ok (s.within frame focus) := by
  have hroom : ¬ ((strict && decide (maxDepth ≤ s.depth)) = true) := by
    intro hfull
    simp only [Bool.and_eq_true, decide_eq_true_eq] at hfull
    have := h hfull.1
    omega
  rw [push, if_neg hroom]
  rfl

theorem pop_within (s : State) (frame : Frame) (focus : Focus) :
    (s.within frame focus).pop = s.complete frame.close :=
  complete_refocus s focus frame.close

theorem ends_append {rest : List Char} (hrest : Ends rest) (texts : List (List Char)) :
    Ends (texts.flatMap (',' :: ·) ++ rest) := by
  cases texts with
  | nil => exact hrest
  | cons text texts => exact ends_cons rfl _

theorem intercalate_comma (text : List Char) (texts : List (List Char)) :
    [','].intercalate (text :: texts) = text ++ texts.flatMap (',' :: ·) := by
  induction texts generalizing text with
  | nil => simp
  | cons next texts ih =>
    rw [List.intercalate_cons_cons, ih, List.flatMap_cons, List.append_assoc, List.singleton_append,
      List.cons_append]

section Parts

-- The parts of an array or object, with the frame that holds them and what has to follow where the
-- first part or a later part may stand.
variable {α : Type} {frame : List α → Frame} {first later : Focus}
  {Reads : List Char → α → Prop}
  (hcomma : ∀ xs, (s.within (frame xs) .after).step strict ',' = .ok (s.within (frame xs) later))
  (hread : ∀ text x, Reads text x → ∀ xs f, f = first ∨ f = later → ∀ rest, Ends rest → ∀ n,
    (s.within (frame xs) f).run strict (text ++ rest) n
      = (s.within (frame (x :: xs)) .after).run strict rest (n + text.length))

include hcomma hread

/-- Parts behind the first one are read one after the other. -/
theorem run_laterParts {texts : List (List Char)} {xs : List α}
    (h : List.Forall₂ Reads texts xs) (before : List α) {rest : List Char} (hrest : Ends rest)
    (n : Nat) :
    (s.within (frame before) .after).run strict (texts.flatMap (',' :: ·) ++ rest) n
      = (s.within (frame (xs.reverse ++ before)) .after).run strict rest
        (n + (texts.flatMap (',' :: ·)).length) := by
  induction h generalizing before n with
  | nil => rfl
  | @cons text x texts xs hx _ ih =>
    rw [List.flatMap_cons, List.cons_append, List.cons_append, run_of_step (hcomma before),
      List.append_assoc, hread text x hx before later (.inr rfl) _ (ends_append hrest texts), ih]
    congr 1
    · simp
    · simp only [List.length_cons, List.length_append]
      omega

/-- Parts between brackets are read as what they make up. -/
theorem run_bracketed {left right : Char} (hright : isDelimiter right = true)
    (hopen : s.step strict left = .ok (s.within (frame []) first))
    (hclose : ∀ xs f, f = first ∨ f = .after →
      (s.within (frame xs) f).step strict right = .ok (s.complete (frame xs).close))
    {texts : List (List Char)} {xs : List α} (h : List.Forall₂ Reads texts xs) (rest : List Char)
    (n : Nat) :
    s.run strict (left :: [','].intercalate texts ++ [right] ++ rest) n
      = (s.complete (frame xs.reverse).close).run strict rest
        (n + (left :: [','].intercalate texts ++ [right]).length) := by
  rw [List.append_assoc, List.cons_append, run_of_step hopen, List.singleton_append]
  cases h with
  | nil => exact run_of_step (hclose [] first (.inl rfl)) rest (n + 1)
  | @cons text x texts xs hx hxs =>
    have hends : Ends (right :: rest) := ends_cons hright rest
    rw [intercalate_comma, List.append_assoc,
      hread text x hx [] first (.inl rfl) _ (ends_append hends texts),
      run_laterParts hcomma hread hxs [x] hends, run_of_step (hclose _ _ (.inr rfl)),
      List.reverse_cons]
    congr 1
    simp only [List.length_cons, List.length_append, List.length_nil]
    omega

end Parts

/-- The name of a member and the colon behind it. -/
theorem run_name (s : State) (members : List (Option String × Json)) {f : Focus}
    (hf : f = .firstName ∨ f = .nextName) (name : String) (rest : List Char) (n : Nat) :
    (s.within (.object members none) f).run strict ((stringText name).toList ++ ':' :: rest) n
      = (s.within (.object members (some name)) .value).run strict rest
        (n + ((stringText name).toList.length + 1)) := by
  have hbegin : (s.within (.object members none) f).step strict '"'
      = .ok { s.within (.object members none) f with focus := .text .plain ⟨true, [], true⟩ } := by
    rcases hf with rfl | rfl <;> rfl
  have hend : ({ s.within (.object members none) f with
      focus := .text .plain ⟨true, name.toList.reverse ++ [], true⟩ } : State).step strict '"'
      = .ok (s.within (.object members (some name)) .colon) := by
    simp [step, stepText, stepPlain, completeText, within]
  have hcolon : (s.within (.object members (some name)) .colon).step strict ':'
      = .ok (s.within (.object members (some name)) .value) := rfl
  rw [toList_stringText, List.cons_append, run_of_step hbegin, List.append_assoc, run_escapeChars,
    List.singleton_append, run_of_step hend, run_of_step hcolon]
  congr 1
  simp only [List.length_cons, List.length_append, List.length_nil]
  omega

end State

namespace ReadsAs

variable {strict : Bool} {depth : Nat}

theorem null : ReadsAs strict depth ['n', 'u', 'l', 'l'] .null := by
  intro s hs _ rest _ n
  have hbegin : s.step strict 'n' = .ok { s with focus := .word ['u', 'l', 'l'] .null } :=
    State.step_of_wantsValue hs rfl (by decide)
  rw [List.cons_append, State.run_of_step hbegin, State.run_word s .null (by simp)]
  rfl

theorem bool (b : Bool) : ReadsAs strict depth (compact (.bool b)).toList (.bool b) := by
  intro s hs _ rest _ n
  cases b with
  | true =>
    have hbegin : s.step strict 't'
        = .ok { s with focus := .word ['r', 'u', 'e'] (.bool true) } :=
      State.step_of_wantsValue hs rfl (by decide)
    have htext : (compact (.bool true)).toList = 't' :: ['r', 'u', 'e'] := by simp [compact]
    rw [htext, List.cons_append, State.run_of_step hbegin, State.run_word s _ (by simp)]
    rfl
  | false =>
    have hbegin : s.step strict 'f'
        = .ok { s with focus := .word ['a', 'l', 's', 'e'] (.bool false) } :=
      State.step_of_wantsValue hs rfl (by decide)
    have htext : (compact (.bool false)).toList = 'f' :: ['a', 'l', 's', 'e'] := by simp [compact]
    rw [htext, List.cons_append, State.run_of_step hbegin, State.run_word s _ (by simp)]
    rfl

theorem int {n : Int} (hmin : minInt ≤ n) (hmax : n ≤ Numeral.maxSignificand) :
    ReadsAs strict depth (toString n).toList (.int n) := by
  intro s hs _ rest hrest k
  cases n with
  | ofNat m =>
    rw [State.toList_toString_ofNat]
    exact State.run_natural hs (Int.ofNat_le.mp hmax) hrest k
  | negSucc m =>
    rw [State.toList_toString_negSucc]
    have hm : m + 1 ≤ Nat.pow 2 63 := by
      have hpow : minInt = -(Nat.pow 2 63 : Nat) := rfl
      omega
    exact State.run_negative hs (by omega) hm hrest k

theorem str (text : String) : ReadsAs strict depth (stringText text).toList (.str text) := by
  intro s hs _ rest _ n
  have hbegin : s.step strict '"' = .ok { s with focus := .text .plain ⟨false, [], true⟩ } :=
    State.step_of_wantsValue hs rfl (by decide)
  have hend : ({ s with
      focus := .text .plain ⟨false, text.toList.reverse ++ [], true⟩ } : State).step strict '"'
      = .ok (s.complete (.str text)) := by
    simp [State.step, State.stepText, State.stepPlain, State.completeText]
  rw [State.toList_stringText, List.cons_append, State.run_of_step hbegin, List.append_assoc,
    State.run_escapeChars, List.singleton_append, State.run_of_step hend]
  congr 1
  simp only [List.length_cons, List.length_append, List.length_nil]
  omega

/-- An array is read when its items are, with one more level of nesting. -/
theorem array {texts : List (List Char)} {vs : List Json}
    (h : List.Forall₂ (ReadsAs strict depth) texts vs) :
    ReadsAs strict (depth + 1) ('[' :: [','].intercalate texts ++ [']']) (.arr vs) := by
  intro s hs hdepth rest _ n
  have hopen : s.step strict '[' = .ok (s.within (.array []) .firstItem) :=
    (State.step_of_wantsValue hs rfl (by decide)).trans
      (State.push_eq_within (fun hstrict => by have := hdepth hstrict; omega) _ _)
  have hclose (items : List Json) (f : Focus) (hf : f = .firstItem ∨ f = .after) :
      (s.within (.array items) f).step strict ']'
        = .ok (s.complete (Frame.array items).close) := by
    rcases hf with rfl | rfl <;> exact congrArg Except.ok (State.pop_within s _ _)
  have hread (text : List Char) (v : Json) (hv : ReadsAs strict depth text v) (items : List Json)
      (f : Focus) (hf : f = .firstItem ∨ f = .value) :=
    hv (s.within (.array items) f) hf.symm fun hstrict => by
      have := hdepth hstrict
      show s.depth + 1 + depth ≤ maxDepth
      omega
  have hrun := State.run_bracketed (fun _ => rfl) hread rfl hopen hclose h rest n
  simpa only [Frame.close, List.reverse_reverse] using hrun

/-- The text of a member is its name and its value with a colon between them. -/
def Member (strict : Bool) (depth : Nat) (text : List Char) (m : String × Json) : Prop :=
  ∃ value, text = (stringText m.1).toList ++ ':' :: value ∧ ReadsAs strict depth value m.2

/-- The frame of an object all of whose names can be read. -/
def named (members : List (String × Json)) : Frame :=
  .object (members.map fun m => (some m.1, m.2)) none

theorem close_named (members : List (String × Json)) :
    (named members).close = .obj members.reverse := by
  have hmapM (members : List (String × Json)) :
      (members.map fun m => (some m.1, m.2)).mapM member? = some members := by
    induction members with
    | nil => rfl
    | cons m members ih => simp [member?, ih]
  rw [named, Frame.close_object, ← List.map_reverse, hmapM, Option.map_some, Option.getD_some]

/-- An object is read when the values of its members are, with one more level of nesting. -/
theorem object {texts : List (List Char)} {members : List (String × Json)}
    (h : List.Forall₂ (Member strict depth) texts members) :
    ReadsAs strict (depth + 1) ('\x7b' :: [','].intercalate texts ++ ['\x7d']) (.obj members) := by
  intro s hs hdepth rest _ n
  have hopen : s.step strict '\x7b' = .ok (s.within (named []) .firstName) :=
    (State.step_of_wantsValue hs rfl (by decide)).trans
      (State.push_eq_within (fun hstrict => by have := hdepth hstrict; omega) _ _)
  have hclose (members : List (String × Json)) (f : Focus) (hf : f = .firstName ∨ f = .after) :
      (s.within (named members) f).step strict '\x7d'
        = .ok (s.complete (named members).close) := by
    rcases hf with rfl | rfl <;> exact congrArg Except.ok (State.pop_within s _ _)
  have hread (text : List Char) (m : String × Json) (hm : Member strict depth text m)
      (members : List (String × Json)) (f : Focus) (hf : f = .firstName ∨ f = .nextName)
      (rest : List Char) (hrest : Ends rest) (n : Nat) :
      (s.within (named members) f).run strict (text ++ rest) n
        = (s.within (named (m :: members)) .after).run strict rest (n + text.length) := by
    obtain ⟨value, rfl, hvalue⟩ := hm
    have hinside : strict = true →
        (s.within (.object (members.map fun m => (some m.1, m.2)) (some m.1)) .value).depth + depth
          ≤ maxDepth := fun hstrict => by
      have := hdepth hstrict
      show s.depth + 1 + depth ≤ maxDepth
      omega
    rw [List.append_assoc, List.cons_append, named, State.run_name s _ hf,
      hvalue _ (.inl rfl) hinside _ hrest, List.length_append, List.length_cons]
    congr 1
    omega
  have hrun := State.run_bracketed (fun _ => rfl) hread rfl hopen hclose h rest n
  simpa only [close_named, List.reverse_reverse] using hrun

end ReadsAs

/-! ### Whole texts -/

namespace ReadsAs

variable {strict : Bool} {depth : Nat} {text : List Char} {v : Json}

theorem mono (h : ReadsAs strict depth text v) {depth' : Nat} (hdepth : depth ≤ depth') :
    ReadsAs strict depth' text v := fun s hs hroom =>
  h s hs fun hstrict => Nat.le_trans (Nat.add_le_add_left hdepth _) (hroom hstrict)

/-- Spaces behind a value belong to it as well as not. -/
theorem append_spaces (h : ReadsAs strict depth text v) {spaces : List Char}
    (hspaces : ∀ c ∈ spaces, isSpace c = true) : ReadsAs strict depth (text ++ spaces) v := by
  intro s hs hroom rest hrest n
  have hends : Ends (spaces ++ rest) := by
    cases spaces with
    | nil => exact hrest
    | cons c spaces =>
      have hc : isSpace c = true := hspaces c (by simp)
      exact ends_cons (by simp [isDelimiter, hc]) _
  rw [List.append_assoc, h s hs hroom _ hends, State.run_spaces s v hspaces, List.length_append,
    Nat.add_assoc]

theorem run_eq_ok (h : ReadsAs strict depth text v) (hdepth : depth ≤ maxDepth) (n : Nat) :
    ({} : State).run strict text n = .ok v := by
  have hroom : strict = true → ({} : State).depth + depth ≤ maxDepth := fun _ =>
    (Nat.zero_add depth).symm ▸ hdepth
  have hrun := h {} (.inl rfl) hroom [] ends_nil n
  rwa [List.append_nil] at hrun

end ReadsAs

end Reader

/-! ### Values as they are written -/

/-- A value that can be written and read back: there is no double and nothing unreadable in it, its
integers fit 64 bits, signed or unsigned, and it nests arrays and objects at most `depth` times. -/
def Writable : Nat → Json → Prop
  | _, .null | _, .bool _ | _, .str _ => True
  | _, .int n => minInt ≤ n ∧ n ≤ Numeral.maxSignificand
  | depth + 1, .arr items => ∀ v ∈ items, Writable depth v
  | depth + 1, .obj members => ∀ m ∈ members, Writable depth m.2
  | _, _ => False

@[simp] theorem writable_null (depth : Nat) : Writable depth .null := by
  cases depth <;> trivial

@[simp] theorem writable_str (depth : Nat) (text : String) : Writable depth (.str text) := by
  cases depth <;> trivial

@[simp] theorem writable_int (depth : Nat) (n : Int) :
    Writable depth (.int n) ↔ minInt ≤ n ∧ n ≤ Numeral.maxSignificand := by
  cases depth <;> rfl

theorem toList_compact_arr (items : List Json) :
    (compact (.arr items)).toList
      = '[' :: [','].intercalate (items.map (compact · |>.toList)) ++ [']'] := by
  have hitems (items : List Json) : compactItems items = items.map compact := by
    induction items with
    | nil => rfl
    | cons v items ih => rw [compactItems, ih, List.map_cons]
  rw [compact, hitems, String.toList_append, String.toList_append, String.toList_intercalate,
    List.map_map]
  rfl

theorem toList_compact_obj (members : List (String × Json)) :
    (compact (.obj members)).toList
      = '\x7b' :: [','].intercalate
          (members.map fun m => (stringText m.1).toList ++ ':' :: (compact m.2).toList)
        ++ ['\x7d'] := by
  have hmembers (members : List (String × Json)) : compactMembers members
      = members.map fun m => stringText m.1 ++ ":" ++ compact m.2 := by
    induction members with
    | nil => rfl
    | cons m members ih => rw [compactMembers, ih, List.map_cons]
  have hmember (m : String × Json) : (stringText m.1 ++ ":" ++ compact m.2).toList
      = (stringText m.1).toList ++ ':' :: (compact m.2).toList := by
    simp
  rw [compact, hmembers, String.toList_append, String.toList_append, String.toList_intercalate,
    List.map_map]
  simp only [Function.comp_def, hmember]
  rfl

/-- What is written is read back. -/
theorem readsAs_compact {depth : Nat} {v : Json} (h : Writable depth v) (strict : Bool) :
    Reader.ReadsAs strict depth (compact v).toList v := by
  fun_induction Writable depth v with
  | case1 => exact Reader.ReadsAs.null
  | case2 _ b => exact Reader.ReadsAs.bool b
  | case3 _ text => exact Reader.ReadsAs.str text
  | case4 _ n => exact Reader.ReadsAs.int h.1 h.2
  | case5 depth items ih =>
    rw [toList_compact_arr]
    refine Reader.ReadsAs.array ?_
    rw [List.forall₂_map_left_iff, List.forall₂_same]
    exact fun v hv => ih v (h v hv)
  | case6 depth members ih =>
    rw [toList_compact_obj]
    refine Reader.ReadsAs.object ?_
    rw [List.forall₂_map_left_iff, List.forall₂_same]
    exact fun m hm => ⟨_, rfl, ih m (h m hm)⟩
  | case7 => exact h.elim

/-! ### Characters that are written -/

/-- A character that is no control character. -/
def Printable (c : Char) : Prop := ' ' ≤ c

instance (c : Char) : Decidable (Printable c) := inferInstanceAs (Decidable (' ' ≤ c))

theorem printable_digitChar : ∀ d < 16, Printable (Nat.digitChar d) := by
  decide

theorem printable_of_isDigit {c : Char} (h : c.isDigit = true) : Printable c := by
  simp only [Char.isDigit, Bool.and_eq_true, decide_eq_true_eq] at h
  exact Char.le_trans (by decide : ' ' ≤ '0') h.1

theorem printable_of_mem_escapeChar {c d : Char} (h : d ∈ (escapeChar c).toList) :
    Printable d := by
  unfold escapeChar at h
  split at h
  case h_8 =>
    split_ifs at h with hc
    · have hnat : c.toNat < 32 := hc
      have hd : d = '\\' ∨ d = 'u' ∨ d = '0' ∨ d = Nat.digitChar (c.toNat / 16)
          ∨ d = Nat.digitChar (c.toNat % 16) := by
        simpa using h
      rcases hd with rfl | rfl | rfl | rfl | rfl
      · decide
      · decide
      · decide
      · exact printable_digitChar _ (by omega)
      · exact printable_digitChar _ (by omega)
    · have hd : d = c := by simpa using h
      exact hd ▸ Char.not_lt.mp hc
  all_goals
    revert d
    simp [Printable]

theorem printable_of_mem_int {n : Int} {c : Char} (h : c ∈ (toString n).toList) : Printable c := by
  cases n with
  | ofNat m =>
    rw [Reader.State.toList_toString_ofNat] at h
    exact printable_of_isDigit (Nat.isDigit_of_mem_toDigits (by omega) (by omega) h)
  | negSucc m =>
    rw [Reader.State.toList_toString_negSucc] at h
    rcases List.mem_cons.mp h with rfl | h
    · decide
    · exact printable_of_isDigit (Nat.isDigit_of_mem_toDigits (by omega) (by omega) h)

theorem printable_of_mem_stringText {text : String} {c : Char} (h : c ∈ (stringText text).toList) :
    Printable c := by
  simp only [Reader.State.toList_stringText, List.mem_cons, List.mem_append, List.mem_flatMap,
    List.not_mem_nil, or_false] at h
  rcases h with rfl | ⟨d, -, hc⟩ | rfl
  · decide
  · exact printable_of_mem_escapeChar hc
  · decide

theorem printable_of_mem_bracketed {left right : Char} (hleft : Printable left)
    (hright : Printable right) {texts : List (List Char)}
    (h : ∀ text ∈ texts, ∀ c ∈ text, Printable c) {c : Char}
    (hc : c ∈ left :: [','].intercalate texts ++ [right]) : Printable c := by
  have hparts : c ∈ [','].intercalate texts → Printable c := by
    cases texts with
    | nil => simp
    | cons text texts =>
      rw [Reader.State.intercalate_comma, List.mem_append, List.mem_flatMap]
      rintro (hc | ⟨later, hlater, hc⟩)
      · exact h text (by simp) c hc
      · rcases List.mem_cons.mp hc with rfl | hc
        · decide
        · exact h later (by simp [hlater]) c hc
  rcases List.mem_append.mp hc with hc | hc
  · rcases List.mem_cons.mp hc with rfl | hc
    · exact hleft
    · exact hparts hc
  · exact List.mem_singleton.mp hc ▸ hright

/-- What is written has no control characters, and so no ends of lines. -/
theorem printable_of_mem_compact {depth : Nat} {v : Json} (h : Writable depth v) :
    ∀ c ∈ (compact v).toList, Printable c := by
  fun_induction Writable depth v with
  | case1 => simp [compact, Printable]
  | case2 _ b => cases b <;> simp [compact, Printable]
  | case3 _ text => exact fun c hc => printable_of_mem_stringText hc
  | case4 _ n => exact fun c hc => printable_of_mem_int hc
  | case5 depth items ih =>
    rw [toList_compact_arr]
    intro c hc
    refine printable_of_mem_bracketed (by decide) (by decide) ?_ hc
    rw [List.forall_mem_map]
    exact fun v hv => ih v (h v hv)
  | case6 depth members ih =>
    rw [toList_compact_obj]
    intro c hc
    refine printable_of_mem_bracketed (by decide) (by decide) ?_ hc
    rw [List.forall_mem_map]
    intro m hm c hc
    rcases List.mem_append.mp hc with hc | hc
    · exact printable_of_mem_stringText hc
    · rcases List.mem_cons.mp hc with rfl | hc
      · decide
      · exact ih m (h m hm) c hc
  | case7 => exact h.elim

end Json

end Highlighting

import Highlighting.Baseline
import Highlighting.Proofs.HighlightCodec
import Highlighting.Proofs.Numerals

/-!
# What a baseline payload says

A baseline tool gives the category of a token as a number or as a text, and the two are read in
different ways: a number has to be an integer, and a text has to be a numeral, perhaps with blanks
around it. Either way the integer has to fit 64 bits before it is looked up among the ordinals,
which is why there are two errors. An integer that fits and is no ordinal is unknown. All else is no
integer as far as the decoder is concerned, even if it spells one out that is too large.

One bad triple spoils a payload, and of several the first one is reported. The triples behind it are
not looked at, so it does not matter which errors they would give. `Baseline.Culprit` is that
triple, and since it is determined (`Baseline.Culprit.unique`) it is enough to follow one run over
the triples: the run ends with tokens for all of them or at the culprit
(`Baseline.mapM_tokenAt_cases`).

## Main definitions

* `Baseline.Denotes`: the integer that a value stands for
* `Baseline.Triple.Valid`, `Baseline.Reads`, `Baseline.Blames`: a good triple and its token, a bad
  triple and its error
* `Baseline.Culprit`: the first bad triple
* `Baseline.Answers`: the right answer to a list of triples

## Main results

* `Baseline.ordinal?_eq_some_iff`: what is read is what is denoted, within 64 bits
* `Baseline.decode_names_first_culprit`: decoding succeeds as a whole or reports the first bad
  triple
-/

namespace Highlighting

/-! ### Ordinals -/

namespace Category

theorem map_ordinal_all : all.map ordinal = List.range 12 := by
  decide

theorem ofOrdinal?_eq_some_iff {n : Int} {c : Category} :
    ofOrdinal? n = some c ↔ (c.ordinal : Int) = n := by
  constructor
  · intro h
    cases n with
    | ofNat m =>
      have hm : (all.map ordinal)[m]? = some c.ordinal := by
        rw [List.getElem?_map]
        exact congrArg (Option.map ordinal) h
      rw [map_ordinal_all] at hm
      obtain ⟨_, hget⟩ := List.getElem?_eq_some_iff.mp hm
      rw [← hget, List.getElem_range]
      rfl
    | negSucc m => contradiction
  · rintro rfl
    exact ofOrdinal?_ordinal c

theorem exists_ordinal_iff {n : Int} :
    (∃ c : Category, (c.ordinal : Int) = n) ↔ 0 ≤ n ∧ n ≤ 11 := by
  constructor
  · rintro ⟨c, rfl⟩
    have hlt := c.ordinal_lt
    omega
  · rintro ⟨hlow, hhigh⟩
    obtain ⟨m, rfl⟩ := Int.eq_ofNat_of_zero_le hlow
    have hm : m < all.length := by
      show m < 12
      omega
    exact ⟨all[m], ofOrdinal?_eq_some_iff.mp (List.getElem?_eq_getElem hm)⟩

end Category

namespace Baseline

variable {v : Json} {n m : Int} {index : Nat} {t : Triple} {triples : List Triple}

/-- A value stands for an integer: it is the integer, or a text that writes it. -/
inductive Denotes : Json → Int → Prop where
  | number (n : Int) : Denotes (.int n) n
  | text {s : String} {n : Int} (h : Text.Writes s n) : Denotes (.str s) n

/-- The integer fits 64 bits. -/
def Fits (n : Int) : Prop := -2 ^ 63 ≤ n ∧ n < 2 ^ 63

theorem int?_eq_some_iff_fits : (Json.int n).int? = some m ↔ n = m ∧ Fits n := by
  have hmin : Json.minInt = -2 ^ 63 := by decide
  have hmax : Json.maxInt = 2 ^ 63 - 1 := by decide
  rw [Json.int?_eq_some_iff, Json.int.injEq, Fits, hmin, hmax]
  constructor <;> rintro ⟨rfl, hlow, hhigh⟩
  · exact ⟨rfl, hlow, by omega⟩
  · exact ⟨rfl, hlow, by omega⟩

/-- **What is read is what is denoted**, as long as it fits 64 bits. -/
theorem ordinal?_eq_some_iff : ordinal? v = some n ↔ Denotes v n ∧ Fits n := by
  constructor
  · intro h
    cases v with
    | int m =>
      obtain ⟨rfl, hfits⟩ := int?_eq_some_iff_fits.mp h
      exact ⟨.number m, hfits⟩
    | str s =>
      obtain ⟨m, hm, hn⟩ := Option.bind_eq_some_iff.mp h
      obtain ⟨rfl, hfits⟩ := int?_eq_some_iff_fits.mp hn
      exact ⟨.text (Text.writes_iff.mpr (Text.integer?_eq_some_iff.mp hm)), hfits⟩
    | _ => contradiction
  · rintro ⟨hn | hwrites, hfits⟩
    · exact int?_eq_some_iff_fits.mpr ⟨rfl, hfits⟩
    · rw [ordinal?, Text.integer?_eq_some_iff.mpr (Text.writes_iff.mp hwrites)]
      exact int?_eq_some_iff_fits.mpr ⟨rfl, hfits⟩

theorem Denotes.unique (hn : Denotes v n) (hm : Denotes v m) : n = m := by
  cases hn with
  | number => cases hm; rfl
  | text hn =>
    cases hm with
    | text hm => exact (Text.writes_iff.mp hn).unique (Text.writes_iff.mp hm)

/-! ### One triple -/

/-- The category of the triple stands for an ordinal. -/
def Triple.Valid (t : Triple) : Prop := ∃ n, Denotes t.category n ∧ 0 ≤ n ∧ n ≤ 11

/-- The token is what the triple says. -/
structure Reads (t : Triple) (token : Token) : Prop where
  /-- The text of the triple. -/
  text_eq : token.text = t.text
  /-- The label of the triple. -/
  label_eq : token.label = t.label
  /-- The category with the ordinal that the triple gives. -/
  denotes : Denotes t.category token.category.ordinal

/-- The error is what is said of a bad triple at a position. -/
inductive Blames (index : Nat) (t : Triple) : Error → Prop where
  /-- The category stands for an integer that fits, and so for one that is no ordinal. -/
  | unknown {n : Int} (hn : Denotes t.category n) (hfits : Fits n) :
      Blames index t (.unknownCategory index n)
  /-- The category stands for no integer, or for one that does not fit. -/
  | bad (h : ∀ n, Denotes t.category n → ¬Fits n) : Blames index t (.badCategory index t.category)

theorem fits_of_ordinal (h : 0 ≤ n ∧ n ≤ 11) : Fits n := by
  rw [Fits]
  omega

theorem Reads.valid {token : Token} (h : Reads t token) : t.Valid :=
  ⟨_, h.denotes, Category.exists_ordinal_iff.mp ⟨_, rfl⟩⟩

theorem Reads.unique {token token' : Token} (h : Reads t token) (h' : Reads t token') :
    token = token' := by
  obtain ⟨text, label, category⟩ := token
  obtain ⟨text', label', category'⟩ := token'
  obtain rfl : text = text' := h.text_eq.trans h'.text_eq.symm
  obtain rfl : label = label' := h.label_eq.trans h'.label_eq.symm
  obtain rfl : category = category' :=
    Category.ordinal_injective (Int.ofNat.inj (h.denotes.unique h'.denotes))
  rfl

theorem Blames.unique {e e' : Error} (h : Blames index t e) (h' : Blames index t e') : e = e' := by
  cases h with
  | unknown hn hfits =>
    cases h' with
    | unknown hm => rw [hn.unique hm]
    | bad hbad => exact absurd hfits (hbad _ hn)
  | bad hbad =>
    cases h' with
    | unknown hm hfits => exact absurd hfits (hbad _ hm)
    | bad => rfl

/-- **One triple** is a token, or what is wrong with it is said. -/
theorem tokenAt_cases (index : Nat) (t : Triple) :
    (∃ token, tokenAt index t = .ok token ∧ Reads t token) ∨
      ∃ e, tokenAt index t = .error e ∧ ¬t.Valid ∧ Blames index t e := by
  cases hordinal : ordinal? t.category with
  | none =>
    -- Nothing is read for two reasons, and both of them are one error.
    have hbad : ∀ n, Denotes t.category n → ¬Fits n := by
      intro n hn hfits
      rw [ordinal?_eq_some_iff.mpr ⟨hn, hfits⟩] at hordinal
      contradiction
    refine .inr ⟨_, by rw [tokenAt, hordinal], ?_, .bad hbad⟩
    rintro ⟨n, hn, hrange⟩
    exact hbad n hn (fits_of_ordinal hrange)
  | some n =>
    obtain ⟨hn, hfits⟩ := ordinal?_eq_some_iff.mp hordinal
    cases hcategory : Category.ofOrdinal? n with
    | none =>
      refine .inr ⟨_, by rw [tokenAt, hordinal]; dsimp only; rw [hcategory], ?_, .unknown hn hfits⟩
      rintro ⟨m, hm, hrange⟩
      obtain rfl := hn.unique hm
      obtain ⟨c, hc⟩ := Category.exists_ordinal_iff.mpr hrange
      rw [Category.ofOrdinal?_eq_some_iff.mpr hc] at hcategory
      contradiction
    | some c =>
      refine .inl ⟨⟨t.text, t.label, c⟩, by rw [tokenAt, hordinal]; dsimp only; rw [hcategory],
        rfl, rfl, ?_⟩
      rwa [Category.ofOrdinal?_eq_some_iff.mp hcategory]

/-! ### All triples -/

/-- The triple at a position is the first bad one. -/
structure Culprit (triples : List Triple) (index : Nat) (t : Triple) : Prop where
  /-- It stands at the position. -/
  getElem?_eq : triples[index]? = some t
  /-- It is bad. -/
  not_valid : ¬t.Valid
  /-- The triples in front of it are good. -/
  valid_before : ∀ j < index, ∀ u, triples[j]? = some u → u.Valid

theorem Culprit.of_head (h : ¬t.Valid) (triples : List Triple) : Culprit (t :: triples) 0 t :=
  ⟨rfl, h, by simp⟩

theorem Culprit.cons {u : Triple} (ht : t.Valid) (h : Culprit triples index u) :
    Culprit (t :: triples) (index + 1) u := by
  refine ⟨h.getElem?_eq, h.not_valid, fun j hj v hv => ?_⟩
  cases j with
  | zero => exact Option.some.inj hv ▸ ht
  | succ j => exact h.valid_before j (Nat.lt_of_succ_lt_succ hj) v hv

theorem Culprit.unique {index' : Nat} {t' : Triple} (h : Culprit triples index t)
    (h' : Culprit triples index' t') : index = index' ∧ t = t' := by
  have hindex : index = index' := by
    rcases Nat.lt_trichotomy index index' with hlt | heq | hgt
    · exact absurd (h'.valid_before _ hlt t h.getElem?_eq) h.not_valid
    · exact heq
    · exact absurd (h.valid_before _ hgt t' h'.getElem?_eq) h'.not_valid
  refine ⟨hindex, Option.some.inj ?_⟩
  rw [← h.getElem?_eq, ← h'.getElem?_eq, hindex]

theorem Culprit.not_forall_valid (h : Culprit triples index t) : ¬∀ u ∈ triples, u.Valid :=
  fun hall => h.not_valid (hall t (List.mem_of_getElem? h.getElem?_eq))

theorem valid_of_forall₂ {tokens : List Token} (h : List.Forall₂ Reads triples tokens) :
    ∀ t ∈ triples, t.Valid := by
  induction h with
  | nil => simp
  | cons ht _ ih => exact List.forall_mem_cons.mpr ⟨ht.valid, ih⟩

/-- **A run over triples** that are numbered from some position on. -/
theorem mapM_tokenAt_cases (first : Nat) (triples : List Triple) :
    (∃ tokens, (triples.zipIdx first).mapM (fun x => tokenAt x.2 x.1) = .ok tokens ∧
        List.Forall₂ Reads triples tokens) ∨
      ∃ e index t, (triples.zipIdx first).mapM (fun x => tokenAt x.2 x.1) = .error e ∧
        Culprit triples index t ∧ Blames (first + index) t e := by
  induction triples generalizing first with
  | nil => exact .inl ⟨[], rfl, .nil⟩
  | cons t triples ih =>
    rw [List.zipIdx_cons, List.mapM_cons]
    rcases tokenAt_cases first t with ⟨token, htoken, hreads⟩ | ⟨e, he, hvalid, hblames⟩
    · rw [htoken]
      rcases ih (first + 1) with ⟨tokens, htokens, hall⟩ | ⟨e, index, u, he, hculprit, hblames⟩
      · exact .inl ⟨token :: tokens, by rw [htokens]; rfl, .cons hreads hall⟩
      · refine .inr ⟨e, index + 1, u, by rw [he]; rfl, hculprit.cons hreads.valid, ?_⟩
        rwa [Nat.add_right_comm] at hblames
    · exact .inr ⟨e, 0, t, by rw [he]; rfl, .of_head hvalid triples, hblames⟩

/-- The answer to a list of triples is right: all tokens, or the error for the first bad triple. -/
structure Answers (triples : List Triple) (answer : Except Error (List Token)) : Prop where
  /-- There are tokens if all triples are good, and only then. -/
  succeeds_iff : (∃ tokens, answer = .ok tokens) ↔ ∀ t ∈ triples, t.Valid
  /-- The tokens are what the triples say, one by one. -/
  eq_ok_iff : ∀ tokens, answer = .ok tokens ↔ List.Forall₂ Reads triples tokens
  /-- The error is what is to be said of the first bad triple. -/
  eq_error_iff : ∀ e, answer = .error e ↔ ∃ index t, Culprit triples index t ∧ Blames index t e

theorem Answers.of_ok {tokens : List Token} (h : List.Forall₂ Reads triples tokens) :
    Answers triples (.ok tokens) := by
  have hvalid := valid_of_forall₂ h
  refine ⟨iff_of_true ⟨tokens, rfl⟩ hvalid, fun tokens' => ?_, fun e => ?_⟩
  · constructor
    · intro heq
      obtain rfl := Except.ok.inj heq
      exact h
    · intro h'
      have hunique : Relator.RightUnique Reads := fun _ _ _ => Reads.unique
      rw [hunique.forall₂ h h']
  · refine iff_of_false (by simp) ?_
    rintro ⟨index, t, hculprit, -⟩
    exact hculprit.not_forall_valid hvalid

theorem Answers.of_error {e : Error} (h : Culprit triples index t) (he : Blames index t e) :
    Answers triples (.error e) := by
  refine ⟨iff_of_false (by simp) h.not_forall_valid, fun tokens => ?_, fun e' => ?_⟩
  · refine iff_of_false (by simp) ?_
    intro hall
    exact h.not_forall_valid (valid_of_forall₂ hall)
  · constructor
    · intro heq
      obtain rfl := Except.error.inj heq
      exact ⟨index, t, h, he⟩
    · rintro ⟨index', t', h', he'⟩
      obtain ⟨rfl, rfl⟩ := h.unique h'
      rw [he.unique he']

/-- **Decoding is all or nothing, and names the first culprit.** A list of triples gives tokens
exactly if the category of every triple stands for a number from `0` to `11`, written as a number or
as a text, and then every token has the text and the label of its triple, and the category with that
ordinal. Otherwise the first bad triple is reported: as unknown with its number, if that is an
integer of 64 bits, and as no integer with the value as it is, in all other cases. A payload that
consists of these triples is decoded in the same way. -/
theorem decode_names_first_culprit (triples : List Triple) :
    Answers triples (ofTriples triples) ∧
      ∀ payload, triples? payload = some triples → Answers triples (decode payload) := by
  have hanswers : Answers triples (ofTriples triples) := by
    show Answers triples (triples.zipIdx.mapM fun x => tokenAt x.2 x.1)
    rcases mapM_tokenAt_cases 0 triples with ⟨tokens, hrun, hall⟩ | ⟨e, index, t, hrun, hfirst, he⟩
    · rw [hrun]
      exact .of_ok hall
    · rw [Nat.zero_add] at he
      rw [hrun]
      exact .of_error hfirst he
  refine ⟨hanswers, ?_⟩
  intro payload hpayload
  rw [decode, hpayload]
  exact hanswers

/-- The theorem at a payload with a good triple, written with a sign, zeros and blanks, and two bad
ones behind it. The second of these is never looked at. -/
theorem decode_names_first_culprit_twelve :
    let good : Triple := ⟨"int", .str "k", .str " +0001\u2003"⟩
    let twelve : Triple := ⟨"x", .null, .int 12⟩
    let word : Triple := ⟨"y", .null, .str "kw"⟩
    triples? "[[\"int\",\"k\",\" +0001\u2003\"],[\"x\",null,12],[\"y\",null,\"kw\"]]"
        = some [good, twelve, word] ∧
      decode "[[\"int\",\"k\",\" +0001\u2003\"],[\"x\",null,12],[\"y\",null,\"kw\"]]"
        = .error (.unknownCategory 1 12) ∧
      ofTriples [good] = .ok [⟨"int", .str "k", .keyword⟩] := by
  intro good twelve word
  have hone : Denotes good.category 1 :=
    .text (Text.writes_iff.mpr (Text.integer?_eq_some_iff.mp (by decide)))
  have htwelve : ¬twelve.Valid := by
    rintro ⟨n, hn, -, hle⟩
    cases hn
    contradiction
  have hculprit : Culprit [good, twelve, word] 1 twelve :=
    (Culprit.of_head htwelve [word]).cons ⟨1, hone, by decide, by decide⟩
  obtain ⟨-, hdecode⟩ := decode_names_first_culprit [good, twelve, word]
  obtain ⟨hgood, -⟩ := decode_names_first_culprit [good]
  have htriples : triples?
      "[[\"int\",\"k\",\" +0001\u2003\"],[\"x\",null,12],[\"y\",null,\"kw\"]]"
        = some [good, twelve, word] := by
    rfl
  refine ⟨htriples, ?_, ?_⟩
  · refine ((hdecode _ htriples).eq_error_iff _).mpr ⟨1, twelve, hculprit, ?_⟩
    exact .unknown (.number 12) (by rw [Fits]; decide)
  · exact (hgood.eq_ok_iff _).mpr (.cons ⟨rfl, rfl, hone⟩ .nil)

end Baseline

end Highlighting

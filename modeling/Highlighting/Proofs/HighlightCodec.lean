import Mathlib.Data.List.Basic
import Mathlib.Logic.Function.Basic
import Highlighting.Proofs.RecordCodec

/-!
# Highlights as JSON values and back

The two directions of the codec of highlights are not written alike. Encoding leaves a member out if
there is no production, adds one for the colour that nobody reads, and writes the end of a file as
`-1`. Decoding takes records as objects or as arrays, reads every negative number as the end of a
file, and every number that belongs to no production as none at all. So many values stand for one
highlight, and only one of them is written.

A decoder of records looks at fields and at nothing else. What it finds in them can be said with a
function that gives a value, or none, for the name of a field: `TokenRecord.ReadBy` and
`Highlight.ReadBy` say what the function has to give for a record to be read. Then it does not
matter whether the function comes from the members of an object or from the items of an array, and
changing one member of an object changes the function in one place (`Json.fields?_assign`).

## Main definitions

* `Json.given?`: what an object or an array gives for a field
* `Json.assign`: an object with one member set or left out
* `TokenRecord.ReadBy`, `Highlight.ReadBy`: a record is read from its fields
* `Json.IsEndOfFile`, `Json.IsNoRule`: the values that stand for the end of a file and for no
  production

## Main results

* `TokenRecord.readBy_of_ofJson?`, `Highlight.readBy_of_ofJson?`: what is decoded is what is read
  from the fields
* `Highlight.json_round_trip`: what is written is decoded to the same highlight, and what is decoded
  can be written
-/

namespace Highlighting

namespace Json

/-! ### Fields by name -/

/-- What a value gives for one of the fields of a record: the member of that name, or the item in
its place. -/
def given? (names : List String) (v : Json) (name : String) : Option Json :=
  match v with
  | .obj members => (members.find? (·.1 == name)).map (·.2)
  | .arr items => items[names.idxOf name]?
  | _ => none

/-- The members with the one of that name set to a value, or left out. -/
def assign (name : String) (v? : Option Json) (members : List (String × Json)) :
    List (String × Json) :=
  members.filter (·.1 != name) ++ (v?.map (name, ·)).toList

variable {names : List String} {members : List (String × Json)}

theorem mapM_eq_some_map_iff {α β : Type} {f : α → Option β} {g : α → β} {xs : List α} :
    xs.mapM f = some (xs.map g) ↔ ∀ x ∈ xs, f x = some (g x) := by
  induction xs with
  | nil => simp
  | cons x xs ih =>
    rw [List.forall_mem_cons, ← ih]
    simp [Option.bind_eq_some_iff]

theorem field?_assign_self (name : String) (v? : Option Json) :
    field? (assign name v? members) name = some v? := by
  have hothers : (members.filter (·.1 != name)).filter (·.1 == name) = [] := by
    simp [List.filter_eq_nil_iff]
  rw [field?, assign, List.filter_append, hothers]
  cases v? <;> simp

theorem field?_assign_of_ne {name other : String} (h : other ≠ name) (v? : Option Json) :
    field? (assign name v? members) other = field? members other := by
  have hothers : (members.filter (·.1 != name)).filter (·.1 == other)
      = members.filter (·.1 == other) := by
    rw [List.filter_filter]
    refine List.filter_congr fun m _ => ?_
    by_cases hm : m.1 = other <;> simp [hm, h]
  rw [field?, field?, assign, List.filter_append, hothers]
  cases v? <;> simp [Ne.symm h]

theorem given?_of_field? {name : String} {v? : Option Json} (h : field? members name = some v?) :
    (obj members).given? names name = v? := by
  rw [given?, ← List.head?_filter]
  unfold field? at h
  generalize members.filter (·.1 == name) = given at h
  obtain _ | ⟨m, _ | ⟨n, given⟩⟩ := given
  · exact Option.some.inj h
  · exact Option.some.inj h
  · contradiction

theorem eq_map_of_mapM_eq_some {α β : Type} {f : α → Option β} {g : α → β}
    (hfg : ∀ x y, f x = some y → g x = y) {xs : List α} {ys : List β} (h : xs.mapM f = some ys) :
    ys = xs.map g := by
  induction xs generalizing ys with
  | nil => simpa using h.symm
  | cons x xs ih =>
    rw [List.mapM_cons] at h
    obtain ⟨y, hy, h⟩ := Option.bind_eq_some_iff.mp h
    obtain ⟨rest, hrest, h⟩ := Option.bind_eq_some_iff.mp h
    obtain rfl := Option.some.inj h
    rw [List.map_cons, hfg x y hy, ih hrest]

/-- The fields of a value are what it gives for their names. -/
theorem fields?_eq_map (hnames : names.Nodup) {v : Json} {fields : List (Option Json)}
    (h : v.fields? names = some fields) : fields = names.map (v.given? names) := by
  cases v with
  | obj members =>
    exact eq_map_of_mapM_eq_some (fun name v? hv => given?_of_field? hv) h
  | arr items =>
    simp only [fields?, Option.ite_none_right_eq_some, Option.some.injEq] at h
    obtain ⟨hlength, rfl⟩ := h
    refine List.ext_getElem (by simp [hlength]) fun i hi hi' => ?_
    rw [List.length_map] at hi'
    rw [List.getElem_map, given?, hnames.idxOf_getElem i hi', List.getElem_append]
    by_cases hitem : i < items.length
    · simp [hitem]
    · simp [hitem]
  | _ => simp [fields?] at h

/-- **Changing one member of an object** changes what it gives in one place. -/
theorem fields?_assign {g : String → Option Json}
    (h : (obj members).fields? names = some (names.map g)) (name : String) (v? : Option Json) :
    (obj (assign name v? members)).fields? names
      = some (names.map (Function.update g name v?)) := by
  rw [fields?, mapM_eq_some_map_iff] at h ⊢
  intro n hn
  by_cases hne : n = name
  · rw [hne, field?_assign_self, Function.update_self]
  · rw [field?_assign_of_ne hne, h n hn, Function.update_of_ne hne]

/-! ### Numbers -/

theorem int?_eq_some_iff {v : Json} {n : Int} :
    v.int? = some n ↔ v = .int n ∧ minInt ≤ n ∧ n ≤ maxInt := by
  cases v with
  | int m =>
    simp only [int?, Bool.and_eq_true, decide_eq_true_eq, Option.ite_none_right_eq_some,
      Option.some.injEq, Json.int.injEq]
    constructor
    · rintro ⟨hrange, rfl⟩
      exact ⟨rfl, hrange⟩
    · rintro ⟨rfl, hrange⟩
      exact ⟨hrange, rfl⟩
  | _ => simp [int?]

/-- The value stands for the kind of the end of a file. -/
def IsEndOfFile (v? : Option Json) : Prop := ∃ n, v? = some (.int n) ∧ (n < 0 ∨ n = 65535)

/-- The value stands for no production: it is missing, or `null`, or a number of no production. -/
def IsNoRule (v? : Option Json) : Prop :=
  v? = none ∨ v? = some .null ∨ ∃ n, v? = some (.int n) ∧ (n < 0 ∨ 65535 < n)

/-- If the value is an integer, then it is one of 64 bits. -/
def FitsInt (v? : Option Json) : Prop := ∀ n, v? = some (.int n) → minInt ≤ n ∧ n ≤ maxInt

end Json

open Json

theorem uint16?_eq_some_iff {n : Int} {m : UInt16} : uint16? n = some m ↔ n = m.toNat := by
  constructor
  · intro h
    cases n with
    | ofNat n =>
      simp only [uint16?, Option.ite_none_right_eq_some, Option.some.injEq] at h
      obtain ⟨hlt, rfl⟩ := h
      simp [Nat.toUInt16, Nat.mod_eq_of_lt hlt]
    | negSucc n => contradiction
  · rintro rfl
    exact uint16?_toNat m

theorem uint16?_eq_none_iff {n : Int} : uint16? n = none ↔ n < 0 ∨ 65535 < n := by
  cases n with
  | ofNat n =>
    simp only [uint16?, ite_eq_right_iff, Option.some_ne_none, imp_false, Int.ofNat_eq_natCast]
    omega
  | negSucc n =>
    simp only [uint16?, true_iff]
    omega

namespace TokenKind

/-- **Which values stand for the end of a file**, of those that stand for a kind. -/
theorem eq_endOfFile_iff {v? : Option Json} {kind : TokenKind}
    (h : v?.bind TokenKind.ofJson? = some kind) : kind = endOfFile ↔ IsEndOfFile v? := by
  cases v? with
  | none => contradiction
  | some v =>
    have h : TokenKind.ofJson? v = some kind := h
    obtain ⟨n, hint, hkind⟩ := Option.bind_eq_some_iff.mp h
    obtain ⟨rfl, -⟩ := int?_eq_some_iff.mp hint
    have hvalue : IsEndOfFile (some (.int n)) ↔ n < 0 ∨ n = 65535 := by simp [IsEndOfFile]
    have hlast : kind = endOfFile ↔ kind.toNat = 65535 := UInt16.toNat_inj.symm
    rw [hvalue]
    split_ifs at hkind with hneg
    · simp [(Option.some.inj hkind).symm, hneg]
    · rw [uint16?_eq_some_iff] at hkind
      rw [hlast]
      omega

theorem ofJson?_of_isEndOfFile {v? : Option Json} (h : IsEndOfFile v?) (hfits : FitsInt v?) :
    v?.bind TokenKind.ofJson? = some endOfFile := by
  obtain ⟨n, rfl, hn⟩ := h
  rw [Option.bind_some, TokenKind.ofJson?, int?_int (hfits n rfl), Option.bind_some]
  split_ifs with hneg
  · rfl
  · exact uint16?_eq_some_iff.mpr (hn.resolve_left hneg)

end TokenKind

namespace RuleId

theorem ofJson?_int (n : Int) : RuleId.ofJson? (.int n) = (Json.int n).int?.map uint16? := by
  show ((Json.int n).int?.map some).map (·.bind uint16?) = _
  rw [Option.map_map]
  rfl

/-- **Which values stand for no production**, of those that stand for one or for none. -/
theorem eq_none_iff {v? : Option Json} {parent : Option RuleId}
    (h : v?.elim (some none) RuleId.ofJson? = some parent) : parent = none ↔ IsNoRule v? := by
  cases v? with
  | none =>
    obtain rfl := Option.some.inj h
    simp [IsNoRule]
  | some v =>
    replace h : RuleId.ofJson? v = some parent := h
    cases v with
    | null =>
      obtain rfl := Option.some.inj h
      simp [IsNoRule]
    | int n =>
      have hvalue : IsNoRule (some (.int n)) ↔ n < 0 ∨ 65535 < n := by simp [IsNoRule]
      rw [ofJson?_int] at h
      obtain ⟨m, hint, rfl⟩ := Option.map_eq_some_iff.mp h
      obtain ⟨hm, -⟩ := int?_eq_some_iff.mp hint
      obtain rfl := Json.int.inj hm
      rw [hvalue, uint16?_eq_none_iff]
    | _ => contradiction

theorem ofJson?_of_isNoRule {v? : Option Json} (h : IsNoRule v?) (hfits : FitsInt v?) :
    v?.elim (some none) RuleId.ofJson? = some none := by
  rcases h with rfl | rfl | ⟨n, rfl, hn⟩
  · rfl
  · rfl
  · show RuleId.ofJson? (.int n) = some none
    rw [ofJson?_int, int?_int (hfits n rfl), Option.map_some, uint16?_eq_none_iff.mpr hn]

end RuleId

/-! ### Records and highlights, field by field -/

namespace TokenRecord

/-- The names of the fields of a token record, in order. -/
def names : List String :=
  ["startIndex", "stopIndex", "text", "tokenRule", "parentRule", "symbolicName"]

/-- The token record is read from the values of its fields. -/
structure ReadBy (r : TokenRecord) (g : String → Option Json) : Prop where
  start : (g "startIndex").bind Json.int? = some r.start
  stop : (g "stopIndex").bind Json.int? = some r.stop
  text : (g "text").bind Json.str? = some r.text
  kind : (g "tokenRule").bind TokenKind.ofJson? = some r.kind
  parent : (g "parentRule").elim (some none) RuleId.ofJson? = some r.parent
  name : (g "symbolicName").elim (some "") Json.str? = some r.name

variable {v : Json} {r : TokenRecord} {g : String → Option Json}

theorem ofJson?_of_readBy (hfields : v.fields? names = some (names.map g)) (h : r.ReadBy g) :
    ofJson? v = some r := by
  rw [names] at hfields
  simp [ofJson?, hfields, h.start, h.stop, h.text, h.kind, h.parent, h.name]

/-- **What is decoded is what is read from the fields.** -/
theorem readBy_of_ofJson? (h : ofJson? v = some r) :
    v.fields? names = some (names.map (v.given? names)) ∧ r.ReadBy (v.given? names) := by
  obtain ⟨fields, hfields, hread⟩ := Option.bind_eq_some_iff.mp h
  replace hfields : v.fields? names = some fields := hfields
  obtain rfl := fields?_eq_map (by decide) hfields
  refine ⟨hfields, ?_⟩
  obtain ⟨start, hstart, hread⟩ := Option.bind_eq_some_iff.mp hread
  obtain ⟨stop, hstop, hread⟩ := Option.bind_eq_some_iff.mp hread
  obtain ⟨text, htext, hread⟩ := Option.bind_eq_some_iff.mp hread
  obtain ⟨kind, hkind, hread⟩ := Option.bind_eq_some_iff.mp hread
  obtain ⟨parent, hparent, hread⟩ := Option.bind_eq_some_iff.mp hread
  obtain ⟨name, hname, hread⟩ := Option.bind_eq_some_iff.mp hread
  obtain rfl := Option.some.inj hread
  exact ⟨hstart, hstop, htext, hkind, hparent, hname⟩

theorem ReadBy.inRange (h : r.ReadBy g) : r.InRange := by
  obtain ⟨u, -, hstart⟩ := Option.bind_eq_some_iff.mp h.start
  obtain ⟨w, -, hstop⟩ := Option.bind_eq_some_iff.mp h.stop
  exact ⟨(int?_eq_some_iff.mp hstart).2, (int?_eq_some_iff.mp hstop).2⟩

/-- Another value for the kind is read as the record with that kind. -/
theorem ReadBy.update_kind (h : r.ReadBy g) {v? : Option Json} {kind : TokenKind}
    (hkind : v?.bind TokenKind.ofJson? = some kind) :
    { r with kind }.ReadBy (Function.update g "tokenRule" v?) where
  start := h.start
  stop := h.stop
  text := h.text
  kind := hkind
  parent := h.parent
  name := h.name

/-- Another value for the production is read as the record with that production. -/
theorem ReadBy.update_parent (h : r.ReadBy g) {v? : Option Json} {parent : Option RuleId}
    (hparent : v?.elim (some none) RuleId.ofJson? = some parent) :
    { r with parent }.ReadBy (Function.update g "parentRule" v?) where
  start := h.start
  stop := h.stop
  text := h.text
  kind := h.kind
  parent := hparent
  name := h.name

theorem given?_tokenRule_toJson (r : TokenRecord) : r.toJson.given? names "tokenRule"
    = some (.int (if r.kind = TokenKind.endOfFile then -1 else r.kind.toNat)) := by
  have hkind : TokenKind.toJson r.kind
      = .int (if r.kind = TokenKind.endOfFile then -1 else r.kind.toNat) := by
    unfold TokenKind.toJson
    split_ifs <;> rfl
  rw [← hkind]
  rfl

theorem given?_parentRule_toJson (r : TokenRecord) : r.toJson.given? names "parentRule"
    = r.parent.map fun rule => .int rule.toNat := by
  obtain ⟨_, _, _, _, _ | rule, _⟩ := r <;> rfl

end TokenRecord

namespace Highlight

/-- The names of the fields of a highlight, in order. -/
def names : List String := ["eta", "highlightCode"]

/-- The highlight is read from the values of its fields. -/
structure ReadBy (h : Highlight) (g : String → Option Json) : Prop where
  record : (g "eta").bind TokenRecord.ofJson? = some h.record
  category : (g "highlightCode").bind Category.ofJson? = some h.category

variable {v : Json} {h : Highlight} {g : String → Option Json} {members : List (String × Json)}

theorem ofJson?_of_readBy (hfields : v.fields? names = some (names.map g)) (hread : h.ReadBy g) :
    ofJson? v = some h := by
  rw [names] at hfields
  simp [ofJson?, hfields, hread.record, hread.category]

/-- **What is decoded is what is read from the fields.** -/
theorem readBy_of_ofJson? (hdecode : ofJson? v = some h) :
    v.fields? names = some (names.map (v.given? names)) ∧ h.ReadBy (v.given? names) := by
  obtain ⟨fields, hfields, hread⟩ := Option.bind_eq_some_iff.mp hdecode
  replace hfields : v.fields? names = some fields := hfields
  obtain rfl := fields?_eq_map (by decide) hfields
  refine ⟨hfields, ?_⟩
  obtain ⟨record, hrecord, hread⟩ := Option.bind_eq_some_iff.mp hread
  obtain ⟨category, hcategory, hread⟩ := Option.bind_eq_some_iff.mp hread
  obtain rfl := Option.some.inj hread
  exact ⟨hrecord, hcategory⟩

/-- A value for another token record in the same object is decoded along with the rest. -/
theorem ofJson?_assign_record (hdecode : ofJson? (.obj members) = some h) {v : Json}
    {r : TokenRecord} (hrecord : TokenRecord.ofJson? v = some r) :
    ofJson? (.obj (assign "eta" (some v) members)) = some { h with record := r } := by
  obtain ⟨hfields, hread⟩ := readBy_of_ofJson? hdecode
  exact ofJson?_of_readBy (fields?_assign hfields "eta" (some v)) ⟨hrecord, hread.category⟩

/-- Members that are no fields do not matter. -/
theorem ofJson?_assign_other {name : String} (hname : name ∉ names) (v? : Option Json) :
    ofJson? (.obj (assign name v? members)) = ofJson? (.obj members) := by
  have hne : "eta" ≠ name ∧ "highlightCode" ≠ name := by simpa [names, eq_comm] using hname
  simp only [ofJson?, fields?, List.mapM_cons, List.mapM_nil, field?_assign_of_ne hne.1,
    field?_assign_of_ne hne.2]

theorem ofJson?_toJson (hrange : h.record.InRange) : ofJson? h.toJson = some h := by
  rw [toJson_eq_members]
  exact ofJson?_members (TokenRecord.ofJson?_toJson hrange)

/-- **Highlights survive as JSON values.** Written and decoded again, as it is or with its members
sorted, a highlight is the same; the kind of the end of a file is written `-1`, and a production
only if there is one. Whatever is given as a colour, or nothing, is the same to the decoder.
Whenever an object is decoded, the highlight can be written and decoded again. Then the kind is the
end of a file exactly if the number given for it is negative or `65535`, and there is no production
exactly if it is missing, `null` or a number outside of 16 bits; this holds for token records that
are objects and for those that are arrays. And in an object, any such value may be put in, as long
as a number has no more than 64 bits: it is decoded to the same highlight with the end of a file for
its kind, or without a production. -/
theorem json_round_trip :
    (∀ h : Highlight, h.record.InRange →
      ofJson? h.toJson = some h ∧
        (h.toJson.canonical? maxDepth).bind ofJson? = some h ∧
        h.toJson.given? names "eta" = some h.record.toJson ∧
        h.record.toJson.given? TokenRecord.names "tokenRule"
          = some (.int (if h.record.kind = TokenKind.endOfFile then -1 else h.record.kind.toNat)) ∧
        h.record.toJson.given? TokenRecord.names "parentRule"
          = h.record.parent.map fun rule => .int rule.toNat) ∧
      (∀ members color?,
        ofJson? (.obj (assign "highlightColor" color? members)) = ofJson? (.obj members)) ∧
      ∀ members h, ofJson? (.obj members) = some h →
        h.record.InRange ∧ ofJson? h.toJson = some h ∧
          ∃ record, (Json.obj members).given? names "eta" = some record ∧
            (h.record.kind = TokenKind.endOfFile
              ↔ IsEndOfFile (record.given? TokenRecord.names "tokenRule")) ∧
            (h.record.parent = none
              ↔ IsNoRule (record.given? TokenRecord.names "parentRule")) ∧
            ∀ fields, record = .obj fields →
              let put (name : String) (v? : Option Json) : Option Highlight :=
                ofJson? (.obj (assign "eta" (some (.obj (assign name v? fields))) members))
              (∀ v?, IsEndOfFile v? → FitsInt v? → put "tokenRule" v?
                = some { h with record := { h.record with kind := TokenKind.endOfFile } }) ∧
              ∀ v?, IsNoRule v? → FitsInt v? → put "parentRule" v?
                = some { h with record := { h.record with parent := none } } := by
  refine ⟨fun h hrange => ⟨ofJson?_toJson hrange, bind_canonical?_toJson hrange 125, rfl,
      h.record.given?_tokenRule_toJson, h.record.given?_parentRule_toJson⟩,
    fun members color? => ofJson?_assign_other (by decide) color?, fun members h hdecode => ?_⟩
  obtain ⟨record, hgiven, hrecord⟩ :=
    Option.bind_eq_some_iff.mp (readBy_of_ofJson? hdecode).2.record
  obtain ⟨hfields, hread⟩ := TokenRecord.readBy_of_ofJson? hrecord
  refine ⟨hread.inRange, ofJson?_toJson hread.inRange, record, hgiven,
    TokenKind.eq_endOfFile_iff hread.kind, RuleId.eq_none_iff hread.parent, ?_⟩
  rintro fields rfl
  refine ⟨fun v? hv hfits => ?_, fun v? hv hfits => ?_⟩
  · have hkind := TokenKind.ofJson?_of_isEndOfFile hv hfits
    exact ofJson?_assign_record hdecode (TokenRecord.ofJson?_of_readBy
      (fields?_assign hfields "tokenRule" v?) (hread.update_kind hkind))
  · have hparent := RuleId.ofJson?_of_isNoRule hv hfits
    exact ofJson?_assign_record hdecode (TokenRecord.ofJson?_of_readBy
      (fields?_assign hfields "parentRule" v?) (hread.update_parent hparent))

/-- The theorem at the end of a file, which is written `-1`, and at a name in a production, in whose
object another number is put for the kind and another one for the production. -/
theorem json_round_trip_endOfFile :
    let h : Highlight := ⟨⟨0, -1, "<EOF>", TokenKind.endOfFile, none, "EOF"⟩, .any⟩
    let fields : List (String × Json) :=
      [("tokenRule", .int 7), ("text", .str "a"), ("startIndex", .int 4), ("stopIndex", .int 4),
        ("parentRule", .int 3)]
    let members : List (String × Json) := [("highlightCode", .int 0), ("eta", .obj fields)]
    let put (name : String) (v? : Option Json) : Option Highlight :=
      ofJson? (.obj (assign "eta" (some (.obj (assign name v? fields))) members))
    (h.record.InRange ∧ ofJson? h.toJson = some h ∧
        h.record.toJson.given? TokenRecord.names "tokenRule" = some (.int (-1))) ∧
      ofJson? (.obj members) = some ⟨⟨4, 4, "a", 7, some 3, ""⟩, .any⟩ ∧
      put "tokenRule" (some (.int (-9)))
        = some ⟨⟨4, 4, "a", TokenKind.endOfFile, some 3, ""⟩, .any⟩ ∧
      put "parentRule" (some (.int 65536)) = some ⟨⟨4, 4, "a", 7, none, ""⟩, .any⟩ := by
  intro h fields members put
  have hrange : h.record.InRange := by decide
  have hdecode : ofJson? (.obj members) = some ⟨⟨4, 4, "a", 7, some 3, ""⟩, .any⟩ := by rfl
  have hwritten := json_round_trip.1 h hrange
  obtain ⟨-, -, record, hgiven, -, -, hput⟩ := json_round_trip.2.2 members _ hdecode
  obtain ⟨hkind, hparent⟩ := hput fields (Option.some.inj hgiven).symm
  refine ⟨⟨hrange, hwritten.1, hwritten.2.2.2.1⟩, hdecode, hkind _ ⟨-9, rfl, by decide⟩ ?_,
    hparent _ (.inr (.inr ⟨65536, rfl, by decide⟩)) ?_⟩
  · rintro n ⟨⟩
    decide
  · rintro n ⟨⟩
    decide

end Highlight

end Highlighting

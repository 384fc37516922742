import Highlighting.Oracle
import Highlighting.Proofs.JsonReading

/-!
# Records as JSON values and back

A record that is written as a value and decoded again is the same record, with nothing lost: the
kind of the end of a file comes back from `-1`, and what may be missing (a production, an origin, an
address) is missing again. Offsets have to be integers of 64 bits, which is all that is decoded.

The values are decoded in two forms: as they are, and in canonical form, where the members of every
object are sorted. Sorting only reorders members with different names, and a decoder that looks at
nothing but fields (`Json.ByFields`) does not see their order, so each decoder is opened once.

## Main definitions

* `Oracle.Record.InRange`: the offsets of a record are integers of 64 bits
* `Json.ByFields`: a decoder that looks at nothing but fields

## Main results

* `Json.fields?_sortMembers`: sorting members with different names keeps every field
* `Oracle.Record.ofJson?_toJson`: a record is decoded from its value
* `Oracle.Record.bind_canonical?_toJson`: and from the canonical form of its value
* `Oracle.Record.writable_toJson`: the value can be written and read back
-/

namespace Highlighting

namespace Json

/-! ### Members in order -/

theorem toList_foldl_insert_perm {members : List (String × Json)}
    (h : (members.map (·.1)).Nodup) (sorted : Std.TreeMap String Json)
    (hnew : ∀ m ∈ members, ∀ m' ∈ sorted.toList, m.1 ≠ m'.1) :
    (members.foldl (fun sorted m => sorted.insert m.1 m.2) sorted).toList.Perm
      (members ++ sorted.toList) := by
  induction members generalizing sorted with
  | nil => rfl
  | cons m members ih =>
    rw [List.map_cons, List.nodup_cons] at h
    have hfilter : sorted.toList.filter (¬ m.1 == ·.1) = sorted.toList := by
      rw [List.filter_eq_self]
      intro m' hm'
      simpa using hnew m (by simp) m' hm'
    have hinsert : (sorted.insert m.1 m.2).toList.Perm (m :: sorted.toList) := by
      simpa only [hfilter] using Std.TreeMap.toList_insert_perm (t := sorted) (k := m.1) (v := m.2)
    have hnew' : ∀ n ∈ members, ∀ n' ∈ (sorted.insert m.1 m.2).toList, n.1 ≠ n'.1 := by
      intro n hn n' hn'
      rcases List.mem_cons.mp (hinsert.mem_iff.mp hn') with rfl | hn'
      · exact fun heq => h.1 (heq ▸ List.mem_map_of_mem hn)
      · exact hnew n (by simp [hn]) n' hn'
    exact (ih h.2 _ hnew').trans ((hinsert.append_left members).trans List.perm_middle)

/-- Members with different names are only put in order. -/
theorem sortMembers_perm {members : List (String × Json)} (h : (members.map (·.1)).Nodup) :
    (sortMembers members).Perm members := by
  have hempty : (∅ : Std.TreeMap String Json).toList = [] := rfl
  have hperm := toList_foldl_insert_perm h ∅ (by simp [hempty])
  rwa [hempty, List.append_nil] at hperm

/-- The order of members does not matter to a field. -/
theorem field?_of_perm {members members' : List (String × Json)} (h : members.Perm members')
    (name : String) : field? members name = field? members' name := by
  have hfilter : (members.filter (·.1 == name)).Perm (members'.filter (·.1 == name)) := h.filter _
  unfold field?
  generalize members.filter (·.1 == name) = given at hfilter
  generalize members'.filter (·.1 == name) = given' at hfilter
  obtain _ | ⟨m, _ | ⟨n, given⟩⟩ := given
  · rw [List.nil_perm.mp hfilter]
  · rw [List.singleton_perm.mp hfilter]
  · obtain _ | ⟨m', _ | ⟨n', given'⟩⟩ := given'
    · simp at hfilter
    · simp at hfilter
    · rfl

theorem fields?_sortMembers {members : List (String × Json)} (h : (members.map (·.1)).Nodup)
    (names : List String) :
    (Json.obj (sortMembers members)).fields? names = (Json.obj members).fields? names := by
  have hfield : field? (sortMembers members) = field? members :=
    funext fun name => field?_of_perm (sortMembers_perm h) name
  rw [fields?, fields?, hfield]

/-! ### Values in canonical form -/

@[simp] theorem canonical?_null (depth : Nat) : null.canonical? depth = some .null := by
  cases depth <;> rfl

@[simp] theorem canonical?_int (depth : Nat) (n : Int) :
    (int n).canonical? depth = some (.int n) := by
  cases depth <;> rfl

@[simp] theorem canonical?_str (depth : Nat) (text : String) :
    (str text).canonical? depth = some (.str text) := by
  cases depth <;> rfl

/-- A decoder that looks at nothing but fields. -/
def ByFields {α : Type} (decode : Json → Option α) : Prop :=
  ∀ u v : Json, (∀ names, u.fields? names = v.fields? names) → decode u = decode v

/-- An object in canonical form is decoded like the object with its members in canonical form. -/
theorem bind_canonical?_obj {α : Type} {decode : Json → Option α} (hdecode : ByFields decode)
    {depth : Nat} {members members' : List (String × Json)}
    (h : (members.mapM fun m => (m.2.canonical? depth).map (m.1, ·)) = some members')
    (hnames : (members'.map (·.1)).Nodup) :
    ((obj members).canonical? (depth + 1)).bind decode = decode (.obj members') := by
  rw [canonical?, h, Option.map_some, Option.bind_some]
  exact hdecode _ _ (fields?_sortMembers hnames)

theorem mapM_map_eq_some {α : Type} {encode : α → Json} {decode : Json → Option α} {xs : List α}
    (h : ∀ x ∈ xs, decode (encode x) = some x) : (xs.map encode).mapM decode = some xs := by
  induction xs with
  | nil => rfl
  | cons x xs ih =>
    obtain ⟨hx, hxs⟩ := List.forall_mem_cons.mp h
    simp [hx, ih hxs]

/-- Values that can be decoded in canonical form make up an array of which the same is true. -/
theorem exists_mapM_canonical? {α : Type} {encode : α → Json} {decode : Json → Option α}
    {depth : Nat} (xs : List α)
    (h : ∀ x ∈ xs, ((encode x).canonical? depth).bind decode = some x) :
    ∃ us, (xs.map encode).mapM (canonical? depth) = some us ∧ us.mapM decode = some xs := by
  induction xs with
  | nil => exact ⟨[], rfl, rfl⟩
  | cons x xs ih =>
    obtain ⟨hx, hxs⟩ := List.forall_mem_cons.mp h
    obtain ⟨u, hu, hdecode⟩ := Option.bind_eq_some_iff.mp hx
    obtain ⟨us, hus, hdecodes⟩ := ih hxs
    exact ⟨u :: us, by simp [hu, hus], by simp [hdecode, hdecodes]⟩

theorem int?_int {n : Int} (h : minInt ≤ n ∧ n ≤ maxInt) : (int n).int? = some n := by
  simp [int?, h]

theorem writable_of_inRange {n : Int} (h : minInt ≤ n ∧ n ≤ maxInt) (depth : Nat) :
    Writable depth (.int n) := by
  have hmax : maxInt ≤ Numeral.maxSignificand := by decide
  exact (writable_int depth n).mpr ⟨h.1, Int.le_trans h.2 hmax⟩

/-- Numbers of 16 bits, and `-1`, are integers of 64 bits. -/
theorem inRange_of_lt {n : Int} (h : -1 ≤ n) (h' : n < 65536) : minInt ≤ n ∧ n ≤ maxInt := by
  have hmin : minInt ≤ -1 := by decide
  have hmax : 65535 ≤ maxInt := by decide
  omega

theorem inRange_toNat (n : UInt16) : minInt ≤ (n.toNat : Int) ∧ (n.toNat : Int) ≤ maxInt := by
  have hn := n.toNat_lt
  exact inRange_of_lt (by omega) (by omega)

end Json

open Json

/-! ### Token records -/

theorem uint16?_toNat (n : UInt16) : uint16? n.toNat = some n := by
  show (if n.toNat < 65536 then some n.toNat.toUInt16 else none) = some n
  rw [if_pos n.toNat_lt]
  simp

namespace TokenKind

theorem toJson_eq_int (kind : TokenKind) :
    ∃ n : Int, TokenKind.toJson kind = .int n ∧ -1 ≤ n ∧ n < 65536 := by
  have hkind := kind.toNat_lt
  unfold TokenKind.toJson
  split_ifs
  · exact ⟨-1, rfl, by omega⟩
  · exact ⟨kind.toNat, rfl, by omega⟩

theorem ofJson?_toJson (kind : TokenKind) :
    TokenKind.ofJson? (TokenKind.toJson kind) = some kind := by
  unfold TokenKind.toJson
  split_ifs with h
  · rw [h]
    rfl
  · have hnat : ¬ ((kind.toNat : Int) < 0) := by omega
    rw [TokenKind.ofJson?, int?_int (inRange_toNat _), Option.bind_some, if_neg hnat, uint16?_toNat]

end TokenKind

theorem RuleId.ofJson?_toNat (rule : RuleId) :
    RuleId.ofJson? (.int rule.toNat) = some (some rule) := by
  have hnullable : (Json.int rule.toNat).nullable? Json.int? = some (some (rule.toNat : Int)) := by
    show (Json.int rule.toNat).int?.map some = _
    rw [int?_int (inRange_toNat _), Option.map_some]
  rw [RuleId.ofJson?, hnullable, Option.map_some, Option.bind_some, uint16?_toNat]

namespace TokenRecord

/-- The offsets of a token record are integers of 64 bits. -/
def InRange (r : TokenRecord) : Prop :=
  (minInt ≤ r.start ∧ r.start ≤ maxInt) ∧ minInt ≤ r.stop ∧ r.stop ≤ maxInt

instance (r : TokenRecord) : Decidable r.InRange :=
  inferInstanceAs (Decidable ((_ ∧ _) ∧ _ ∧ _))

theorem ofJson?_toJson {r : TokenRecord} (h : r.InRange) : ofJson? r.toJson = some r := by
  obtain ⟨start, stop, text, kind, _ | rule, name⟩ := r
  · simp [ofJson?, toJson, fields?, field?, int?_int h.1, int?_int h.2, str?,
      TokenKind.ofJson?_toJson]
  · simp [ofJson?, toJson, fields?, field?, int?_int h.1, int?_int h.2, str?,
      TokenKind.ofJson?_toJson, RuleId.ofJson?_toNat]

theorem byFields_ofJson? : ByFields ofJson? := by
  intro u v h
  simp only [ofJson?, h]

theorem bind_canonical?_toJson {r : TokenRecord} (h : r.InRange) (depth : Nat) :
    (r.toJson.canonical? (depth + 1)).bind ofJson? = some r := by
  obtain ⟨n, hkind, -⟩ := TokenKind.toJson_eq_int r.kind
  rw [← ofJson?_toJson h]
  refine bind_canonical?_obj byFields_ofJson? ?_ ?_
  · rw [hkind]
    cases r.parent <;> simp
  · cases r.parent <;> simp

theorem writable_toJson {r : TokenRecord} (h : r.InRange) (depth : Nat) :
    Writable (depth + 1) r.toJson := by
  obtain ⟨n, hkind, hn, hn'⟩ := TokenKind.toJson_eq_int r.kind
  have hstart := writable_of_inRange h.1 depth
  have hstop := writable_of_inRange h.2 depth
  have hnumber := writable_of_inRange (inRange_of_lt hn hn') depth
  have hrule (rule : RuleId) := writable_of_inRange (inRange_toNat rule) depth
  unfold toJson
  rw [Writable, hkind]
  cases r.parent <;> simp_all

end TokenRecord

/-! ### Highlights -/

theorem Category.ofJson?_toJson (c : Category) : Category.ofJson? c.toJson = some c := by
  cases c <;> rfl

namespace Highlight

/-- The members of a highlight, with a value in the place of its token record. -/
def members (h : Highlight) (record : Json) : List (String × Json) :=
  [("eta", record), ("highlightCode", h.category.toJson)]
    ++ (h.category.color.map fun color => ("highlightColor", Json.str color)).toList

theorem toJson_eq_members (h : Highlight) : h.toJson = .obj (h.members h.record.toJson) := rfl

theorem ofJson?_members {h : Highlight} {record : Json}
    (hrecord : TokenRecord.ofJson? record = some h.record) :
    ofJson? (.obj (h.members record)) = some h := by
  have hcategory := Category.ofJson?_toJson h.category
  cases hcolor : h.category.color <;>
    simp [members, hcolor, ofJson?, fields?, field?, hrecord, hcategory]

theorem byFields_ofJson? : ByFields ofJson? := by
  intro u v h
  simp only [ofJson?, h]

theorem bind_canonical?_toJson {h : Highlight} (hrange : h.record.InRange) (depth : Nat) :
    (h.toJson.canonical? (depth + 2)).bind ofJson? = some h := by
  obtain ⟨record, hcanonical, hrecord⟩ :=
    Option.bind_eq_some_iff.mp (TokenRecord.bind_canonical?_toJson hrange depth)
  rw [toJson_eq_members, ← ofJson?_members hrecord]
  refine bind_canonical?_obj byFields_ofJson? ?_ ?_
  · cases hcolor : h.category.color <;>
      simp [members, hcolor, hcanonical, Category.toJson]
  · cases hcolor : h.category.color <;> simp [members, hcolor]

theorem writable_toJson {h : Highlight} (hrange : h.record.InRange) (depth : Nat) :
    Writable (depth + 2) h.toJson := by
  have hrecord := TokenRecord.writable_toJson hrange depth
  have hcategory : Writable (depth + 1) h.category.toJson := by
    have hlt := h.category.ordinal_lt
    exact writable_of_inRange (inRange_of_lt (by omega) (by omega)) _
  rw [toJson_eq_members, Writable]
  cases hcolor : h.category.color <;> simp [members, hcolor, hrecord, hcategory]

end Highlight

/-! ### Oracle records -/

namespace Oracle

theorem Origin.byFields_ofJson? : ByFields Origin.ofJson? := by
  intro u v h
  simp only [ofJson?, h]

theorem Origin.ofJson?_toJson (o : Origin) : Origin.ofJson? o.toJson = some o := by
  obtain ⟨_ | url⟩ := o <;> simp [ofJson?, toJson, fields?, field?, nullable?, str?]

theorem Origin.bind_canonical?_toJson (o : Origin) (depth : Nat) :
    (o.toJson.canonical? (depth + 1)).bind Origin.ofJson? = some o := by
  rw [← ofJson?_toJson o]
  refine bind_canonical?_obj byFields_ofJson? ?_ (by simp)
  cases o.url <;> simp

theorem Origin.nullable?_ofJson? {v : Json} {o : Origin} (h : Origin.ofJson? v = some o) :
    v.nullable? Origin.ofJson? = some (some o) := by
  cases v with
  | null => cases h
  | _ => exact congrArg (Option.map some) h

theorem Origin.writable_toJson (o : Origin) (depth : Nat) : Writable (depth + 1) o.toJson := by
  rw [toJson, Writable]
  cases o.url <;> simp

namespace Record

/-- The offsets of a record are integers of 64 bits. -/
def InRange (r : Record) : Prop := ∀ h ∈ r.highlights, h.record.InRange

instance (r : Record) : Decidable r.InRange :=
  inferInstanceAs (Decidable (∀ h ∈ r.highlights, h.record.InRange))

/-- The members of the source of a record, with a value in the place of its origin. -/
def sourceMembers (r : Record) (origin : Option Json) : List (String × Json) :=
  [("source", .str r.source)] ++ (origin.map fun o => ("file", o)).toList

/-- The members of a record, with values in the place of its source and of its highlights. -/
def members (source : Json) (highlights : List Json) : List (String × Json) :=
  [("source", source), ("hetas", .arr highlights)]

theorem toJson_eq_members (r : Record) :
    r.toJson = .obj (members (.obj (r.sourceMembers (r.origin.map Origin.toJson)))
      (r.highlights.map Highlight.toJson)) := by
  rw [sourceMembers, Option.map_map]
  rfl

theorem byFields_sourceOfJson? : ByFields sourceOfJson? := by
  intro u v h
  simp only [sourceOfJson?, h]

theorem byFields_ofJson? : ByFields ofJson? := by
  intro u v h
  simp only [ofJson?, h]

theorem sourceOfJson?_sourceMembers {r : Record} {origin : Option Json}
    (h : origin.elim (some none) (nullable? Origin.ofJson?) = some r.origin) :
    sourceOfJson? (.obj (r.sourceMembers origin)) = some (r.source, r.origin) := by
  cases origin with
  | none => simpa [sourceOfJson?, sourceMembers, fields?, field?, str?] using h
  | some v =>
    have hv : v.nullable? Origin.ofJson? = some r.origin := h
    simp [sourceOfJson?, sourceMembers, fields?, field?, str?, hv]

theorem ofJson?_members {r : Record} {source : Json} {highlights : List Json}
    (hsource : sourceOfJson? source = some (r.source, r.origin))
    (hhighlights : highlights.mapM Highlight.ofJson? = some r.highlights) :
    ofJson? (.obj (members source highlights)) = some r := by
  simp [ofJson?, members, fields?, field?, list?, items?, hsource, hhighlights]

theorem ofJson?_toJson {r : Record} (h : r.InRange) : ofJson? r.toJson = some r := by
  rw [toJson_eq_members]
  refine ofJson?_members (sourceOfJson?_sourceMembers ?_) ?_
  · cases r.origin with
    | none => rfl
    | some o => exact Origin.nullable?_ofJson? (Origin.ofJson?_toJson o)
  · exact mapM_map_eq_some fun highlight hmem =>
      Highlight.ofJson?_members (TokenRecord.ofJson?_toJson (h highlight hmem))

theorem bind_canonical?_source (r : Record) (depth : Nat) :
    ((Json.obj (r.sourceMembers (r.origin.map Origin.toJson))).canonical? (depth + 2)).bind
      sourceOfJson? = some (r.source, r.origin) := by
  obtain ⟨origin, hmembers, horigin⟩ : ∃ origin : Option Json,
      ((r.sourceMembers (r.origin.map Origin.toJson)).mapM
          fun m => (m.2.canonical? (depth + 1)).map (m.1, ·)) = some (r.sourceMembers origin)
        ∧ origin.elim (some none) (nullable? Origin.ofJson?) = some r.origin := by
    cases r.origin with
    | none => exact ⟨none, by simp [sourceMembers], rfl⟩
    | some o =>
      obtain ⟨v, hcanonical, hv⟩ :=
        Option.bind_eq_some_iff.mp (Origin.bind_canonical?_toJson o depth)
      exact ⟨some v, by simp [sourceMembers, hcanonical], Origin.nullable?_ofJson? hv⟩
  rw [← sourceOfJson?_sourceMembers horigin]
  refine bind_canonical?_obj byFields_sourceOfJson? hmembers ?_
  cases origin <;> simp [sourceMembers]

theorem bind_canonical?_toJson {r : Record} (h : r.InRange) (depth : Nat) :
    (r.toJson.canonical? (depth + 4)).bind ofJson? = some r := by
  obtain ⟨source, hsource, hdecode⟩ :=
    Option.bind_eq_some_iff.mp (bind_canonical?_source r (depth + 1))
  obtain ⟨highlights, hhighlights, hdecodes⟩ := exists_mapM_canonical? r.highlights
    fun highlight hmem => Highlight.bind_canonical?_toJson (h highlight hmem) depth
  rw [toJson_eq_members, ← ofJson?_members hdecode hdecodes]
  refine bind_canonical?_obj byFields_ofJson? ?_ (by simp [members])
  have harr : (Json.arr (r.highlights.map Highlight.toJson)).canonical? (depth + 3)
      = some (.arr highlights) := by
    rw [canonical?, hhighlights, Option.map_some]
  simp [members, hsource, harr]

theorem writable_toJson {r : Record} (h : r.InRange) : Writable 4 r.toJson := by
  have hsource : Writable 3 (.obj (r.sourceMembers (r.origin.map Origin.toJson))) := by
    rw [Writable]
    cases r.origin with
    | none => simp [sourceMembers]
    | some o => simp [sourceMembers, Origin.writable_toJson o 1]
  have hhighlights : Writable 3 (.arr (r.highlights.map Highlight.toJson)) := by
    rw [Writable, List.forall_mem_map]
    exact fun highlight hmem => Highlight.writable_toJson (h highlight hmem) 0
  rw [toJson_eq_members, Writable]
  simp [members, hsource, hhighlights]

end Record

end Oracle

end Highlighting

import Mathlib.Data.List.Nodup
import Highlighting.Oracle.Survey

/-!
# An index of distinct sources

An index is made in one pass. A set of names is carried along, and a record makes an entry if its
name is not in the set yet. So an entry depends on everything before it, and the index of the second
half of a list of records is not a part of the index of the whole list: a source of both halves has
an entry in it, perhaps with another url, which the whole list makes nothing of.

The set can be taken out of the recursion. Starting with names in the set does nothing but remove
their entries from the index (`Oracle.indexFrom_eq_filter`), and since every record puts its own
name there, the index of `r :: rs` is the entry of `r` and the index of `rs` without that name
(`Oracle.indexBy_cons`). This recursion has no state, and the laws of the index are inductions along
it.

Nothing is said of the naming. Sources that happen to have the same name count as the same source.

## Main definitions

* `Oracle.names`, `Oracle.ids`: the names of records, and those of entries

## Main results

* `Oracle.indexFrom_eq_filter`: what the names in the set do
* `Oracle.indexBy_cons`: the index by recursion on the records
* `Oracle.index_keeps_first_occurrences`: what is in an index, in which order, and how indices of
  two lists of records are put together
-/

namespace Highlighting

namespace Oracle

variable {name : String → String}

/-! ### The set of names -/

theorem indexFrom_cons_of_mem {seen : Std.HashSet String} {r : Record}
    (h : name r.source ∈ seen) (rs : List Record) :
    indexFrom name seen (r :: rs) = indexFrom name seen rs := by
  rw [indexFrom, if_pos (Std.HashSet.mem_iff_contains.mp h)]

theorem indexFrom_cons_of_not_mem {seen : Std.HashSet String} {r : Record}
    (h : name r.source ∉ seen) (rs : List Record) :
    indexFrom name seen (r :: rs) = Entry.ofRecord (name r.source) r
      :: indexFrom name (seen.insert (name r.source)) rs := by
  rw [indexFrom, if_neg (Std.HashSet.mem_iff_contains.not.mp h)]

/-- **Names in the set take their entries away** from the index, and change nothing else in it. -/
theorem indexFrom_eq_filter (seen : Std.HashSet String) (rs : List Record) :
    indexFrom name seen rs = (indexBy name rs).filter fun e => e.id ∉ seen := by
  induction rs generalizing seen with
  | nil => rfl
  | cons r rs ih =>
    rw [indexBy, indexFrom_cons_of_not_mem Std.HashSet.not_mem_empty, ih]
    by_cases hseen : name r.source ∈ seen
    · rw [indexFrom_cons_of_mem hseen, ih,
        List.filter_cons_of_neg (by simp [Entry.ofRecord, hseen]), List.filter_filter]
      -- An entry with the name of `r` is taken away by the set in any case.
      refine List.filter_congr fun e _ => ?_
      by_cases he : name r.source = e.id
      · simp [← he, hseen]
      · simp [he]
    · rw [indexFrom_cons_of_not_mem hseen, ih,
        List.filter_cons_of_pos (by simp [Entry.ofRecord, hseen]), List.filter_filter]
      refine congrArg _ (List.filter_congr fun e _ => ?_)
      simp [Bool.and_comm]

@[simp] theorem indexBy_nil : indexBy name [] = [] := rfl

/-- **The index by recursion.** The first record makes an entry, and takes its name from the index
of the others. -/
theorem indexBy_cons (r : Record) (rs : List Record) :
    indexBy name (r :: rs) = Entry.ofRecord (name r.source) r
      :: (indexBy name rs).filter fun e => e.id ≠ name r.source := by
  rw [indexBy, indexFrom_cons_of_not_mem Std.HashSet.not_mem_empty, indexFrom_eq_filter]
  refine congrArg _ (List.filter_congr fun e _ => ?_)
  simp [@eq_comm _ e.id]

/-! ### Names and entries -/

/-- The names of records, in order. -/
def names (name : String → String) (records : List Record) : List String :=
  records.map fun r => name r.source

/-- The names of the entries of an index, in order. -/
def ids (entries : List Entry) : List String :=
  entries.map (·.id)

theorem ids_indexBy_cons (r : Record) (rs : List Record) :
    ids (indexBy name (r :: rs)) = name r.source
      :: (ids (indexBy name rs)).filter (· ≠ name r.source) := by
  rw [indexBy_cons, ids, ids, List.map_cons, List.filter_map]
  rfl

theorem mem_ids_indexBy {id : String} {records : List Record} :
    id ∈ ids (indexBy name records) ↔ id ∈ names name records := by
  induction records with
  | nil => rfl
  | cons r rs ih =>
    rw [ids_indexBy_cons, names, List.map_cons, List.mem_cons, List.mem_cons, List.mem_filter, ih,
      decide_eq_true_iff]
    by_cases hid : id = name r.source <;> simp [hid, names]

theorem nodup_ids_indexBy (records : List Record) : (ids (indexBy name records)).Nodup := by
  induction records with
  | nil => exact List.nodup_nil
  | cons r rs ih =>
    rw [ids_indexBy_cons, List.nodup_cons]
    exact ⟨by simp, ih.filter _⟩

/-- **Entries follow the records** that come first with their names. -/
theorem pairwise_ids_indexBy (records : List Record) :
    (ids (indexBy name records)).Pairwise fun x y =>
      (names name records).idxOf x < (names name records).idxOf y := by
  induction records with
  | nil => exact List.Pairwise.nil
  | cons r rs ih =>
    have hidx {x : String} (hx : x ≠ name r.source) :
        (names name (r :: rs)).idxOf x = (names name rs).idxOf x + 1 :=
      List.idxOf_cons_ne _ hx.symm
    rw [ids_indexBy_cons, List.pairwise_cons]
    constructor
    · intro y hy
      have hne : y ≠ name r.source := of_decide_eq_true (List.mem_filter.mp hy).2
      have hzero : (names name (r :: rs)).idxOf (name r.source) = 0 := List.idxOf_cons_self
      rw [hzero, hidx hne]
      exact Nat.succ_pos _
    · refine (ih.filter _).imp_of_mem fun {x y} hx hy hlt => ?_
      rw [hidx (of_decide_eq_true (List.mem_filter.mp hx).2),
        hidx (of_decide_eq_true (List.mem_filter.mp hy).2)]
      exact Nat.succ_lt_succ hlt

/-- **An entry is made from the first record with its name.** -/
theorem find?_of_mem_indexBy {records : List Record} {e : Entry} (h : e ∈ indexBy name records) :
    ∃ r, records.find? (name ·.source = e.id) = some r ∧ e = Entry.ofRecord e.id r := by
  induction records with
  | nil => contradiction
  | cons r rs ih =>
    rw [indexBy_cons, List.mem_cons, List.mem_filter] at h
    rcases h with rfl | ⟨h, hne⟩
    · exact ⟨r, List.find?_cons_of_pos (decide_eq_true rfl), rfl⟩
    · have hskip : name r.source ≠ e.id := (of_decide_eq_true hne).symm
      rw [List.find?_cons_of_neg (by simpa using hskip)]
      exact ih h

/-! ### Putting lists of records together -/

theorem indexBy_append (a b : List Record) :
    indexBy name (a ++ b) = indexBy name a
      ++ (indexBy name b).filter fun e => e.id ∉ ids (indexBy name a) := by
  induction a with
  | nil => simp [ids]
  | cons r a ih =>
    rw [List.cons_append, indexBy_cons, ih, List.filter_append, List.filter_filter,
      ids_indexBy_cons, indexBy_cons, List.cons_append]
    refine congrArg _ (congrArg _ (List.filter_congr fun e _ => ?_))
    by_cases he : e.id = name r.source <;> simp [he]

/-- **An index keeps the first occurrence of every name.** The names of its entries are those of the
records, each of them once, in the order in which they occur first, and an entry has the source of
the first record with its name, and its url, if it has one. To index two lists of records one may
index each of them, and leave out of the second index what the first one has.

This holds for every naming, so in particular for `index`, which names sources by their digests. -/
theorem index_keeps_first_occurrences (name : String → String) :
    (∀ records,
      (ids (indexBy name records)).Nodup ∧
        (∀ id, id ∈ ids (indexBy name records) ↔ id ∈ names name records) ∧
        (ids (indexBy name records)).Pairwise (fun x y =>
          (names name records).idxOf x < (names name records).idxOf y) ∧
        ∀ e ∈ indexBy name records, ∃ r, records.find? (name ·.source = e.id) = some r ∧
          e.source = r.source ∧ e.url = r.url?.getD "Unavailable") ∧
      ∀ a b, indexBy name (a ++ b) = indexBy name a
        ++ (indexBy name b).filter fun e => e.id ∉ ids (indexBy name a) := by
  refine ⟨fun records => ⟨nodup_ids_indexBy records, fun _ => mem_ids_indexBy,
    pairwise_ids_indexBy records, fun e he => ?_⟩, indexBy_append⟩
  obtain ⟨r, hr, hentry⟩ := find?_of_mem_indexBy he
  exact ⟨r, hr, congrArg Entry.source hentry, congrArg Entry.url hentry⟩

/-- The theorem where sources are named by their first characters, so that two of them have the same
name. The second of these has a url and the first does not, and the index of the records behind the
first one differs from what is left of it. -/
theorem index_keeps_first_occurrences_initials :
    let initial (s : String) := String.ofList (s.toList.take 1)
    let a : List Record := [⟨"ab", none, []⟩, ⟨"b", some ⟨some "here"⟩, []⟩]
    let b : List Record := [⟨"ac", some ⟨some "there"⟩, []⟩, ⟨"c", some ⟨none⟩, []⟩]
    indexBy initial a = [⟨"a", "Unavailable", "ab"⟩, ⟨"b", "here", "b"⟩] ∧
      indexBy initial b = [⟨"a", "there", "ac"⟩, ⟨"c", "Unavailable", "c"⟩] ∧
      indexBy initial (a ++ b)
        = [⟨"a", "Unavailable", "ab"⟩, ⟨"b", "here", "b"⟩, ⟨"c", "Unavailable", "c"⟩] ∧
      ∃ r, a.find? (initial ·.source = "b") = some r ∧ r.source = "b" := by
  intro initial a b
  have ha : indexBy initial a = [⟨"a", "Unavailable", "ab"⟩, ⟨"b", "here", "b"⟩] := by
    rw [indexBy_cons, indexBy_cons, indexBy_nil]
    decide
  have hb : indexBy initial b = [⟨"a", "there", "ac"⟩, ⟨"c", "Unavailable", "c"⟩] := by
    rw [indexBy_cons, indexBy_cons, indexBy_nil]
    decide
  obtain ⟨hrecords, happend⟩ := index_keeps_first_occurrences initial
  obtain ⟨-, -, -, hentries⟩ := hrecords a
  obtain ⟨r, hr, hsource, -⟩ := hentries ⟨"b", "here", "b"⟩ (by rw [ha]; decide)
  refine ⟨ha, hb, ?_, r, hr, hsource.symm⟩
  rw [happend, ha, hb]
  decide

end Oracle

end Highlighting

import Mathlib.Data.List.Induction
import Highlighting.Lexicon

/-!
# Which entry of a lexicon decides

Entries are added to a lexicon one by one, and three of its tables settle a conflict in three
different ways. The first bucket that lists a kind keeps it; of the directive entries that list it
the last one counts, and so does the last production given for soft keywords, even if it was given
along with other kinds; a kind stays a soft keyword once an entry has listed it.

Each of these rules can be read off the list of the entries alone, without any table
(`Lexicon.firstBucket?`, `Lexicon.lastDirective?`, `Lexicon.lastIdentifierRule?`). That a lexicon
tells what its entries say, `Lexicon.Tells`, is kept by adding an entry, so it holds of every
lexicon; and since the three modes look at nothing but the tables, the categories follow.

What may change places in a list of entries is then a question about lists. Entries of different
sorts fill different tables. Two buckets compete for a kind only if both list it, and it makes no
difference who wins if they give it the same category.

## Main definitions

* `Lexicon.firstBucket?`, `Lexicon.lastDirective?`, `Lexicon.lastIdentifierRule?`: which entry
  counts
* `Lexicon.Tells`: the tables of a lexicon hold what a list of entries says
* `Lexicon.Entry.MaySwap`: two entries that may change places

## Main results

* `Lexicon.tells_ofEntries`: a lexicon tells what its entries say
* `Lexicon.classify_swap`: entries that may change places
* `Lexicon.entries_decide`: the category of a token in every mode, from the entries alone
-/

namespace Highlighting

namespace Lexicon

/-! ### What an entry says of a kind -/

namespace Entry

/-- The category that the entry gives to a kind, if it is a bucket that lists it. -/
def bucketOf? (kind : TokenKind) : Entry → Option Category
  | bucket category kinds => if kind ∈ kinds then some category else none
  | softKeywords _ _ | directives _ _ => none

/-- The category that the entry gives to a kind, if it is for directives and lists it. -/
def directiveOf? (kind : TokenKind) : Entry → Option Category
  | directives category kinds => if kind ∈ kinds then some category else none
  | bucket _ _ | softKeywords _ _ => none

/-- The production under which the entry takes soft keywords for identifiers. -/
def identifierRule? : Entry → Option RuleId
  | softKeywords rule _ => some rule
  | bucket _ _ | directives _ _ => none

/-- The entry is for soft keywords and lists the kind. -/
def Softens (kind : TokenKind) : Entry → Prop
  | softKeywords _ kinds => kind ∈ kinds
  | bucket _ _ | directives _ _ => False

/-- The entries may change places: they are of different sorts, or they are buckets that have no
kind in common or the same category. -/
def MaySwap : Entry → Entry → Prop
  | bucket c ks, bucket d ls => ks.Disjoint ls ∨ c = d
  | softKeywords _ _, softKeywords _ _ | directives _ _, directives _ _ => False
  | _, _ => True

end Entry

/-- The category of the first bucket that lists a kind. -/
def firstBucket? (kind : TokenKind) (entries : List Entry) : Option Category :=
  entries.findSome? (·.bucketOf? kind)

/-- The category of the last entry for directives that lists a kind. -/
def lastDirective? (kind : TokenKind) (entries : List Entry) : Option Category :=
  entries.reverse.findSome? (·.directiveOf? kind)

/-- The production of the last entry for soft keywords. -/
def lastIdentifierRule? (entries : List Entry) : Option RuleId :=
  entries.reverse.findSome? (·.identifierRule?)

/-- Some entry lists the kind as a soft keyword, and the token does not stand right under the last
production given for identifiers. -/
def SoftUnder (entries : List Entry) (kind : TokenKind) (parent : Option RuleId) : Prop :=
  (∃ e ∈ entries, e.Softens kind) ∧
    ∀ rule, lastIdentifierRule? entries = some rule → parent ≠ some rule

/-- The tables of the lexicon hold what the entries say. -/
structure Tells (x : Lexicon) (entries : List Entry) : Prop where
  /-- A kind has the category of the first bucket. -/
  categories : ∀ kind, x.categories[kind]? = firstBucket? kind entries
  /-- The identifier production is the last one given. -/
  identifierRule : x.identifierRule = lastIdentifierRule? entries
  /-- A soft keyword is listed by some entry. -/
  softKeywords : ∀ kind, kind ∈ x.softKeywords ↔ ∃ e ∈ entries, e.Softens kind
  /-- A directive has the category of the last entry. -/
  directives : ∀ kind, x.directives[kind]? = lastDirective? kind entries

/-! ### Adding entries -/

theorem getElem?_foldl_insertIfNew (m : Std.HashMap TokenKind Category) (category : Category)
    (kinds : List TokenKind) (kind : TokenKind) :
    (kinds.foldl (fun m k => m.insertIfNew k category) m)[kind]?
      = m[kind]?.or (if kind ∈ kinds then some category else none) := by
  induction kinds generalizing m with
  | nil => simp
  | cons k kinds ih =>
    rw [List.foldl_cons, ih, Std.HashMap.getElem?_insertIfNew]
    by_cases hk : k = kind
    · subst hk
      cases hm : m[k]? with
      | none =>
        have hnew : k ∉ m := by simpa using hm
        simp [hnew]
      | some c =>
        have hold : k ∈ m := by simp [Std.HashMap.mem_iff_isSome_getElem?, hm]
        simp [hold]
    · simp [hk, Ne.symm hk]

theorem getElem?_foldl_insert (m : Std.HashMap TokenKind Category) (category : Category)
    (kinds : List TokenKind) (kind : TokenKind) :
    (kinds.foldl (fun m k => m.insert k category) m)[kind]?
      = (if kind ∈ kinds then some category else none).or m[kind]? := by
  induction kinds generalizing m with
  | nil => simp
  | cons k kinds ih =>
    rw [List.foldl_cons, ih, Std.HashMap.getElem?_insert]
    by_cases hk : k = kind
    · subst hk
      by_cases hkinds : k ∈ kinds <;> simp [hkinds]
    · simp [hk, Ne.symm hk]

theorem tells_empty : Tells {} [] where
  categories kind := by simp [firstBucket?]
  identifierRule := rfl
  softKeywords kind := by simp
  directives kind := by simp [lastDirective?]

/-- **Adding an entry** adds what it says, in its place. -/
theorem Tells.add {x : Lexicon} {entries : List Entry} (h : x.Tells entries) (e : Entry) :
    (x.add e).Tells (entries ++ [e]) where
  categories kind := by
    rw [firstBucket?, List.findSome?_append, ← firstBucket?, ← h.categories]
    cases e with
    | bucket category kinds =>
      rw [Lexicon.add, getElem?_foldl_insertIfNew]
      simp [Entry.bucketOf?]
    | softKeywords rule kinds => simp [Lexicon.add, Entry.bucketOf?]
    | directives category kinds => simp [Lexicon.add, Entry.bucketOf?]
  identifierRule := by
    rw [lastIdentifierRule?, List.reverse_concat, List.findSome?_cons, ← lastIdentifierRule?,
      ← h.identifierRule]
    cases e <;> rfl
  softKeywords kind := by
    have hentries : (∃ e' ∈ entries ++ [e], e'.Softens kind)
        ↔ kind ∈ x.softKeywords ∨ e.Softens kind := by
      rw [h.softKeywords]
      simp [or_and_right, exists_or]
    rw [hentries]
    cases e with
    | bucket category kinds => simp [Lexicon.add, Entry.Softens]
    | softKeywords rule kinds => simp [Lexicon.add, Entry.Softens]
    | directives category kinds => simp [Lexicon.add, Entry.Softens]
  directives kind := by
    rw [lastDirective?, List.reverse_concat, List.findSome?_cons, ← lastDirective?, ← h.directives]
    cases e with
    | bucket category kinds => rfl
    | softKeywords rule kinds => rfl
    | directives category kinds =>
      rw [Lexicon.add, getElem?_foldl_insert]
      by_cases hkind : kind ∈ kinds <;> simp [Entry.directiveOf?, hkind]

/-- **A lexicon tells what its entries say.** -/
theorem tells_ofEntries (entries : List Entry) : (ofEntries entries).Tells entries := by
  induction entries using List.reverseRecOn with
  | nil => exact tells_empty
  | append_singleton entries e ih =>
    rw [ofEntries, List.foldl_append]
    exact ih.add e

/-! ### Categories -/

section Tells

variable {x y : Lexicon} {entries : List Entry}

theorem Tells.lookup_eq (h : x.Tells entries) (kind : TokenKind) :
    x.lookup kind = (firstBucket? kind entries).getD .any := by
  rw [lookup, Std.HashMap.getD_eq_getD_getElem?, h.categories]

/-- Where there is a soft keyword, an identifier production has been given. -/
theorem Tells.isSome_identifierRule (h : x.Tells entries) {kind : TokenKind}
    (hsoft : kind ∈ x.softKeywords) : x.identifierRule.isSome := by
  obtain ⟨e, he, hkind⟩ := (h.softKeywords kind).mp hsoft
  rw [h.identifierRule, lastIdentifierRule?, List.findSome?_isSome_iff]
  refine ⟨e, List.mem_reverse.mpr he, ?_⟩
  cases e with
  | bucket category kinds => exact hkind.elim
  | softKeywords rule kinds => rfl
  | directives category kinds => exact hkind.elim

/-- A soft keyword is a keyword, except right under the last identifier production. -/
theorem Tells.lookupUnder_of_softUnder (h : x.Tells entries) {kind : TokenKind}
    {parent : Option RuleId} (hsoft : SoftUnder entries kind parent) :
    x.lookupUnder kind parent = .keyword := by
  obtain ⟨hlisted, hparent⟩ := hsoft
  have hmem : kind ∈ x.softKeywords := (h.softKeywords kind).mpr hlisted
  have hne : parent ≠ x.identifierRule := by
    obtain ⟨rule, hrule⟩ := Option.isSome_iff_exists.mp (h.isSome_identifierRule hmem)
    rw [hrule]
    exact hparent rule (h.identifierRule.symm.trans hrule)
  simp [lookupUnder, hmem, hne]

/-- Any other token has the category of its kind. -/
theorem Tells.lookupUnder_of_not_softUnder (h : x.Tells entries) {kind : TokenKind}
    {parent : Option RuleId} (hplain : ¬ SoftUnder entries kind parent) :
    x.lookupUnder kind parent = x.lookup kind := by
  rw [lookupUnder, if_neg]
  rw [Bool.and_eq_true, Std.HashSet.contains_iff_mem, bne_iff_ne]
  rintro ⟨hmem, hne⟩
  refine hplain ⟨(h.softKeywords kind).mp hmem, fun rule hrule => ?_⟩
  rwa [← hrule, ← h.identifierRule]

/-- Lexicons that tell the same entries give the same categories. -/
theorem Tells.classify_eq (hx : x.Tells entries) (hy : y.Tells entries) :
    x.classify = y.classify := by
  have hlookup : x.lookup = y.lookup := funext fun kind => by rw [hx.lookup_eq, hy.lookup_eq]
  have hunder : x.lookupUnder = y.lookupUnder := by
    funext kind parent
    have hsoft : x.softKeywords.contains kind = y.softKeywords.contains kind := by
      rw [Bool.eq_iff_iff, Std.HashSet.contains_iff_mem, Std.HashSet.contains_iff_mem,
        hx.softKeywords, hy.softKeywords]
    rw [lookupUnder, lookupUnder, hsoft, hx.identifierRule, hy.identifierRule, hlookup]
  funext mode kind parent
  cases mode with
  | plain => rw [classify, classify, hlookup]
  | semiLexical => rw [classify, classify, hunder]
  | preprocessing => rw [classify, classify, hunder, hx.directives, hy.directives]

end Tells

/-! ### Entries that change places -/

section Swap

variable {a b : Entry} (h : a.MaySwap b)
include h

theorem Entry.MaySwap.bucketOf? (kind : TokenKind) :
    (a.bucketOf? kind).or (b.bucketOf? kind) = (b.bucketOf? kind).or (a.bucketOf? kind) := by
  cases a with
  | bucket c ks =>
    cases b with
    | bucket d ls =>
      rcases h with hdisjoint | rfl
      · by_cases hks : kind ∈ ks
        · have hls : kind ∉ ls := fun hls => hdisjoint hks hls
          simp [Entry.bucketOf?, hls]
        · simp [Entry.bucketOf?, hks]
      · by_cases hks : kind ∈ ks <;> by_cases hls : kind ∈ ls <;> simp [Entry.bucketOf?, hks, hls]
    | softKeywords _ _ | directives _ _ => simp [Entry.bucketOf?]
  | softKeywords _ _ | directives _ _ => simp [Entry.bucketOf?]

theorem Entry.MaySwap.directiveOf? (kind : TokenKind) :
    (a.directiveOf? kind).or (b.directiveOf? kind)
      = (b.directiveOf? kind).or (a.directiveOf? kind) := by
  cases a with
  | directives c ks =>
    cases b with
    | directives d ls => exact h.elim
    | bucket _ _ | softKeywords _ _ => simp [Entry.directiveOf?]
  | bucket _ _ | softKeywords _ _ => simp [Entry.directiveOf?]

theorem Entry.MaySwap.identifierRule? :
    a.identifierRule?.or b.identifierRule? = b.identifierRule?.or a.identifierRule? := by
  cases a with
  | softKeywords r ks =>
    cases b with
    | softKeywords r' ls => exact h.elim
    | bucket _ _ | directives _ _ => rfl
  | bucket _ _ | directives _ _ => simp [Entry.identifierRule?]

end Swap

theorem findSome?_swap {α β : Type} {f : α → Option β} {a b : α}
    (h : (f a).or (f b) = (f b).or (f a)) (before after : List α) :
    (before ++ a :: b :: after).findSome? f = (before ++ b :: a :: after).findSome? f := by
  have hcons (c : α) (rest : List α) : (c :: rest).findSome? f = (f c).or (rest.findSome? f) := by
    rw [List.findSome?_cons]
    cases f c <;> rfl
  have hpair : (a :: b :: after).findSome? f = (b :: a :: after).findSome? f := by
    rw [hcons, hcons, hcons, hcons, ← Option.or_assoc, h, Option.or_assoc]
  rw [List.findSome?_append, List.findSome?_append, hpair]

/-- **Entries that may change places** do so without changing any category. -/
theorem classify_swap {a b : Entry} (h : a.MaySwap b) (before after : List Entry) :
    (ofEntries (before ++ a :: b :: after)).classify
      = (ofEntries (before ++ b :: a :: after)).classify := by
  have htells := tells_ofEntries (before ++ a :: b :: after)
  -- It tells the swapped entries as well, table by table.
  have hswapped : (ofEntries (before ++ a :: b :: after)).Tells (before ++ b :: a :: after) := by
    refine ⟨fun kind => ?_, ?_, fun kind => ?_, fun kind => ?_⟩
    · rw [htells.categories]
      exact findSome?_swap (h.bucketOf? kind) before after
    · rw [htells.identifierRule, lastIdentifierRule?, lastIdentifierRule?]
      simpa using findSome?_swap h.identifierRule?.symm after.reverse before.reverse
    · rw [htells.softKeywords]
      have hperm : (before ++ a :: b :: after).Perm (before ++ b :: a :: after) :=
        (List.Perm.swap b a after).append_left before
      exact exists_congr fun e => and_congr_left' hperm.mem_iff
    · rw [htells.directives, lastDirective?, lastDirective?]
      simpa using findSome?_swap (h.directiveOf? kind).symm after.reverse before.reverse
  exact hswapped.classify_eq (tells_ofEntries _)

/-- **The entries decide.** Whatever entries a lexicon is made of, in whatever order and with
whatever overlaps, the category of a kind is that of the first bucket that lists it, and `any` if
none does; it is also what a token of that kind gets in plain mode. With soft keywords, a token
whose kind some entry lists as soft is a keyword unless it stands right under the production of the
last such entry; any other token keeps the category of its kind. With directives, the last entry for
directives that lists the kind comes first. Neighbouring entries of different sorts may change
places, and so may neighbouring buckets that have no kind in common or the same category. -/
theorem entries_decide :
    (∀ (entries : List Entry) (kind : TokenKind) (parent : Option RuleId),
      let x := ofEntries entries
      x.lookup kind = (firstBucket? kind entries).getD .any ∧
        x.classify .plain kind parent = x.lookup kind ∧
        (SoftUnder entries kind parent → x.classify .semiLexical kind parent = .keyword) ∧
        (¬ SoftUnder entries kind parent → x.classify .semiLexical kind parent = x.lookup kind) ∧
        x.classify .preprocessing kind parent
          = (lastDirective? kind entries).getD (x.classify .semiLexical kind parent)) ∧
      ∀ (before after : List Entry) (a b : Entry), a.MaySwap b →
        (ofEntries (before ++ a :: b :: after)).classify
          = (ofEntries (before ++ b :: a :: after)).classify := by
  refine ⟨fun entries kind parent => ?_, fun before after a b h => classify_swap h before after⟩
  intro x
  have hx : x.Tells entries := tells_ofEntries entries
  refine ⟨hx.lookup_eq kind, rfl, hx.lookupUnder_of_softUnder, hx.lookupUnder_of_not_softUnder, ?_⟩
  show x.directives[kind]?.getD (x.lookupUnder kind parent) = _
  rw [hx.directives]
  rfl

/-- The theorem at entries that compete in every table: two buckets and an entry for soft keywords
for the kind `3`, two identifier productions, and two directive entries for the kind `4`. -/
theorem entries_decide_conflicts :
    let entries : List Entry := [.directives .literal [4], .bucket .keyword [1, 2],
      .softKeywords 7 [3], .bucket .literal [2, 3], .softKeywords 8 [], .bucket .comment [3],
      .directives .comment [4]]
    let x := ofEntries entries
    x.lookup 2 = .keyword ∧ x.lookup 9 = .any ∧
      x.classify .semiLexical 3 (some 7) = .keyword ∧ x.classify .semiLexical 3 none = .keyword ∧
      x.classify .semiLexical 3 (some 8) = .literal ∧
      x.classify .preprocessing 4 none = .comment ∧
      x.classify = (ofEntries [.directives .literal [4], .softKeywords 7 [3],
        .bucket .keyword [1, 2], .bucket .literal [2, 3], .softKeywords 8 [], .bucket .comment [3],
        .directives .comment [4]]).classify := by
  intro entries x
  have hsoft (parent : Option RuleId) (h : parent ≠ some 8) : SoftUnder entries 3 parent := by
    refine ⟨⟨.softKeywords 7 [3], by decide, List.mem_singleton_self 3⟩, fun rule hrule => ?_⟩
    obtain rfl : rule = 8 := (Option.some.inj hrule).symm
    exact h
  have hplain : ¬ SoftUnder entries 3 (some 8) := fun h => h.2 8 rfl rfl
  refine ⟨(entries_decide.1 entries 2 none).1, (entries_decide.1 entries 9 none).1,
    (entries_decide.1 entries 3 (some 7)).2.2.1 (hsoft (some 7) (by decide)),
    (entries_decide.1 entries 3 none).2.2.1 (hsoft none (by decide)), ?_,
    (entries_decide.1 entries 4 none).2.2.2.2,
    entries_decide.2 [.directives .literal [4]] _ (.bucket .keyword [1, 2]) (.softKeywords 7 [3])
      trivial⟩
  rw [(entries_decide.1 entries 3 (some 8)).2.2.2.1 hplain, (entries_decide.1 entries 3 none).1]
  rfl

end Lexicon

end Highlighting

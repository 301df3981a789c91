import Mathlib.Tactic.SplitIfs
import FluentBuilder.Go.Tag

/-!
# Struct tags — the first entry with a name decides

A tag is written as a sequence of entries `name:"value"`, each with any number of spaces in front,
and a text that has no entry in front. `Entry` says which texts are entries: what a name is made of
is a matter of its bytes, and what a value is made of one of its characters.

* **`firstPair_eq_some_iff`** — what is read from the front of a tag is an entry.
* **`search_eq_of_length_le`** — the limit of a search never ends it.
* **`valueOf_of_entry`** — what one entry means for a search.
* **`valueOf_written`** — what a sequence of entries means for it.
* **`lookup_first_entry`** — the first entry with the key decides.
-/

namespace FluentBuilder.Go.Tag

/-! ## Entries -/

/-- A byte that may stand in a name. -/
def IsNameByte (b : UInt8) : Prop :=
  0x20 < b ∧ b ≠ ':'.toUInt8 ∧ b ≠ '"'.toUInt8 ∧ b ≠ 0x7f

instance (b : UInt8) : Decidable (IsNameByte b) :=
  inferInstanceAs (Decidable (_ ∧ _))

/-- What may stand between the quotes of a value: characters other than quotes and backslashes, and
backslashes, each with the character behind it. -/
inductive IsBody : List Char → Prop where
  | nil : IsBody []
  | plain {c : Char} {body : List Char} (hquote : c ≠ '"') (hbackslash : c ≠ '\\')
      (h : IsBody body) : IsBody (c :: body)
  | escaped (c : Char) {body : List Char} (h : IsBody body) : IsBody ('\\' :: c :: body)

/-- An entry of a tag: a name, and what stands between the quotes of its value. -/
structure Entry where
  name        : List Char
  body        : List Char
  name_ne_nil : name ≠ []
  nameBytes   : ∀ b ∈ name.flatMap String.utf8EncodeChar, IsNameByte b
  isBody      : IsBody body

namespace Entry

/-- The value with its quotes. -/
def literal (entry : Entry) : List Char := '"' :: entry.body ++ ['"']

/-- The entry as it is written. -/
def text (entry : Entry) : List Char := entry.name ++ ':' :: entry.literal

end Entry

/-! ## Names -/

theorem utf8EncodeChar_of_le {c : Char} (h : c.toNat ≤ 0x7f) :
    String.utf8EncodeChar c = [UInt8.ofNat c.toNat] :=
  if_pos h

/-- Beyond the first 128 characters, all bytes have their highest bit set. -/
theorem le_of_mem_utf8EncodeChar {c : Char} (h : 0x7f < c.toNat) {b : UInt8}
    (hb : b ∈ String.utf8EncodeChar c) : 0x80 ≤ b.toNat := by
  have hsome : ∃ n, 0x80 ≤ n ∧ n < 0x100 ∧ b = UInt8.ofNat n := by
    have hv : ¬ c.val.toNat ≤ 127 := Nat.not_le_of_lt h
    simp only [String.utf8EncodeChar, hv, ↓reduceIte] at hb
    split_ifs at hb <;> simp only [List.mem_cons, List.not_mem_nil, or_false] at hb
    · rcases hb with rfl | rfl
      all_goals exact ⟨_, by omega, by omega, rfl⟩
    · rcases hb with rfl | rfl | rfl
      all_goals exact ⟨_, by omega, by omega, rfl⟩
    · rcases hb with rfl | rfl | rfl | rfl
      all_goals exact ⟨_, by omega, by omega, rfl⟩
  obtain ⟨n, hlow, hhigh, rfl⟩ := hsome
  rw [UInt8.toNat_ofNat_of_lt' hhigh]
  exact hlow

/-- **A character of a name** is one whose bytes may stand there. -/
theorem isNameChar_iff {c : Char} :
    isNameChar c = true ↔ ∀ b ∈ String.utf8EncodeChar c, IsNameByte b := by
  rcases Nat.lt_or_ge 0x7f c.toNat with hhigh | hlow
  · constructor
    · intro _ b hb
      have hb : 0x80 ≤ b.toNat := le_of_mem_utf8EncodeChar hhigh hb
      refine ⟨UInt8.lt_iff_toNat_lt.mpr (Nat.lt_of_lt_of_le (by decide) hb), ?_, ?_, ?_⟩
      all_goals
        rintro rfl
        exact absurd hb (by decide)
    · intro _
      have hcolon : c ≠ ':' := by
        rintro rfl
        exact absurd hhigh (by decide)
      have hquote : c ≠ '"' := by
        rintro rfl
        exact absurd hhigh (by decide)
      have hspace : ¬ c.toNat ≤ 0x20 := by omega
      have hdelete : c.toNat ≠ 0x7f := by omega
      simp [isNameChar, hspace, hcolon, hquote, hdelete]
  · have hall : ∀ n ≤ 0x7f, isNameChar (Char.ofNat n) = true ↔ IsNameByte (UInt8.ofNat n) := by
      decide
    rw [utf8EncodeChar_of_le hlow, List.forall_mem_singleton, ← hall c.toNat hlow, Char.ofNat_toNat]

theorem forall_isNameChar_iff {name : List Char} :
    (∀ c ∈ name, isNameChar c = true) ↔
      ∀ b ∈ name.flatMap String.utf8EncodeChar, IsNameByte b := by
  rw [List.forall_mem_flatMap]
  exact forall₂_congr fun _ _ => isNameChar_iff

/-! ## Reading an entry -/

/-- A character that is no backslash. -/
theorem cutQuote_cons {c : Char} (hbackslash : c ≠ '\\') (rest : List Char) :
    cutQuote (c :: rest) =
      if c == '"' then some ([c], rest)
      else (cutQuote rest).map fun (body, after) => (c :: body, after) := by
  rw [cutQuote.eq_4]
  · intro heq _
    exact hbackslash heq
  · intro _ _ heq _
    exact hbackslash heq

/-- A body is cut off with the quote behind it. -/
theorem cutQuote_body {body : List Char} (h : IsBody body) (rest : List Char) :
    cutQuote (body ++ '"' :: rest) = some (body ++ ['"'], rest) := by
  induction h with
  | nil => rfl
  | plain hquote hbackslash h ih =>
      rw [List.cons_append, cutQuote_cons hbackslash, if_neg (by simpa using hquote), ih]
      rfl
  | escaped c h ih =>
      rw [List.cons_append, List.cons_append, cutQuote, ih]
      rfl

/-- What is cut off is a body with the quote behind it. -/
theorem exists_body_of_cutQuote {s quoted rest : List Char} (h : cutQuote s = some (quoted, rest)) :
    ∃ body, IsBody body ∧ quoted = body ++ ['"'] ∧ s = quoted ++ rest := by
  induction s using cutQuote.induct generalizing quoted rest with
  | case1 => cases h
  | case2 => cases h
  | case3 c s ih =>
      rw [cutQuote] at h
      obtain ⟨⟨quoted, after⟩, hcut, ⟨⟩⟩ := Option.map_eq_some_iff.mp h
      obtain ⟨body, hbody, rfl, rfl⟩ := ih hcut
      exact ⟨'\\' :: c :: body, .escaped c hbody, rfl, rfl⟩
  | case4 c s hlone hescape hquote =>
      rw [cutQuote.eq_4 c s hlone hescape, if_pos hquote] at h
      cases h
      rw [eq_of_beq hquote]
      exact ⟨[], .nil, rfl, rfl⟩
  | case5 c s hlone hescape hquote ih =>
      have hbackslash : c ≠ '\\' := by
        intro heq
        cases s with
        | nil => exact hlone heq rfl
        | cons d s => exact hescape d s heq rfl
      rw [cutQuote_cons hbackslash, if_neg hquote] at h
      obtain ⟨⟨quoted, after⟩, hcut, ⟨⟩⟩ := Option.map_eq_some_iff.mp h
      obtain ⟨body, hbody, rfl, rfl⟩ := ih hcut
      exact ⟨c :: body, .plain (by simpa using hquote) hbackslash hbody, rfl, rfl⟩

/-- An entry is read from the front of a tag, whatever stands behind it. -/
theorem firstPair_text (entry : Entry) (rest : List Char) :
    firstPair (entry.text ++ rest) = some ⟨entry.name, entry.literal, rest⟩ := by
  have htext : entry.text ++ rest = entry.name ++ ':' :: '"' :: (entry.body ++ '"' :: rest) := by
    simp [Entry.text, Entry.literal]
  have hname : ∀ c ∈ entry.name, isNameChar c = true := forall_isNameChar_iff.mpr entry.nameBytes
  have hcolon : isNameChar ':' = false := by decide
  rw [htext, firstPair, List.takeWhile_append_of_pos hname, List.dropWhile_append_of_pos hname,
    List.takeWhile_cons_of_neg (by simp [hcolon]), List.dropWhile_cons_of_neg (by simp [hcolon]),
    List.append_nil]
  have hne := entry.name_ne_nil
  cases hcases : entry.name with
  | nil => exact absurd hcases hne
  | cons c name =>
      show (cutQuote (entry.body ++ '"' :: rest)).map _ = _
      rw [cutQuote_body entry.isBody]
      rfl

/-- **What is read from the front of a tag** is an entry. -/
theorem firstPair_eq_some_iff {tag : List Char} {pair : Pair} :
    firstPair tag = some pair ↔
      ∃ (entry : Entry) (rest : List Char),
        tag = entry.text ++ rest ∧ pair = ⟨entry.name, entry.literal, rest⟩ := by
  constructor
  · intro h
    rw [firstPair] at h
    split at h
    · cases h
    · next hafter hne =>
      obtain ⟨⟨quoted, rest⟩, hcut, rfl⟩ := Option.map_eq_some_iff.mp h
      obtain ⟨body, hbody, rfl, rfl⟩ := exists_body_of_cutQuote hcut
      have hname : ∀ c ∈ tag.takeWhile isNameChar, isNameChar c = true :=
        List.all_eq_true.mp List.all_takeWhile
      refine ⟨⟨_, body, hne, forall_isNameChar_iff.mp hname, hbody⟩, rest, ?_, rfl⟩
      calc tag = tag.takeWhile isNameChar ++ tag.dropWhile isNameChar :=
            List.takeWhile_append_dropWhile.symm
        _ = _ := by rw [hafter]; simp [Entry.text, Entry.literal]
    · cases h
  · rintro ⟨entry, rest, rfl, rfl⟩
    exact firstPair_text entry rest

/-! ## Searching -/

/-- A text that has no entry in front, or nothing but spaces. -/
def IsEnd (tag : List Char) : Prop :=
  ∀ (entry : Entry) (rest : List Char), tag.dropWhile (· == ' ') ≠ entry.text ++ rest

theorem isEnd_iff {tag : List Char} :
    IsEnd tag ↔ firstPair (tag.dropWhile (· == ' ')) = none := by
  rw [Option.eq_none_iff_forall_ne_some]
  constructor
  · intro h pair hpair
    obtain ⟨entry, rest, heq, -⟩ := firstPair_eq_some_iff.mp hpair
    exact h entry rest heq
  · intro h entry rest heq
    rw [heq] at h
    exact h _ (firstPair_text entry rest)

/-- A tag ends, or has an entry in front. -/
theorem isEnd_or_exists_entry (tag : List Char) :
    IsEnd tag ∨
      ∃ (entry : Entry) (rest : List Char), tag.dropWhile (· == ' ') = entry.text ++ rest := by
  cases hpair : firstPair (tag.dropWhile (· == ' ')) with
  | none => exact .inl (isEnd_iff.mpr hpair)
  | some pair =>
      obtain ⟨entry, rest, heq, -⟩ := firstPair_eq_some_iff.mp hpair
      exact .inr ⟨entry, rest, heq⟩

/-- Behind an entry, a tag is shorter. -/
theorem length_lt_of_entry {tag : List Char} {entry : Entry} {rest : List Char}
    (h : tag.dropWhile (· == ' ') = entry.text ++ rest) : rest.length < tag.length := by
  have hdrop : (tag.dropWhile (· == ' ')).length ≤ tag.length :=
    (List.dropWhile_sublist _).length_le
  rw [h, Entry.text, List.append_assoc, List.length_append, List.cons_append, List.length_cons,
    List.length_append] at hdrop
  omega

theorem search_of_isEnd {tag : List Char} (h : IsEnd tag) (key : List Char) (limit : Nat) :
    search key limit tag = none := by
  cases limit with
  | zero => rfl
  | succ limit => rw [search, isEnd_iff.mp h]

theorem search_of_entry {tag : List Char} {entry : Entry} {rest : List Char}
    (h : tag.dropWhile (· == ' ') = entry.text ++ rest) (key : List Char) (limit : Nat) :
    search key (limit + 1) tag =
      if entry.name = key then unquoteChars entry.literal else search key limit rest := by
  rw [search, h, firstPair_text]
  simp only [beq_iff_eq]

/-- **The limit of a search** never ends it: any two that a tag is not longer than agree. -/
theorem search_eq_of_length_le (key : List Char) {limit limit' : Nat} {tag : List Char}
    (h : tag.length ≤ limit) (h' : tag.length ≤ limit') :
    search key limit tag = search key limit' tag := by
  induction limit generalizing limit' tag with
  | zero =>
      rcases isEnd_or_exists_entry tag with hend | ⟨entry, rest, hentry⟩
      · rw [search_of_isEnd hend, search_of_isEnd hend]
      · have hlt := length_lt_of_entry hentry
        omega
  | succ limit ih =>
      rcases isEnd_or_exists_entry tag with hend | ⟨entry, rest, hentry⟩
      · rw [search_of_isEnd hend, search_of_isEnd hend]
      · have hlt := length_lt_of_entry hentry
        cases limit' with
        | zero => omega
        | succ limit' =>
            have hrest : search key limit rest = search key limit' rest :=
              ih (by omega) (by omega)
            rw [search_of_entry hentry, search_of_entry hentry, hrest]

/-- The value that a search without a limit finds. -/
def valueOf (key tag : List Char) : Option (List Char) := search key tag.length tag

theorem valueOf_of_isEnd {tag : List Char} (h : IsEnd tag) (key : List Char) :
    valueOf key tag = none :=
  search_of_isEnd h key _

/-- **One entry** answers a search for its own name, and hands on any other. -/
theorem valueOf_of_entry {tag : List Char} {entry : Entry} {rest : List Char}
    (h : tag.dropWhile (· == ' ') = entry.text ++ rest) (key : List Char) :
    valueOf key tag =
      if entry.name = key then unquoteChars entry.literal else valueOf key rest := by
  have hlt := length_lt_of_entry h
  obtain ⟨limit, hlimit⟩ : ∃ limit, tag.length = limit + 1 := Nat.exists_eq_add_one.mpr (by omega)
  have hrest : search key limit rest = valueOf key rest :=
    search_eq_of_length_le key (by omega) (Nat.le_refl _)
  rw [valueOf, hlimit, search_of_entry h, hrest]

/-! ## Sequences of entries -/

/-- Entries as they are written, each with a number of spaces in front. -/
def written (entries : List (Nat × Entry)) : List Char :=
  entries.flatMap fun (spaces, entry) => List.replicate spaces ' ' ++ entry.text

theorem written_cons (spaces : Nat) (entry : Entry) (entries : List (Nat × Entry)) :
    written ((spaces, entry) :: entries) =
      List.replicate spaces ' ' ++ (entry.text ++ written entries) := by
  rw [written, List.flatMap_cons, List.append_assoc]
  rfl

/-- An entry begins with no space. -/
theorem Entry.dropWhile_text (entry : Entry) (rest : List Char) :
    (entry.text ++ rest).dropWhile (· == ' ') = entry.text ++ rest := by
  have hname := forall_isNameChar_iff.mpr entry.nameBytes
  have hne := entry.name_ne_nil
  cases hcases : entry.name with
  | nil => exact absurd hcases hne
  | cons c name =>
      have hspace : c ≠ ' ' := by
        rintro rfl
        exact absurd (hname ' ' (by simp [hcases])) (by decide)
      rw [Entry.text, hcases, List.cons_append, List.cons_append,
        List.dropWhile_cons_of_neg (by simpa using hspace)]

/-- The spaces in front of an entry are dropped, and nothing else. -/
theorem dropWhile_written (spaces : Nat) (entry : Entry) (entries : List (Nat × Entry))
    (rest : List Char) :
    (written ((spaces, entry) :: entries) ++ rest).dropWhile (· == ' ') =
      entry.text ++ (written entries ++ rest) := by
  rw [written_cons, List.append_assoc, List.append_assoc, List.dropWhile_append_of_pos,
    entry.dropWhile_text]
  intro c hc
  rw [List.eq_of_mem_replicate hc]
  rfl

/-- **A sequence of entries** answers a search with the first one of the name, if there is one;
    else the search goes on behind them. -/
theorem valueOf_written (key : List Char) (entries : List (Nat × Entry)) (rest : List Char) :
    valueOf key (written entries ++ rest) =
      match entries.find? (·.2.name == key) with
      | some (_, entry) => unquoteChars entry.literal
      | none => valueOf key rest := by
  induction entries with
  | nil => rfl
  | cons first entries ih =>
      obtain ⟨spaces, entry⟩ := first
      rw [valueOf_of_entry (dropWhile_written spaces entry entries rest)]
      by_cases hname : entry.name = key
      · rw [if_pos hname, List.find?_cons_of_pos (by simpa using hname)]
      · rw [if_neg hname, List.find?_cons_of_neg (by simpa using hname), ih]

/-- **Every tag** is a sequence of entries in front of its end. -/
theorem exists_written (tag : List Char) :
    ∃ (entries : List (Nat × Entry)) (rest : List Char),
      IsEnd rest ∧ tag = written entries ++ rest := by
  -- Entries are taken off the front, so the induction is on how long the tag is.
  induction hlength : tag.length using Nat.strongRecOn generalizing tag with
  | _ n ih =>
      rcases isEnd_or_exists_entry tag with hend | ⟨entry, rest, hentry⟩
      · exact ⟨[], tag, hend, rfl⟩
      · have hlt := length_lt_of_entry hentry
        rw [hlength] at hlt
        obtain ⟨entries, last, hend, rfl⟩ := ih rest.length hlt rest rfl
        have hspaces : tag.takeWhile (· == ' ') =
            List.replicate (tag.takeWhile (· == ' ')).length ' ' := by
          rw [List.eq_replicate_iff]
          refine ⟨rfl, fun c hc => ?_⟩
          exact eq_of_beq (List.all_eq_true.mp List.all_takeWhile c hc)
        refine ⟨((tag.takeWhile (· == ' ')).length, entry) :: entries, last, hend, ?_⟩
        rw [written_cons, ← hspaces, List.append_assoc, List.append_assoc, ← hentry,
          List.takeWhile_append_dropWhile]

/-! ## Looking up a key -/

theorem lookup_eq (tag key : String) :
    lookup tag key = (valueOf key.toList tag.toList).map String.ofList := rfl

theorem unquote_ofList (literal : List Char) :
    unquote (String.ofList literal) = (unquoteChars literal).map String.ofList := by
  rw [unquote, String.toList_ofList]

/-- A lookup in a sequence of entries, for any text behind it. -/
theorem lookup_written (key : String) (entries : List (Nat × Entry)) (rest : List Char) :
    lookup (String.ofList (written entries ++ rest)) key =
      match entries.find? (·.2.name == key.toList) with
      | some (_, entry) => unquote (String.ofList entry.literal)
      | none => lookup (String.ofList rest) key := by
  rw [lookup_eq, String.toList_ofList, valueOf_written]
  cases entries.find? (·.2.name == key.toList) with
  | none =>
      dsimp only
      rw [lookup_eq, String.toList_ofList]
  | some found =>
      dsimp only
      rw [unquote_ofList]

/-- **The first entry with the key decides.** An entry in front of a tag, behind its spaces, answers
    a lookup of its own name with its value, whatever follows, and hands on any other; a text that
    has no entry in front has no value. So the first entry with the key decides in a sequence of
    entries, for whatever text stands behind it. Every tag is such a sequence in front of its
    end. -/
theorem lookup_first_entry (key : String) :
    (∀ (tag : String) (entry : Entry) (rest : List Char),
      tag.toList.dropWhile (· == ' ') = entry.text ++ rest →
        lookup tag key =
          if entry.name = key.toList then unquote (String.ofList entry.literal)
          else lookup (String.ofList rest) key) ∧
    (∀ tag : String, IsEnd tag.toList → lookup tag key = none) ∧
    (∀ (before : List (Nat × Entry)) (spaces : Nat) (entry : Entry) (after : List Char),
      (∀ other ∈ before, other.2.name ≠ key.toList) → entry.name = key.toList →
        lookup (String.ofList (written (before ++ [(spaces, entry)]) ++ after)) key =
          unquote (String.ofList entry.literal)) ∧
    (∀ (entries : List (Nat × Entry)) (rest : List Char), IsEnd rest →
      lookup (String.ofList (written entries ++ rest)) key =
        (entries.find? (·.2.name == key.toList)).bind fun (_, entry) =>
          unquote (String.ofList entry.literal)) ∧
    ∀ tag : String, ∃ (entries : List (Nat × Entry)) (rest : List Char),
      IsEnd rest ∧ tag = String.ofList (written entries ++ rest) := by
  refine ⟨?entry, ?isEnd, ?first, ?sequence, ?every⟩
  case entry =>
    intro tag entry rest h
    rw [lookup_eq, valueOf_of_entry h, lookup_eq, unquote_ofList, String.toList_ofList,
      apply_ite (Option.map String.ofList)]
  case isEnd =>
    intro tag h
    rw [lookup_eq, valueOf_of_isEnd h]
    rfl
  case first =>
    intro before spaces entry after hbefore hname
    have hnone : before.find? (·.2.name == key.toList) = none := by
      rw [List.find?_eq_none]
      intro other hother
      simpa using hbefore other hother
    have hfind : (before ++ [(spaces, entry)]).find? (·.2.name == key.toList) =
        some (spaces, entry) := by
      rw [List.find?_append, hnone, List.find?_cons_of_pos (by simpa using hname), Option.none_or]
    rw [lookup_written, hfind]
  case sequence =>
    intro entries rest hend
    rw [lookup_written, lookup_eq, String.toList_ofList, valueOf_of_isEnd hend]
    cases entries.find? (·.2.name == key.toList) <;> rfl
  case every =>
    intro tag
    obtain ⟨entries, rest, hend, htag⟩ := exists_written tag.toList
    exact ⟨entries, rest, hend, by rw [← htag, String.ofList_toList]⟩

/-- `lookup_first_entry` behind an entry whose value holds a quote. -/
theorem lookup_first_entry_quoted : lookup "a:\"\\\"\"  b:\"c\" d" "b" = some "c" := by
  have ha := forall_isNameChar_iff.mp (List.forall_mem_singleton.mpr (by decide : isNameChar 'a'))
  have hb := forall_isNameChar_iff.mp (List.forall_mem_singleton.mpr (by decide : isNameChar 'b'))
  let first : Entry := ⟨['a'], ['\\', '"'], by decide, ha, .escaped '"' .nil⟩
  let second : Entry := ⟨['b'], ['c'], by decide, hb, .plain (by decide) (by decide) .nil⟩
  have hbefore : ∀ other ∈ [(0, first)], other.2.name ≠ "b".toList := by
    rw [List.forall_mem_singleton]
    show ['a'] ≠ "b".toList
    decide
  obtain ⟨-, -, hfirst, -, -⟩ := lookup_first_entry "b"
  have hvalue := hfirst [(0, first)] 2 second [' ', 'd'] hbefore rfl
  have hliteral : unquote (String.ofList ['"', 'c', '"']) = some "c" := by decide
  exact hvalue.trans hliteral

end FluentBuilder.Go.Tag

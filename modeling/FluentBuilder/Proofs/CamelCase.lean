import FluentBuilder.Proofs.WordBreaks

/-!
# Camel case — words that a name is put together from

A name in camel case is put together from capitalized words, acronyms and numbers. If no two acronyms
or numbers stand next to each other and a number does not come first, the name is cut apart into just
these words.

* **`not_beginsWord_inside`**, **`beginsWord_behind`** — inside a word no other one begins, and behind
  a word the next one does.
* **`wordsFrom_flatten`** — the words of a name are those that it was put together from, by induction
  on them.
* **`snakeCase_joins_words`** — the snake case of such a name, and of any name.
-/

namespace FluentBuilder

open Text (isLower lowerChar)

/-! ## Words that are put together -/

/-- A capital letter of ASCII with small ones behind it. -/
def IsCapitalized (w : List Char) : Prop :=
  ∃ c rest, w = c :: rest ∧ c.isUpper = true ∧ rest ≠ [] ∧ ∀ d ∈ rest, d.isLower = true

/-- Two or more capital letters of ASCII, or one or more digits. -/
inductive IsRun (w : List Char) : Prop where
  | acronym (hlength : 2 ≤ w.length) (h : ∀ c ∈ w, c.isUpper = true)
  | number (hne : w ≠ []) (h : ∀ c ∈ w, c.isDigit = true)

/-- Words that a name can be put together from: no two runs stand next to each other, and a number
does not come first. -/
structure CamelWords (ws : List (List Char)) : Prop where
  words : ∀ w ∈ ws, IsCapitalized w ∨ IsRun w
  apart : ws.IsChain fun v w => ¬ (IsRun v ∧ IsRun w)
  first : ∀ w ∈ ws.head?, ¬ ∀ c ∈ w, c.isDigit = true

/-! ### Characters of ASCII -/

theorem small_of_isLower {c : Char} (h : c.isLower = true) :
    isLower c = true ∧ isWordHead c = false ∧ lowerChar c = [c.toLower] := by
  obtain ⟨n, hn, rfl⟩ := Text.isLower_iff.mp h
  have hall : ∀ n < 26, isLower (Char.ofNat (0x61 + n)) = true ∧
      isWordHead (Char.ofNat (0x61 + n)) = false ∧
      lowerChar (Char.ofNat (0x61 + n)) = [(Char.ofNat (0x61 + n)).toLower] := by
    decide
  exact hall n hn

theorem head_of_isUpper {c : Char} (h : c.isUpper = true) :
    isLower c = false ∧ isWordHead c = true ∧ lowerChar c = [c.toLower] := by
  obtain ⟨n, hn, rfl⟩ := Text.isUpper_iff.mp h
  have hall : ∀ n < 26, isLower (Char.ofNat (0x41 + n)) = false ∧
      isWordHead (Char.ofNat (0x41 + n)) = true ∧
      lowerChar (Char.ofNat (0x41 + n)) = [(Char.ofNat (0x41 + n)).toLower] := by
    decide
  exact hall n hn

theorem head_of_isDigit {c : Char} (h : c.isDigit = true) :
    isLower c = false ∧ isWordHead c = true ∧ lowerChar c = [c.toLower] := by
  simp only [Char.isDigit, Bool.and_eq_true, decide_eq_true_eq, UInt32.le_iff_toNat_le] at h
  have hfirst : 0x30 ≤ c.toNat := h.1
  have hlast : c.toNat ≤ 0x39 := h.2
  have hall : ∀ n < 10, isLower (Char.ofNat (0x30 + n)) = false ∧
      isWordHead (Char.ofNat (0x30 + n)) = true ∧
      lowerChar (Char.ofNat (0x30 + n)) = [(Char.ofNat (0x30 + n)).toLower] := by
    decide
  have hdigit := hall (c.toNat - 0x30) (by omega)
  rwa [Nat.add_sub_cancel' hfirst, Char.ofNat_toNat] at hdigit

/-! ### One word -/

section

variable {v w : List Char}

/-- Every character of a run can begin a word. -/
theorem IsRun.heads (h : IsRun w) :
    ∀ c ∈ w, isLower c = false ∧ isWordHead c = true ∧ lowerChar c = [c.toLower] := by
  cases h with
  | acronym _ h => exact fun c hc => head_of_isUpper (h c hc)
  | number _ h => exact fun c hc => head_of_isDigit (h c hc)

/-- A word with a small letter is no run. -/
theorem IsCapitalized.not_isRun (h : IsCapitalized w) : ¬ IsRun w := by
  obtain ⟨c, rest, rfl, -, hne, hrest⟩ := h
  obtain ⟨d, rest, rfl⟩ := List.exists_cons_of_ne_nil hne
  intro hrun
  have hsmall := (hrun.heads d (.tail _ (.head _))).1
  rw [(small_of_isLower (hrest d (.head _))).1] at hsmall
  cases hsmall

/-- A word begins with a character that can begin one. -/
theorem exists_head (h : IsCapitalized w ∨ IsRun w) :
    ∃ c rest, w = c :: rest ∧ isWordHead c = true := by
  rcases h with ⟨c, rest, rfl, hc, -⟩ | hrun
  · exact ⟨c, rest, rfl, (head_of_isUpper hc).2.1⟩
  · have hne : w ≠ [] := by
      rintro rfl
      cases hrun with
      | acronym hlength _ => cases hlength
      | number hne _ => exact hne rfl
    obtain ⟨c, rest, rfl⟩ := List.exists_cons_of_ne_nil hne
    exact ⟨c, rest, rfl, (hrun.heads c (.head _)).2.1⟩

/-- The lower case of a word is that of its letters. -/
theorem lowerWord_eq (h : IsCapitalized w ∨ IsRun w) : lowerWord w = w.map Char.toLower := by
  have hletters : ∀ c ∈ w, lowerChar c = [c.toLower] := by
    rcases h with ⟨c, rest, rfl, hc, -, hrest⟩ | hrun
    · exact List.forall_mem_cons.mpr
        ⟨(head_of_isUpper hc).2.2, fun d hd => (small_of_isLower (hrest d hd)).2.2⟩
    · exact fun c hc => (hrun.heads c hc).2.2
  rw [lowerWord, List.flatMap_def, List.map_congr_left hletters, ← List.flatMap_def,
    ← List.map_eq_flatMap]

/-- **A word is not cut inside**, if what follows can begin a word. -/
theorem not_beginsWord_inside (h : IsCapitalized w ∨ IsRun w) {before left right after : List Char}
    {c : Char} (hw : w = left ++ c :: right) (hleft : left ≠ [])
    (hafter : ∀ d ∈ after.head?, isWordHead d = true) :
    beginsWord (left.reverse ++ before) c (right ++ after) = false := by
  rcases h with ⟨first, rest, hfirst, -, -, hrest⟩ | hrun
  · -- Only the first character of a capitalized word can begin one.
    have hc : c ∈ rest := by
      obtain ⟨d, left, rfl⟩ := List.exists_cons_of_ne_nil hleft
      rw [hfirst] at hw
      obtain ⟨-, rfl⟩ := List.cons.inj hw
      simp
    rw [beginsWord.eq_def, (small_of_isLower (hrest c hc)).2.1, Bool.false_and]
  · obtain ⟨left, previous, rfl⟩ : ∃ shorter last, left = shorter ++ [last] :=
      ⟨_, _, (List.dropLast_append_getLast hleft).symm⟩
    have hheads := hrun.heads
    rw [hw] at hheads
    simp only [List.forall_mem_append, List.forall_mem_singleton, List.forall_mem_cons] at hheads
    obtain ⟨⟨-, hprevious, -⟩, -, hright⟩ := hheads
    rw [← Bool.not_eq_true, List.reverse_append, List.reverse_singleton, List.append_assoc,
      List.singleton_append, beginsWord_cons_iff]
    rintro ⟨-, hlower | ⟨-, -, next, hnext, hsmall⟩⟩
    · rw [hprevious] at hlower
      cases hlower
    · have hhead : isWordHead next = true := by
        cases right with
        | nil => exact hafter next hnext
        | cons d right =>
            obtain rfl : d = next := by simpa using hnext
            exact (hright d (.head _)).2.1
      rw [hhead] at hsmall
      cases hsmall

/-- **A word begins behind another one**, unless both are runs. -/
theorem beginsWord_behind (hv : IsCapitalized v ∨ IsRun v) (hapart : ¬ (IsRun v ∧ IsRun w))
    {before rest after : List Char} {c : Char} (hw : IsCapitalized w ∨ IsRun w)
    (hhead : w = c :: rest) (hlength : 2 ≤ (v.reverse ++ before).length) :
    beginsWord (v.reverse ++ before) c (rest ++ after) = true := by
  obtain ⟨c', rest', hhead', hc⟩ := exists_head hw
  obtain ⟨rfl, rfl⟩ := List.cons.inj (hhead.symm.trans hhead')
  obtain ⟨_, _, hne, -⟩ := exists_head hv
  obtain ⟨v, last, rfl⟩ : ∃ shorter last, v = shorter ++ [last] :=
    ⟨_, _, (List.dropLast_append_getLast (hne ▸ List.cons_ne_nil _ _)).symm⟩
  rw [List.reverse_append, List.reverse_singleton, List.append_assoc,
    List.singleton_append] at hlength ⊢
  refine beginsWord_cons_iff.mpr ⟨hc, ?_⟩
  rcases hv with ⟨first, small, hfirst, -, hsmall, hletters⟩ | hrun
  · left
    have hlast : last ∈ small := by
      cases v with
      | nil =>
          obtain ⟨-, rfl⟩ := List.cons.inj hfirst
          exact absurd rfl hsmall
      | cons d v =>
          obtain ⟨-, rfl⟩ := List.cons.inj hfirst
          simp
    exact (small_of_isLower (hletters last hlast)).1
  · -- Behind a run comes a capitalized word, so a small letter follows its first one.
    right
    obtain ⟨first, small, hfirst, -, hsmall, hletters⟩ :=
      hw.resolve_right fun hrun' => hapart ⟨hrun, hrun'⟩
    obtain ⟨rfl, rfl⟩ := List.cons.inj (hhead.symm.trans hfirst)
    obtain ⟨next, rest, rfl⟩ := List.exists_cons_of_ne_nil hsmall
    refine ⟨?_, (hrun.heads last (by simp)).2.1, next, rfl, ?_⟩
    · rintro hnil
      rw [hnil] at hlength
      simp at hlength
    · exact (small_of_isLower (hletters next (.head _))).2.1

end

/-! ### All words -/

/-- Where no character begins a word, the word that is being read goes on. -/
theorem wordsFrom_append {before word middle after : List Char}
    (h : ∀ left c right, middle = left ++ c :: right →
      beginsWord (left.reverse ++ before) c (right ++ after) = false) :
    wordsFrom before word (middle ++ after) =
      wordsFrom (middle.reverse ++ before) (word ++ middle) after := by
  induction middle generalizing before word with
  | nil => rw [List.nil_append, List.reverse_nil, List.nil_append, List.append_nil]
  | cons c middle ih =>
      have hfirst : beginsWord before c (middle ++ after) = false := h [] c middle rfl
      rw [List.cons_append, wordsFrom, hfirst, if_neg Bool.false_ne_true, ih ?_, List.reverse_cons,
        List.append_assoc, List.append_assoc, List.singleton_append, List.singleton_append]
      intro left d right hsplit
      have hlater := h (c :: left) d right (by rw [hsplit, List.cons_append])
      rwa [List.reverse_cons, List.append_assoc, List.singleton_append] at hlater

/-- **One word of several** is read to its end. -/
theorem wordsFrom_word {w after before : List Char} {c : Char} {rest : List Char}
    (h : IsCapitalized w ∨ IsRun w) (hw : w = c :: rest)
    (hafter : ∀ d ∈ after.head?, isWordHead d = true) :
    wordsFrom (c :: before) [c] (rest ++ after) = wordsFrom (w.reverse ++ before) w after := by
  subst hw
  rw [wordsFrom_append ?_, List.reverse_cons, List.append_assoc, List.singleton_append,
    List.singleton_append]
  intro left d right hsplit
  have hword : c :: rest = (c :: left) ++ d :: right := by rw [hsplit, List.cons_append]
  have hinside : beginsWord ((c :: left).reverse ++ before) d (right ++ after) = false :=
    not_beginsWord_inside h hword (List.cons_ne_nil c left) hafter
  rwa [List.reverse_cons, List.append_assoc, List.singleton_append] at hinside

/-- What words begin with can begin a word. -/
theorem isWordHead_of_flatten {ws : List (List Char)}
    (h : ∀ w ∈ ws, IsCapitalized w ∨ IsRun w) :
    ∀ d ∈ ws.flatten.head?, isWordHead d = true := by
  cases ws with
  | nil => exact nofun
  | cons w ws =>
      obtain ⟨c, rest, rfl, hc⟩ := exists_head (h w (.head _))
      rintro d hd
      obtain rfl : c = d := by simpa using hd
      exact hc

/-- **Words that are put together are cut apart again**, behind a first one. -/
theorem wordsFrom_flatten {before v : List Char} {ws : List (List Char)}
    (hwords : ∀ w ∈ v :: ws, IsCapitalized w ∨ IsRun w)
    (hapart : (v :: ws).IsChain fun v w => ¬ (IsRun v ∧ IsRun w))
    (hlength : 2 ≤ (v.reverse ++ before).length) :
    wordsFrom (v.reverse ++ before) v ws.flatten = v :: ws := by
  -- What stands in front grows by a word a step, so it stays as long as it has to be.
  induction ws generalizing before v with
  | nil => rfl
  | cons w ws ih =>
      obtain ⟨hv, hws⟩ := List.forall_mem_cons.mp hwords
      obtain ⟨hw, hlater⟩ := List.forall_mem_cons.mp hws
      obtain ⟨hvw, hchain⟩ := List.isChain_cons_cons.mp hapart
      obtain ⟨c, rest, hhead, -⟩ := exists_head hw
      have hbegins : beginsWord (v.reverse ++ before) c (rest ++ ws.flatten) = true :=
        beginsWord_behind hv hvw hw hhead hlength
      have hcut : (w :: ws).flatten = c :: (rest ++ ws.flatten) := by
        rw [List.flatten_cons, hhead, List.cons_append]
      rw [hcut, wordsFrom, if_pos hbegins, wordsFrom_word hw hhead (isWordHead_of_flatten hlater),
        ih hws hchain]
      rw [List.length_append]
      omega

/-- The words of a name are those that it was put together from. -/
theorem snakeWords_flatten {ws : List (List Char)} (h : CamelWords ws) :
    snakeWords ws.flatten = ws := by
  cases ws with
  | nil => rfl
  | cons w ws =>
      obtain ⟨hw, hws⟩ := List.forall_mem_cons.mp h.words
      obtain ⟨c, rest, hhead, -⟩ := exists_head hw
      have hlength : 2 ≤ w.length := by
        rcases hw with ⟨c, rest, rfl, -, hne, -⟩ | hrun
        · have := List.length_pos_iff.mpr hne
          rw [List.length_cons]
          omega
        · cases hrun with
          | acronym hlength _ => exact hlength
          | number _ hdigits => exact absurd hdigits (h.first w rfl)
      have hcut : (w :: ws).flatten = c :: (rest ++ ws.flatten) := by
        rw [List.flatten_cons, hhead, List.cons_append]
      rw [hcut, snakeWords, wordsFrom_word hw hhead (isWordHead_of_flatten hws)]
      exact wordsFrom_flatten h.words h.apart (by simpa using hlength)

/-- **The snake case of words** that a name is put together from is these words in lower case with
underscores between them. The snake case of any name is the lower case of its characters, cut into
pieces that are not empty, with underscores between the pieces; it is cut where a word begins. -/
theorem snakeCase_joins_words :
    (∀ ws, CamelWords ws → snakeCase (String.ofList ws.flatten) =
      "_".intercalate (ws.map fun w => String.ofList (w.map Char.toLower))) ∧
    ∀ name : String, ∃ pieces,
      pieces = (snakeWords name.toList).map lowerWord ∧
      (snakeWords name.toList).flatten = name.toList ∧
      (snakeCase name).toList = ['_'].intercalate pieces ∧
      pieces.flatten = name.toList.flatMap lowerChar ∧
      (∀ piece ∈ pieces, piece ≠ []) ∧
      ∀ front c back, name.toList = front ++ c :: back → front ≠ [] →
        (CutBetween front (c :: back) ↔ beginsWord front.reverse c back = true) := by
  refine ⟨fun ws h => ?_, fun name => ⟨_, rfl, flatten_snakeWords _, snakeCase_toList name, ?_, ?_,
    fun front c back _ hfront => cutBetween_iff hfront⟩⟩
  · have hlower : ws.map lowerWord = ws.map (List.map Char.toLower) :=
      List.map_congr_left fun w hw => lowerWord_eq (h.words w hw)
    rw [← String.toList_inj, snakeCase_toList, String.toList_ofList, snakeWords_flatten h, hlower,
      String.toList_intercalate, List.map_map]
    simp [Function.comp_def]
  · have hmap : ∀ ws : List (List Char), (ws.map lowerWord).flatten = lowerWord ws.flatten := by
      intro ws
      induction ws with
      | nil => rfl
      | cons w ws ih =>
          rw [List.map_cons, List.flatten_cons, ih, List.flatten_cons, lowerWord, lowerWord, lowerWord,
            List.flatMap_append]
    rw [hmap, flatten_snakeWords, lowerWord]
  · rw [List.forall_mem_map]
    intro w hw
    obtain ⟨c, rest, rfl⟩ := List.exists_cons_of_ne_nil (ne_nil_of_mem_snakeWords w hw)
    obtain ⟨d, ds, hd⟩ := Text.exists_cons_lowerChar c
    rw [lowerWord, List.flatMap_cons, hd]
    exact List.cons_ne_nil _ _

/-- `snakeCase_joins_words` for a name with words of all kinds. -/
theorem snakeCase_joins_words_acronym :
    CamelWords [['I', 'D'], ['A', 's'], ['1', '0'], ['O', 'f']] ∧
      snakeCase "IDAs10Of" = "id_as_10_of" := by
  have hletters : ∀ c ∈ ['I', 'D'], c.isUpper = true := List.all_eq_true.mp (by decide)
  have hdigits : ∀ c ∈ ['1', '0'], c.isDigit = true := List.all_eq_true.mp (by decide)
  have has : IsCapitalized ['A', 's'] := ⟨'A', ['s'], rfl, rfl, by simp, by simp⟩
  have hof : IsCapitalized ['O', 'f'] := ⟨'O', ['f'], rfl, rfl, by simp, by simp⟩
  have hwords : CamelWords [['I', 'D'], ['A', 's'], ['1', '0'], ['O', 'f']] := by
    refine ⟨?_, ?_, ?_⟩
    · simp only [List.forall_mem_cons]
      exact ⟨.inr (.acronym (Nat.le_refl 2) hletters), .inl has,
        .inr (.number (List.cons_ne_nil _ _) hdigits), .inl hof, List.forall_mem_nil _⟩
    · simp [has.not_isRun, hof.not_isRun]
    · rintro w ⟨⟩ hdigit
      exact absurd (hdigit 'I' (.head _)) (by decide)
  have hjoined := snakeCase_joins_words.1 _ hwords
  have hname : String.ofList [['I', 'D'], ['A', 's'], ['1', '0'], ['O', 'f']].flatten =
      "IDAs10Of" := by decide
  rw [hname] at hjoined
  refine ⟨hwords, hjoined.trans ?_⟩
  decide

end FluentBuilder

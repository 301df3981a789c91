import Mathlib.Data.List.Chain
import FluentBuilder.Proofs.Capitals
import FluentBuilder.SnakeCase

/-!
# Word breaks — the words that a name is cut into

`snakeWords` gives the words of a name, and its snake case is these words in lower case with
underscores between them. So an underscore is put where one word ends and the next one begins, and
the name is `CutBetween` the two.

* **`snakeCase_toList`** — the snake case of a name is its words in lower case.
* **`cutBetween_iff`** — a name is cut in front of a character that begins a word, and nowhere else.
* **`snakeCase_numbers`** — which numbers are torn apart, and `snakeCase_tears_number` shows that
  there are some.
-/

namespace FluentBuilder

open Text (isUpper isLower isNumeric lowerChar)

/-- **What begins a word behind another character**: what can begin one, behind a small letter, or
behind a character that can begin one as well, if that is not the first one and something else
follows. -/
theorem beginsWord_cons_iff {previous c : Char} {earlier after : List Char} :
    beginsWord (previous :: earlier) c after = true ↔
      isWordHead c = true ∧ (isLower previous = true ∨ earlier ≠ [] ∧ isWordHead previous = true ∧
        ∃ next ∈ after.head?, isWordHead next = false) := by
  cases earlier <;> cases after <;> simp [beginsWord]

/-! ## The words of a name -/

/-- The words of a text that stands behind `before`, which is given backwards. The first of them goes
on with `word`, the end of what stands before. -/
def wordsFrom (before word : List Char) : List Char → List (List Char)
  | [] => [word]
  | c :: rest =>
    if beginsWord before c rest then word :: wordsFrom (c :: before) [c] rest
    else wordsFrom (c :: before) (word ++ [c]) rest

/-- The words of a name. -/
def snakeWords : List Char → List (List Char)
  | [] => []
  | c :: rest => wordsFrom [c] [c] rest

/-- A word in lower case. -/
def lowerWord (word : List Char) : List Char := word.flatMap lowerChar

theorem wordsFrom_ne_nil (before word cs : List Char) : wordsFrom before word cs ≠ [] := by
  induction cs generalizing before word with
  | nil => exact List.cons_ne_nil _ _
  | cons c rest ih =>
      rw [wordsFrom]
      split
      · exact List.cons_ne_nil _ _
      · exact ih _ _

/-- The words are the text, cut into pieces. -/
theorem flatten_wordsFrom (before word cs : List Char) :
    (wordsFrom before word cs).flatten = word ++ cs := by
  induction cs generalizing before word with
  | nil => simp [wordsFrom]
  | cons c rest ih =>
      rw [wordsFrom]
      split
      · rw [List.flatten_cons, ih, List.singleton_append]
      · rw [ih, List.append_assoc, List.singleton_append]

theorem flatten_snakeWords (name : List Char) : (snakeWords name).flatten = name := by
  cases name with
  | nil => rfl
  | cons c rest => exact flatten_wordsFrom [c] [c] rest

/-- No word is empty. -/
theorem ne_nil_of_mem_wordsFrom {before word cs : List Char} (hword : word ≠ []) :
    ∀ w ∈ wordsFrom before word cs, w ≠ [] := by
  induction cs generalizing before word with
  | nil => simpa [wordsFrom] using hword
  | cons c rest ih =>
      rw [wordsFrom]
      split
      · exact List.forall_mem_cons.mpr ⟨hword, ih (List.cons_ne_nil c [])⟩
      · exact ih (List.append_ne_nil_of_left_ne_nil hword [c])

theorem ne_nil_of_mem_snakeWords {name : List Char} : ∀ w ∈ snakeWords name, w ≠ [] := by
  cases name with
  | nil => exact nofun
  | cons c rest => exact ne_nil_of_mem_wordsFrom (List.cons_ne_nil c [])

/-- The snake case of a text and of the word in front of it. -/
theorem intercalate_wordsFrom (before word cs : List Char) :
    ['_'].intercalate ((wordsFrom before word cs).map lowerWord) =
      lowerWord word ++ snakeFrom before cs := by
  induction cs generalizing before word with
  | nil => simp [wordsFrom, snakeFrom]
  | cons c rest ih =>
      rw [wordsFrom, snakeFrom]
      split
      · have hne : (wordsFrom (c :: before) [c] rest).map lowerWord ≠ [] :=
          fun hnil => wordsFrom_ne_nil _ _ _ (List.map_eq_nil_iff.mp hnil)
        rw [List.map_cons, List.intercalate_cons_of_ne_nil hne, ih]
        simp [lowerWord]
      · rw [ih]
        simp [lowerWord]

/-- **The snake case of a name** is its words in lower case, with underscores between them. -/
theorem snakeCase_toList (name : String) :
    (snakeCase name).toList = ['_'].intercalate ((snakeWords name.toList).map lowerWord) := by
  rw [snakeCase, String.toList_ofList]
  cases name.toList with
  | nil => rfl
  | cons c rest =>
      -- Nothing stands in front of the first character, so it begins no word behind another one.
      have hfirst : beginsWord [] c rest = false := Bool.and_false _
      rw [snakeWords, intercalate_wordsFrom, snakeFrom, hfirst]
      simp [lowerWord]

/-! ## Where a name is cut -/

/-- A name is cut between its two parts: the first words make up the one, the others the other. -/
def CutBetween (front back : List Char) : Prop :=
  ∃ words words', snakeWords (front ++ back) = words ++ words' ∧ words.flatten = front ∧
    words'.flatten = back

/-- Where a character begins a word, the words in front of it end. -/
theorem wordsFrom_of_beginsWord {before front back : List Char} {c : Char}
    (h : beginsWord (front.reverse ++ before) c back = true) (word : List Char) :
    ∃ words, wordsFrom before word (front ++ c :: back) =
      words ++ wordsFrom (c :: (front.reverse ++ before)) [c] back := by
  induction front generalizing before word with
  | nil =>
      rw [List.reverse_nil, List.nil_append] at h ⊢
      rw [List.nil_append, wordsFrom, if_pos h]
      exact ⟨[word], rfl⟩
  | cons d front ih =>
      rw [List.reverse_cons, List.append_assoc, List.singleton_append] at h
      rw [List.reverse_cons, List.append_assoc, List.singleton_append, List.cons_append, wordsFrom]
      split
      · obtain ⟨words, hwords⟩ := ih h [d]
        exact ⟨word :: words, by rw [hwords, List.cons_append]⟩
      · exact ih h _

/-- The first of several words goes on with the end of what stands before. -/
theorem wordsFrom_eq_cons (before word cs : List Char) :
    ∃ others words, wordsFrom before word cs = (word ++ others) :: words := by
  induction cs generalizing before word with
  | nil => exact ⟨[], [], by rw [wordsFrom, List.append_nil]⟩
  | cons c rest ih =>
      rw [wordsFrom]
      split
      · exact ⟨[], wordsFrom (c :: before) [c] rest, by rw [List.append_nil]⟩
      · obtain ⟨others, words, hwords⟩ := ih (c :: before) (word ++ [c])
        exact ⟨c :: others, words, by rw [hwords, List.append_assoc, List.singleton_append]⟩

/-- Where some words end, the next character begins a word. -/
theorem beginsWord_of_wordsFrom {before word front back : List Char} {c : Char}
    {words words' : List (List Char)} (hword : word ≠ [])
    (h : wordsFrom before word (front ++ c :: back) = words ++ words')
    (hflatten : words.flatten = word ++ front) :
    beginsWord (front.reverse ++ before) c back = true := by
  induction front generalizing before word words with
  | nil =>
      rw [List.nil_append, wordsFrom] at h
      split at h
      case isTrue hbegins => exact hbegins
      case isFalse =>
        -- The first word goes beyond `word`, where the words should have ended.
        obtain ⟨others, later, hwords⟩ := wordsFrom_eq_cons (c :: before) (word ++ [c]) back
        rw [hwords] at h
        rw [List.append_nil] at hflatten
        cases words with
        | nil => exact absurd hflatten.symm hword
        | cons w words =>
            obtain ⟨rfl, -⟩ := List.cons.inj h
            have hlength := congrArg List.length hflatten
            simp only [List.flatten_cons, List.length_append, List.length_singleton] at hlength
            omega
  | cons d front ih =>
      rw [List.reverse_cons, List.append_assoc, List.singleton_append]
      rw [List.cons_append, wordsFrom] at h
      split at h
      · cases words with
        | nil => exact absurd (List.append_eq_nil_iff.mp hflatten.symm).1 hword
        | cons w words =>
            obtain ⟨rfl, hrest⟩ := List.cons.inj h
            rw [List.flatten_cons, List.append_cancel_left_eq] at hflatten
            exact ih (List.cons_ne_nil d []) hrest hflatten
      · rw [List.append_cons] at hflatten
        exact ih (List.append_ne_nil_of_left_ne_nil hword [d]) h hflatten

/-- **A name is cut in front of a character** that begins a word, and nowhere else. -/
theorem cutBetween_iff {front back : List Char} {c : Char} (hfront : front ≠ []) :
    CutBetween front (c :: back) ↔ beginsWord front.reverse c back = true := by
  obtain ⟨first, front, rfl⟩ := List.exists_cons_of_ne_nil hfront
  rw [List.reverse_cons]
  constructor
  · rintro ⟨words, words', hwords, hflatten, -⟩
    exact beginsWord_of_wordsFrom (List.cons_ne_nil first []) hwords hflatten
  · intro h
    obtain ⟨words, hwords⟩ := wordsFrom_of_beginsWord h [first]
    have hflatten := flatten_wordsFrom [first] [first] (front ++ c :: back)
    rw [hwords, List.flatten_append, flatten_wordsFrom, List.singleton_append, List.singleton_append,
      ← List.cons_append, List.append_cancel_right_eq] at hflatten
    exact ⟨words, _, hwords, hflatten, flatten_wordsFrom _ [c] back⟩

/-! ## Numbers -/

/-- A name is cut inside of its middle part. -/
def CutInside (front middle back : List Char) : Prop :=
  ∃ left right, middle = left ++ right ∧ left ≠ [] ∧ right ≠ [] ∧
    CutBetween (front ++ left) (right ++ back)

/-- A number can begin a word. -/
theorem isWordHead_of_isNumeric {c : Char} (h : isNumeric c = true) : isWordHead c = true := by
  rw [isWordHead, h, Bool.or_true]

/-- **Where a number is cut**: behind a small letter, or in front of its last character if something
else follows that can begin no word. -/
theorem cutBetween_numbers {front back : List Char} {a b : Char} (ha : isNumeric a = true)
    (hb : isNumeric b = true) :
    CutBetween (front ++ [a]) (b :: back) ↔
      isLower a = true ∨ front ≠ [] ∧ ∃ c ∈ back.head?, isWordHead c = false := by
  rw [cutBetween_iff (by simp), List.reverse_append, List.reverse_singleton, List.singleton_append,
    beginsWord_cons_iff]
  simp only [isWordHead_of_isNumeric ha, isWordHead_of_isNumeric hb, true_and, Ne,
    List.reverse_eq_nil_iff]

/-- A text of two parts is cut between the last character of the one and the first of the other. -/
theorem cutInside_iff {front middle back : List Char} :
    CutInside front middle back ↔
      ∃ left a b right, middle = left ++ a :: b :: right ∧
        CutBetween (front ++ left ++ [a]) (b :: (right ++ back)) := by
  constructor
  · rintro ⟨left, right, rfl, hleft, hright, hcut⟩
    obtain ⟨b, right, rfl⟩ := List.exists_cons_of_ne_nil hright
    obtain ⟨left, a, rfl⟩ : ∃ shorter last, left = shorter ++ [last] :=
      ⟨_, _, (List.dropLast_append_getLast hleft).symm⟩
    rw [← List.append_assoc] at hcut
    exact ⟨left, a, b, right, (List.append_cons left a (b :: right)).symm, hcut⟩
  · rintro ⟨left, a, b, right, rfl, hcut⟩
    refine ⟨left ++ [a], b :: right, List.append_cons left a (b :: right), by simp, by simp, ?_⟩
    rw [← List.append_assoc]
    exact hcut

/-- **Where several numbers are cut**, if no other one follows: behind a small letter, or in front of
the last one. -/
theorem cutInside_numbers {front run back : List Char} (hrun : ∀ c ∈ run, isNumeric c = true)
    (hback : ∀ c ∈ back.head?, isNumeric c = false) :
    CutInside front run back ↔
      (∃ c ∈ run.dropLast, isLower c = true) ∨
        2 ≤ run.length ∧ 3 ≤ front.length + run.length ∧ ∃ c ∈ back.head?, isUpper c = false := by
  rw [cutInside_iff]
  constructor
  · rintro ⟨left, a, b, right, rfl, hcut⟩
    simp only [List.forall_mem_append, List.forall_mem_cons] at hrun
    obtain ⟨-, ha, hb, hright⟩ := hrun
    rcases (cutBetween_numbers ha hb).mp hcut with hlower | ⟨hfront, c, hc, hhead⟩
    · refine .inl ⟨a, ?_, hlower⟩
      rw [List.dropLast_append_of_ne_nil (List.cons_ne_nil _ _)]
      simp
    · -- A number behind them could begin a word, so it is the last one that is cut off.
      cases right with
      | cons d right =>
          obtain rfl : d = c := by simpa using hc
          rw [isWordHead_of_isNumeric (hright d (.head _))] at hhead
          cases hhead
      | nil =>
          rw [isWordHead, Bool.or_eq_false_iff] at hhead
          have hlength := List.length_pos_iff.mpr hfront
          simp only [List.length_append, List.length_cons, List.length_nil] at hlength ⊢
          exact .inr ⟨by omega, by omega, c, hc, hhead.1⟩
  · intro h
    have hne : run ≠ [] := by
      rintro rfl
      simp at h
    obtain ⟨shorter, last, rfl⟩ : ∃ shorter last, run = shorter ++ [last] :=
      ⟨_, _, (List.dropLast_append_getLast hne).symm⟩
    rw [List.dropLast_concat] at h
    rcases h with ⟨a, ha, hlower⟩ | ⟨htwo, hthree, c, hc, hupper⟩
    · obtain ⟨left, right, rfl⟩ := List.append_of_mem ha
      obtain ⟨b, right', hright⟩ : ∃ b right', right ++ [last] = b :: right' :=
        List.exists_cons_of_ne_nil (List.append_ne_nil_of_right_ne_nil right (by simp))
      have hsplit : left ++ a :: right ++ [last] = left ++ a :: b :: right' := by
        rw [List.append_assoc, List.cons_append, hright]
      rw [hsplit] at hrun ⊢
      simp only [List.forall_mem_append, List.forall_mem_cons] at hrun
      exact ⟨left, a, b, right', rfl,
        (cutBetween_numbers hrun.2.1 hrun.2.2.1).mpr (.inl hlower)⟩
    · have hshorter : shorter ≠ [] := by
        rintro rfl
        simp at htwo
      obtain ⟨left, a, rfl⟩ : ∃ left a, shorter = left ++ [a] :=
        ⟨_, _, (List.dropLast_append_getLast hshorter).symm⟩
      simp only [List.forall_mem_append, List.forall_mem_singleton] at hrun
      have hfront : front ++ left ≠ [] := by
        rintro hnil
        obtain ⟨rfl, rfl⟩ := List.append_eq_nil_iff.mp hnil
        simp at hthree
      have hhead : isWordHead c = false := by
        rw [isWordHead, hupper, hback c hc]
        rfl
      exact ⟨left, a, last, [], by simp,
        (cutBetween_numbers hrun.1.2 hrun.2).mpr (.inr ⟨hfront, c, hc, hhead⟩)⟩

/-- **Which numbers are torn apart.** The snake case of a name is its words with underscores between
them. One stands between two numbers next to each other if the first of them is a small letter, or if
it is not the first character of the name and something follows the second one that is neither a
number nor a capital letter. So several numbers that end where the numbers end are torn apart if one
of them but the last is a small letter, or if they are followed by something other than a capital
letter, unless they are the first two characters of the name. -/
theorem snakeCase_numbers (name : String) :
    (snakeCase name).toList = ['_'].intercalate ((snakeWords name.toList).map lowerWord) ∧
    (∀ front a b back, name.toList = front ++ a :: b :: back → isNumeric a = true →
      isNumeric b = true →
      (CutBetween (front ++ [a]) (b :: back) ↔
        isLower a = true ∨ front ≠ [] ∧ ∃ c ∈ back.head?, isWordHead c = false)) ∧
    ∀ front run back, name.toList = front ++ run ++ back → (∀ c ∈ run, isNumeric c = true) →
      (∀ c ∈ back.head?, isNumeric c = false) →
      (CutInside front run back ↔
        (∃ c ∈ run.dropLast, isLower c = true) ∨
          2 ≤ run.length ∧ 3 ≤ front.length + run.length ∧
            ∃ c ∈ back.head?, isUpper c = false) :=
  ⟨snakeCase_toList name, fun _ _ _ _ _ ha hb => cutBetween_numbers ha hb,
    fun _ _ _ _ hrun hback => cutInside_numbers hrun hback⟩

/-- `snakeCase_numbers` for the names `Hel10Yall` and `Hel10yall`. -/
theorem snakeCase_numbers_hel :
    ¬ CutInside "Hel".toList "10".toList "Yall".toList ∧
      CutInside "Hel".toList "10".toList "yall".toList := by
  have hdigits : ∀ c ∈ "10".toList, isNumeric c = true := List.all_eq_true.mp (by decide)
  have hcapital : ∀ c ∈ "Yall".toList.head?, isNumeric c = false := by
    intro c hc
    obtain rfl : 'Y' = c := Option.some.inj hc
    decide
  have hsmall : ∀ c ∈ "yall".toList.head?, isNumeric c = false := by
    intro c hc
    obtain rfl : 'y' = c := Option.some.inj hc
    decide
  obtain ⟨-, -, hwhole⟩ := snakeCase_numbers "Hel10Yall"
  obtain ⟨-, -, htorn⟩ := snakeCase_numbers "Hel10yall"
  rw [hwhole _ _ _ rfl hdigits hcapital, htorn _ _ _ rfl hdigits hsmall]
  constructor
  · rintro (⟨c, hc, hlower⟩ | ⟨-, -, c, hc, hupper⟩)
    · obtain rfl : c = '1' := List.mem_singleton.mp hc
      exact absurd hlower (by decide)
    · obtain rfl : 'Y' = c := Option.some.inj hc
      exact absurd hupper (by decide)
  · exact .inr ⟨by decide, by decide, 'y', rfl, by decide⟩

/-- **A number can be torn apart**: in `Top100_songs` the last digit is cut off. -/
theorem snakeCase_tears_number :
    snakeCase "Top100_songs" = "top_10_0_songs" ∧
    ¬ ∀ front a b back, isNumeric a = true → isNumeric b = true →
      ¬ CutBetween (front ++ [a]) (b :: back) := by
  refine ⟨by decide, fun h => h "Top1".toList '0' '0' "_songs".toList ?_ ?_ ?_⟩
  · decide
  · decide
  · exact (cutBetween_iff (by simp)).mpr (by decide)

end FluentBuilder

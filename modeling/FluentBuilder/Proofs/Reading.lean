import FluentBuilder.Proofs.Unambiguous

/-!
# Reading — what rules read from a text that is known

`Rule.Reads` says what a rule reads from the front of a text, and `Rule.Fails` that it does not
follow the text. There is one lemma for each combinator and outcome, called as the combinator is,
and one for each kind of token. What stands in front of a rule is said by the next token: a word
(`AtWord`), no word (`NoWord`) or a mark that closes what is open (`AtClosing`).

* **`Rule.Chain.many`** — a repeated rule reads one thing after the other.
* **`Rule.Extends.extend`** — so does a rule that extends what it has read.
* **`ReadsItems.sepBy`** — items with marks between them are read up to the text behind them.
-/

namespace FluentBuilder.Go

/-- What is said of the characters of a list is decided by going through the list. -/
instance (priority := 1100) decidableForallMemChars (p : Char → Prop) [DecidablePred p]
    (chars : List Char) : Decidable (∀ c ∈ chars, p c) := List.decidableBAll p chars

/-- A rule reads children from the front of a text and leaves the rest. -/
def Rule.Reads (rule : Rule) (s : List Char) (parts : List Part) (rest : List Char) : Prop :=
  rule.read s = some (parts, rest)

/-- A rule does not follow a text. -/
def Rule.Fails (rule : Rule) (s : List Char) : Prop := rule.read s = none

/-! ## Combinators -/

section

variable {first second rule : Rule} {next : List Part → Rule} {s middle rest : List Char}
  {parts a b : List Part} {kind : Kind} {role : Role} {test : List Char → Bool}

/-- Where the first of two rules does not follow a text, the second one decides. -/
theorem Rule.Fails.read_orElse (h : first.Fails s) (second : Rule) :
    (first <|> second).read s = second.read s := by
  unfold Fails at h
  simp only [HOrElse.hOrElse, OrElse.orElse, h]

namespace Rule.Reads

theorem nothing : Rule.nothing.Reads s [] s := rfl

theorem yield : (Rule.yield parts).Reads s parts s := rfl

theorem append (h₁ : first.Reads s a middle) (h₂ : second.Reads middle b rest) :
    (first ++ second).Reads s (a ++ b) rest := by
  have h : (Rule.append first second).read s = some (a ++ b, rest) := by
    unfold Reads at h₁ h₂
    simp only [Rule.append, h₁, h₂]
  exact h

theorem left (h : first.Reads s parts rest) : (first <|> second).Reads s parts rest := by
  unfold Reads at h
  simp only [Reads, HOrElse.hOrElse, OrElse.orElse, h]

theorem right (h₁ : first.Fails s) (h₂ : second.Reads s parts rest) :
    (first <|> second).Reads s parts rest :=
  (h₁.read_orElse second).trans h₂

theorem andThen (h₁ : rule.Reads s a middle) (h₂ : (next a).Reads middle parts rest) :
    (rule.andThen next).Reads s parts rest := by
  unfold Reads at h₁
  simp only [Reads, Rule.andThen, h₁]
  exact h₂

theorem node (h : rule.Reads s parts rest) :
    (rule.node kind).Reads s [⟨none, .node kind parts⟩] rest := h.andThen yield

theorem as (h : rule.Reads s parts rest) :
    (rule.as role).Reads s (parts.map fun part => ⟨some role, part.tree⟩) rest := h.andThen yield

/-- An optional rule that reads something. -/
theorem some (h : rule.Reads s parts rest) : rule.opt.Reads s parts rest := h.left

/-- An optional rule that reads nothing. -/
theorem none (h : rule.Fails s) : rule.opt.Reads s [] s := .right h nothing

theorem ahead (h : test s = true) : (Rule.ahead test).Reads s [] s := if_pos h

theorem notAhead (h : rule.Fails s) : (Rule.notAhead rule).Reads s [] s := by
  refine ahead ?_
  unfold Fails at h
  rw [h]
  rfl

theorem onLine {ends : Bool} (h : ends = false ∨ breakAhead s = false) :
    (Rule.onLine ends).Reads s [] s := by
  refine ahead ?_
  rcases h with rfl | h
  · rfl
  · rw [h, Bool.and_false]
    rfl

/-- Where the first of two readings fails, the second one counts. -/
theorem heavier (h₁ : first.Fails s) (h₂ : second.Reads s parts rest) :
    (Grammar.heavier first second).Reads s parts rest := by
  unfold Fails at h₁
  unfold Reads at h₂
  simp only [Reads, Grammar.heavier, h₁, h₂]

end Rule.Reads

namespace Rule.Fails

theorem never : Rule.never.Fails s := rfl

theorem append (h : first.Fails s) : (first ++ second).Fails s := by
  have h' : (Rule.append first second).read s = none := by
    unfold Fails at h
    simp only [Rule.append, h]
  exact h'

/-- The second of two rules does not follow what the first one leaves. -/
theorem behind (h₁ : first.Reads s a middle) (h₂ : second.Fails middle) :
    (first ++ second).Fails s := by
  have h : (Rule.append first second).read s = none := by
    unfold Reads at h₁
    unfold Fails at h₂
    simp only [Rule.append, h₁, h₂]
  exact h

theorem orElse (h₁ : first.Fails s) (h₂ : second.Fails s) : (first <|> second).Fails s :=
  (h₁.read_orElse second).trans h₂

theorem andThen (h : rule.Fails s) : (rule.andThen next).Fails s := by
  unfold Fails at h
  simp only [Fails, Rule.andThen, h]

theorem node (h : rule.Fails s) : (rule.node kind).Fails s := h.andThen

theorem as (h : rule.Fails s) : (rule.as role).Fails s := h.andThen

theorem ahead (h : test s = false) : (Rule.ahead test).Fails s := by
  simp [Fails, Rule.ahead, h]

theorem notAhead (h : rule.Reads s parts rest) : (Rule.notAhead rule).Fails s := by
  refine ahead ?_
  unfold Reads at h
  rw [h]
  rfl

theorem onLine (h : breakAhead s = true) : (Rule.onLine true).Fails s := by
  refine ahead ?_
  rw [h]
  rfl

theorem firstOf {rules : List Rule} (h : ∀ rule ∈ rules, rule.Fails s) :
    (Grammar.firstOf rules).Fails s := by
  induction rules with
  | nil => exact never
  | cons rule others ih => exact (h rule (.head _)).orElse (ih fun r hr => h r (.tail _ hr))

theorem firstOfMap {α : Type} {make : α → Rule} {items : List α}
    (h : ∀ x ∈ items, (make x).Fails s) : (Grammar.firstOf (items.map make)).Fails s :=
  firstOf fun rule hrule => by
    obtain ⟨x, hx, rfl⟩ := List.mem_map.mp hrule
    exact h x hx

end Rule.Fails

/-- What a rule reads when it is repeated: it reads one thing after the other, each of them not
empty, until it does not follow the text any more. -/
inductive Rule.Chain (rule : Rule) : List Char → List Part → List Char → Prop
  | stop {s : List Char} (h : rule.Fails s) : Chain rule s [] s
  | step {s middle rest : List Char} {a b : List Part} (h : rule.Reads s a middle)
      (hshorter : middle.length < s.length) (hrest : Chain rule middle b rest) :
      Chain rule s (a ++ b) rest

/-- A repeated rule reads a chain, whose length is bounded by that of the text. -/
theorem Rule.Chain.many (h : rule.Chain s parts rest) : rule.many.Reads s parts rest := by
  -- each reading makes the text shorter and takes one character from the bound
  have hbound : ∀ bound : List Char, s.length ≤ bound.length →
      rule.repeatFrom bound s = (parts, rest) := by
    induction h with
    | @stop s h =>
        intro bound _
        cases bound with
        | nil => rfl
        | cons b bound =>
            unfold Rule.Fails at h
            simp only [Rule.repeatFrom, h]
    | @step s middle rest a b h hshorter hrest ih =>
        intro bound hbound
        cases bound with
        | nil =>
            rw [List.length_nil] at hbound
            omega
        | cons c bound =>
            have hmiddle : middle.length ≤ bound.length := by
              rw [List.length_cons] at hbound
              omega
            unfold Rule.Reads at h
            simp only [Rule.repeatFrom, h, ih bound hmiddle]
  exact congrArg Option.some (hbound s le_rfl)

/-- A rule that is repeated with a separator in between. -/
theorem Rule.Reads.sepBy (h₁ : first.Reads s a middle)
    (h₂ : (second ++ first).Chain middle b rest) : (first.sepBy second).Reads s (a ++ b) rest :=
  h₁.append h₂.many

theorem Rule.Fails.sepBy (h : first.Fails s) : (first.sepBy second).Fails s := h.append

/-- What extends the children that were read so far: one reading after the other, each of them not
empty, until there is nothing more. -/
inductive Rule.Extends (step : List Part → Rule) :
    List Part → List Char → List Part → List Char → Prop
  | stop {parts : List Part} {s : List Char} (h : (step parts).Fails s) :
      Extends step parts s parts s
  | step {parts longer all : List Part} {s middle rest : List Char}
      (h : (step parts).Reads s longer middle) (hshorter : middle.length < s.length)
      (hrest : Extends step longer middle all rest) : Extends step parts s all rest

theorem Rule.Extends.extend {step : List Part → Rule} {all : List Part}
    (h : rule.Reads s parts middle) (hstep : Rule.Extends step parts middle all rest) :
    (rule.extend step).Reads s all rest := by
  have hbound : ∀ bound : List Char, middle.length ≤ bound.length →
      Rule.extendFrom step bound parts middle = (all, rest) := by
    clear h
    induction hstep with
    | @stop parts s h =>
        intro bound _
        cases bound with
        | nil => rfl
        | cons b bound =>
            unfold Rule.Fails at h
            simp only [Rule.extendFrom, h]
    | @step parts longer all s middle rest h hshorter hrest ih =>
        intro bound hbound
        cases bound with
        | nil =>
            rw [List.length_nil] at hbound
            omega
        | cons c bound =>
            have hmiddle : middle.length ≤ bound.length := by
              rw [List.length_cons] at hbound
              omega
            unfold Rule.Reads at h
            simp only [Rule.extendFrom, h, ih bound hmiddle]
  exact h.andThen (congrArg Option.some (hbound middle le_rfl))

end

/-! ## Tokens -/

/-- The next token of a text is a word, behind a gap. -/
structure AtWord (s gap word rest : List Char) : Prop where
  front : takeGap s = (gap, word ++ rest)
  word  : IsWord word
  stops : StopsWord rest

section

variable {s gap w rest : List Char} {c : Char} {text : String} {kind : Kind}
  {keywords : List String} {scan : Scan}

/-- A word has a first character, which begins a word. -/
theorem AtWord.exists_front (h : AtWord s gap w rest) :
    ∃ c r, takeGap s = (gap, c :: r) ∧ Text.isIdentStart c = true := by
  obtain ⟨c, cs, rfl, hc, -⟩ := isWord_iff.mp h.word
  exact ⟨c, cs ++ rest, h.front, hc⟩

theorem Rule.Reads.scanLeaf {text left : List Char} (hgap : (takeGap s).1 = gap)
    (h : scan (takeGap s).2 = .some (text, left)) :
    (Rule.scanLeaf kind scan).Reads s [⟨.none, .leaf kind gap text⟩] left := by
  simp only [Rule.Reads, Rule.scanLeaf, hgap, h, Option.map_some]

theorem Rule.Fails.scanLeaf (h : scan (takeGap s).2 = none) :
    (Rule.scanLeaf kind scan).Fails s := by
  simp only [Rule.Fails, Rule.scanLeaf, h, Option.map_none]

theorem Rule.Reads.scanToken {text left : List Char} (hgap : (takeGap s).1 = gap)
    (h : scan (takeGap s).2 = .some (text, left)) :
    (Rule.scanToken scan).Reads s [⟨.none, .token gap text⟩] left := by
  simp only [Rule.Reads, Rule.scanToken, hgap, h, Option.map_some]

theorem Rule.Fails.scanToken (h : scan (takeGap s).2 = none) : (Rule.scanToken scan).Fails s := by
  simp only [Rule.Fails, Rule.scanToken, h, Option.map_none]

/-- A mark that stands in front of a text can be taken off it. -/
theorem dropExact_append (text rest : List Char) : dropExact text (text ++ rest) = some rest := by
  induction text with
  | nil => rfl
  | cons c text ih => rw [List.cons_append, dropExact, if_pos (by simp), ih]

/-- The mark at the front of a text. -/
theorem Rule.Reads.token (h : takeGap s = (gap, text.toList ++ rest)) :
    (Rule.token text).Reads s [⟨.none, .token gap text.toList⟩] rest := by
  refine .scanToken (congrArg Prod.fst h) ?_
  rw [h, mark, dropExact_append]
  rfl

/-- A mark other than the one at the front of a text. -/
theorem Rule.Fails.token (h : takeGap s = (gap, c :: rest)) (hother : text.toList.head? ≠ some c)
    (hne : text.toList ≠ []) : (Rule.token text).Fails s := by
  refine Rule.Fails.scanToken ?_
  obtain ⟨d, ds, htext⟩ := List.exists_cons_of_ne_nil hne
  rw [htext, List.head?_cons, ne_eq, Option.some.injEq] at hother
  simp [h, mark, htext, dropExact, hother]

/-- So are none of several other marks. -/
theorem Rule.Fails.tokens {marks : List String} (h : takeGap s = (gap, c :: rest))
    (hother : ∀ text ∈ marks, text.toList.head? ≠ some c ∧ text.toList ≠ []) :
    ∀ text ∈ marks, (Rule.token text).Fails s :=
  fun text htext => .token h (hother text htext).1 (hother text htext).2

/-- No mark stands where a word does. -/
theorem Rule.Fails.tokenAtWord (h : AtWord s gap w rest)
    (hmark : text.toList.head?.any (!Text.isIdentStart ·) = true) : (Rule.token text).Fails s := by
  obtain ⟨c, r, hfront, hc⟩ := h.exists_front
  cases htext : text.toList with
  | nil => rw [htext] at hmark; cases hmark
  | cons d ds =>
      rw [htext, List.head?_cons, Option.any_some] at hmark
      refine .token hfront ?_ (by simp [htext])
      rw [htext, List.head?_cons, ne_eq, Option.some.injEq]
      rintro rfl
      rw [hc] at hmark
      cases hmark

/-- The word at the front of a text. -/
theorem AtWord.scanned (h : AtWord s gap w rest) : Go.word (takeGap s).2 = some (w, rest) := by
  rw [h.front]
  exact word_append h.word h.stops

theorem AtWord.wordThat {test : List Char → Bool} (h : AtWord s gap w rest) :
    Rule.wordThat test (takeGap s).2 = if test w then some (w, rest) else none := by
  simp only [Rule.wordThat, h.scanned]

theorem Rule.Reads.keyword (h : AtWord s gap w rest) (hw : w = text.toList) :
    (Rule.keyword text).Reads s [⟨.none, .token gap w⟩] rest :=
  .scanToken (congrArg Prod.fst h.front) (h.wordThat.trans (if_pos (beq_iff_eq.mpr hw)))

theorem Rule.Fails.keyword (h : AtWord s gap w rest) (hw : w ≠ text.toList) :
    (Rule.keyword text).Fails s :=
  .scanToken (h.wordThat.trans (if_neg (mt beq_iff_eq.mp hw)))

/-- A word is none of several other ones. -/
theorem Rule.Fails.otherKeywords {words : List String} (h : AtWord s gap w rest)
    (hother : ∀ text ∈ words, w ≠ text.toList) : ∀ text ∈ words, (Rule.keyword text).Fails s :=
  fun text htext => .keyword h (hother text htext)

theorem Rule.Fails.keywordLeaf (h : AtWord s gap w rest) (hw : w ≠ text.toList) :
    (Rule.keywordLeaf kind text).Fails s :=
  .scanLeaf (h.wordThat.trans (if_neg (mt beq_iff_eq.mp hw)))

theorem Rule.Reads.name (h : AtWord s gap w rest) (hw : w ∉ keywords.map String.toList) :
    (Rule.name kind keywords).Reads s [⟨.none, .leaf kind gap w⟩] rest :=
  .scanLeaf (congrArg Prod.fst h.front) (h.wordThat.trans (if_pos (by simpa using hw)))

theorem Rule.Reads.nameAs {role : Role} (h : AtWord s gap w rest)
    (hw : w ∉ keywords.map String.toList) : ((Rule.name kind keywords).as role).Reads s
      [⟨.some role, .leaf kind gap w⟩] rest := .as (.name h hw)

/-- Where every word is a name. -/
theorem Rule.Reads.anyName (h : AtWord s gap w rest) :
    (Rule.name kind []).Reads s [⟨.none, .leaf kind gap w⟩] rest := .name h nofun

theorem Rule.Reads.anyNameAs {role : Role} (h : AtWord s gap w rest) :
    ((Rule.name kind []).as role).Reads s [⟨.some role, .leaf kind gap w⟩] rest := .as (.anyName h)

theorem Rule.Fails.name (h : AtWord s gap w rest) (hw : w ∈ keywords.map String.toList) :
    (Rule.name kind keywords).Fails s :=
  .scanLeaf (h.wordThat.trans (if_neg (by simpa using hw)))

/-! ## Where no word stands -/

/-- The next token of a text is no word. -/
def NoWord (s : List Char) : Prop := word (takeGap s).2 = none

theorem noWord_of_front (h : takeGap s = (gap, c :: rest)) (hc : Text.isIdentStart c = false) :
    NoWord s := by
  rw [NoWord, h]
  simp only [word, hc, Bool.false_eq_true, if_false]

theorem NoWord.wordThat {test : List Char → Bool} (h : NoWord s) :
    Rule.wordThat test (takeGap s).2 = none := by
  unfold NoWord at h
  simp only [Rule.wordThat, h]

theorem NoWord.keyword (h : NoWord s) : (Rule.keyword text).Fails s := .scanToken h.wordThat

theorem NoWord.keywordLeaf (h : NoWord s) : (Rule.keywordLeaf kind text).Fails s :=
  .scanLeaf h.wordThat

theorem NoWord.name (h : NoWord s) : (Rule.name kind keywords).Fails s := .scanLeaf h.wordThat

end

/-- A text begins with its first word, and what stands behind it does not go on with it. -/
theorem eq_append_of_word {s w more : List Char} (h : word s = some (w, more)) :
    s = w ++ more ∧ IsWord w ∧ StopsWord more := by
  refine ⟨(Scan.Takes.word h).symm, word_isWord h, ?_⟩
  cases s with
  | nil => cases h
  | cons c cs =>
      simp only [word] at h
      split at h
      case isTrue hc =>
        cases h
        intro d hd
        have hstop := List.head?_dropWhile_not Text.isIdentPart cs
        rwa [hd] at hstop
      case isFalse => cases h

/-- The first word of a text does not depend on what stands behind the text. -/
theorem word_append_rest {s rest : List Char} (hne : s ≠ []) (hr : StopsWord rest) :
    word (s ++ rest) = (word s).map fun found => (found.1, found.2 ++ rest) := by
  have htail : ∀ cs : List Char,
      (cs ++ rest).takeWhile Text.isIdentPart = cs.takeWhile Text.isIdentPart ∧
        (cs ++ rest).dropWhile Text.isIdentPart = cs.dropWhile Text.isIdentPart ++ rest := by
    intro cs
    induction cs with
    | nil => exact takeWhile_of_head hr
    | cons c cs ih => by_cases hc : Text.isIdentPart c = true <;> simp [hc, ih]
  obtain ⟨c, cs, rfl⟩ := List.exists_cons_of_ne_nil hne
  by_cases hc : Text.isIdentStart c = true <;> simp [word, hc, htail cs]

/-! ## Gaps -/

/-- White space in front of a text belongs to its gap. -/
theorem takeGap_space {c : Char} (hc : isSpace c = true) (s : List Char) :
    takeGap (c :: s) = (c :: (takeGap s).1, (takeGap s).2) := by
  simp only [takeGap, takeGapWith, hc, if_true]

theorem takeGap_spaces {blanks : List Char} (hblanks : ∀ c ∈ blanks, isSpace c = true)
    (s : List Char) : takeGap (blanks ++ s) = (blanks ++ (takeGap s).1, (takeGap s).2) := by
  induction blanks with
  | nil => rfl
  | cons c blanks ih =>
      rw [List.forall_mem_cons] at hblanks
      rw [List.cons_append, takeGap_space hblanks.1, ih hblanks.2]
      rfl

/-- Only a slash begins a comment. -/
theorem comment_of_ne {c : Char} (hslash : c ≠ '/') (s : List Char) : comment (c :: s) = none := by
  unfold comment
  split
  · rename_i h
    exact absurd (List.cons.inj h).1 hslash
  · rename_i h
    exact absurd (List.cons.inj h).1 hslash
  · rfl

/-- A text that begins with a token has no gap. -/
theorem takeGap_stop {c : Char} (hc : isSpace c = false) (hslash : c ≠ '/') (s : List Char) :
    takeGap (c :: s) = ([], c :: s) := by
  simp [takeGap, takeGapWith, hc, comment_of_ne hslash]

theorem takeGap_blank {c : Char} (hc : isSpace c = false) (hslash : c ≠ '/') (s : List Char) :
    takeGap (' ' :: c :: s) = ([' '], c :: s) := by
  rw [takeGap_space (by decide), takeGap_stop hc hslash]

/-- A text with a token behind white space other than line breaks has no line break ahead. -/
theorem breakAhead_space {c : Char} (hc : isSpace c = true) (hline : c ≠ '\n') (s : List Char) :
    breakAhead (c :: s) = breakAhead s := by
  have htest : (isSpace c && c != '\n') = true := by simp [hc, hline]
  simp only [breakAhead, takeLineGap, takeGapWith, htest, if_true]

theorem breakAhead_stop {c : Char} (hc : isSpace c = false) (hslash : c ≠ '/') (s : List Char) :
    breakAhead (c :: s) = false := by
  have hline : c ≠ '\n' := by
    rintro rfl
    cases hc
  simp [breakAhead, takeLineGap, takeGapWith, hc, comment_of_ne hslash, hline]

theorem breakAhead_blank {c : Char} (hc : isSpace c = false) (hslash : c ≠ '/') (s : List Char) :
    breakAhead (' ' :: c :: s) = false := by
  rw [breakAhead_space (by decide) (by decide), breakAhead_stop hc hslash]

theorem breakAhead_blanks {blanks : List Char} (hblanks : ∀ c ∈ blanks, c = ' ') (s : List Char) :
    breakAhead (blanks ++ s) = breakAhead s := by
  induction blanks with
  | nil => rfl
  | cons c blanks ih =>
      rw [List.forall_mem_cons] at hblanks
      rw [List.cons_append, hblanks.1, breakAhead_space (by decide) (by decide), ih hblanks.2]

namespace AtWord

variable {s gap w rest : List Char}

/-- A word in front of a text. -/
theorem of_word (hw : IsWord w) (hr : StopsWord rest) : AtWord (w ++ rest) [] w rest := by
  obtain ⟨c, cs, rfl, hc, -⟩ := isWord_iff.mp hw
  obtain ⟨hspace, hslash⟩ := isSpace_of_isIdentStart hc
  exact ⟨takeGap_stop hspace hslash _, hw, hr⟩

/-- A word behind white space. -/
theorem behind (h : AtWord s gap w rest) {c : Char} (hc : isSpace c = true) :
    AtWord (c :: s) (c :: gap) w rest :=
  ⟨by rw [takeGap_space hc, h.front], h.word, h.stops⟩

theorem behindSpaces (h : AtWord s gap w rest) {blanks : List Char}
    (hblanks : ∀ c ∈ blanks, isSpace c = true) : AtWord (blanks ++ s) (blanks ++ gap) w rest :=
  ⟨by rw [takeGap_spaces hblanks, h.front], h.word, h.stops⟩

end AtWord

/-- A mark at the very front of a text. -/
theorem Rule.Reads.mark {c : Char} {text : String} (htext : text.toList = [c])
    (hc : isSpace c = false ∧ c ≠ '/') {rest : List Char} :
    (Rule.token text).Reads (c :: rest) [⟨.none, .token [] [c]⟩] rest := by
  have hread : (Rule.token text).Reads (c :: rest) [⟨.none, .token [] text.toList⟩] rest :=
    .token (by rw [takeGap_stop hc.1 hc.2, htext]; rfl)
  rwa [htext] at hread

/-- A mark behind white space. -/
theorem Rule.Reads.markBehind {c : Char} {text : String} (htext : text.toList = [c])
    (hc : isSpace c = false ∧ c ≠ '/') {blanks rest : List Char}
    (hblanks : ∀ c ∈ blanks, isSpace c = true) :
    (Rule.token text).Reads (blanks ++ c :: rest) [⟨.none, .token blanks [c]⟩] rest := by
  have hread : (Rule.token text).Reads (blanks ++ c :: rest) [⟨.none, .token blanks text.toList⟩]
      rest :=
    .token (by rw [takeGap_spaces hblanks, takeGap_stop hc.1 hc.2, htext, List.append_nil]; rfl)
  rwa [htext] at hread

theorem Rule.Reads.markBlank {c : Char} {text : String} (htext : text.toList = [c])
    (hc : isSpace c = false ∧ c ≠ '/') {rest : List Char} :
    (Rule.token text).Reads (' ' :: c :: rest) [⟨.none, .token [' '] [c]⟩] rest :=
  .markBehind htext hc (by decide : ∀ c ∈ [' '], isSpace c = true)

theorem Rule.Fails.mark {c : Char} {text : String}
    (htext : text.toList.head? ≠ some c ∧ text.toList ≠ []) (hc : isSpace c = false ∧ c ≠ '/')
    {rest : List Char} : (Rule.token text).Fails (c :: rest) :=
  .token (takeGap_stop hc.1 hc.2 rest) htext.1 htext.2

/-! ## Closing marks -/

/-- Marks that no type and no expression begins with, nor goes on with. -/
def closingMarks : List Char := [')', ']', ',', ':', '=', '\x7b', '\x7d']

/-- The next token of a text is such a mark. -/
def AtClosing (s : List Char) : Prop :=
  ∃ gap c rest, takeGap s = (gap, c :: rest) ∧ c ∈ closingMarks

theorem closingMarks_plain {c : Char} (h : c ∈ closingMarks) :
    isSpace c = false ∧ c ≠ '/' ∧ Text.isIdentPart c = false ∧ Text.isIdentStart c = false :=
  (by decide : ∀ c ∈ closingMarks, isSpace c = false ∧ c ≠ '/' ∧ Text.isIdentPart c = false ∧
    Text.isIdentStart c = false) c h

namespace AtClosing

variable {s : List Char} {text : String} {kind : Kind} {keywords : List String}

theorem of_cons {c : Char} (hc : c ∈ closingMarks) (rest : List Char) : AtClosing (c :: rest) :=
  ⟨[], c, rest, takeGap_stop (closingMarks_plain hc).1 (closingMarks_plain hc).2.1 rest, hc⟩

theorem behind (h : AtClosing s) {c : Char} (hc : isSpace c = true) : AtClosing (c :: s) := by
  obtain ⟨gap, d, rest, hfront, hd⟩ := h
  exact ⟨c :: gap, d, rest, by rw [takeGap_space hc, hfront], hd⟩

theorem behindSpaces (h : AtClosing s) {blanks : List Char}
    (hblanks : ∀ c ∈ blanks, isSpace c = true) : AtClosing (blanks ++ s) := by
  obtain ⟨gap, d, rest, hfront, hd⟩ := h
  exact ⟨blanks ++ gap, d, rest, by rw [takeGap_spaces hblanks, hfront], hd⟩

theorem noWord (h : AtClosing s) : NoWord s := by
  obtain ⟨gap, c, rest, hfront, hc⟩ := h
  exact noWord_of_front hfront (closingMarks_plain hc).2.2.2

/-- A closing mark is none of the others. -/
theorem token (h : AtClosing s) (hne : text.toList ≠ [])
    (htext : ∀ c ∈ closingMarks, text.toList.head? ≠ some c) : (Rule.token text).Fails s := by
  obtain ⟨gap, c, rest, hfront, hc⟩ := h
  exact .token hfront (htext c hc) hne

end AtClosing

/-- What ends a type or an expression: a closing mark, or a line break where `ends` says so. -/
structure Closes (ends : Bool) (rest : List Char) : Prop where
  stops : StopsWord rest
  front : (ends = true ∧ breakAhead rest = true) ∨ AtClosing rest

section

variable {first second third rule : Rule} {s middle rest : List Char} {a : List Part}
  {ends : Bool}

/-- The last two of three rules do not follow what the first one leaves. -/
theorem Rule.Fails.behindBoth (h₁ : first.Reads s a middle) (h₂ : (second ++ third).Fails middle) :
    (first ++ second ++ third).Fails s := by
  cases hsecond : second.read middle with
  | none => exact .append (.behind h₁ hsecond)
  | some found =>
      refine .behind (h₁.append hsecond) ?_
      have h : (Rule.append second third).read middle = none := h₂
      simp only [Rule.append, hsecond] at h
      cases hthird : third.read found.2 with
      | none => exact hthird
      | some left => simp only [hthird] at h; cases h

theorem Rule.ahead_cases (test : List Char → Bool) (s : List Char) :
    (Rule.ahead test).Fails s ∨ (Rule.ahead test).Reads s [] s := by
  cases h : test s with
  | true => exact .inr (.ahead h)
  | false => exact .inl (.ahead h)

theorem Rule.onLine_cases (ends : Bool) (s : List Char) :
    (Rule.onLine ends).Fails s ∨ (Rule.onLine ends).Reads s [] s := Rule.ahead_cases _ s

/-- What does not follow a text does not do so where something is asked of the text either. -/
theorem Rule.Fails.aheadAppend {test : List Char → Bool} (h : rule.Fails s) :
    (Rule.ahead test ++ rule).Fails s := by
  rcases Rule.ahead_cases test s with hahead | hahead
  · exact .append hahead
  · exact .behind hahead h

theorem Rule.Fails.onLineAppend (h : rule.Fails s) : (Rule.onLine ends ++ rule).Fails s :=
  h.aheadAppend

/-- Where a construct ends, nothing goes on with it on the same line. -/
theorem Closes.onLine (h : Closes ends rest) (hrule : AtClosing rest → rule.Fails rest) :
    (Rule.onLine ends ++ rule).Fails rest := by
  rcases h.front with ⟨rfl, hbreak⟩ | hclosing
  · exact .append (.onLine hbreak)
  · exact (hrule hclosing).onLineAppend

end

/-! ## Items with marks between them -/

/-- A rule for what stands between items: a mark, and behind it a margin. -/
structure Separates (separator : Rule) (mark : Char) (margin : List Char) : Prop where
  reads (rest : List Char) : separator.Reads (mark :: rest) [⟨none, .token [] [mark]⟩] rest
  space : ∀ c ∈ margin, isSpace c = true

theorem separates_comma {margin : List Char} (h : ∀ c ∈ margin, isSpace c = true) :
    Separates (.token ",") ',' margin := ⟨fun _ => .mark rfl (by decide), h⟩

/-- A line break ends a line. -/
theorem separates_line {margin : List Char} (h : ∀ c ∈ margin, isSpace c = true) :
    Separates .terminator '\n' margin := ⟨fun _ => rfl, h⟩

/-- Items behind a first one, each behind a mark and a margin, in front of a text. -/
def behindMarks (mark : Char) (margin : List Char) : List (List Char) → List Char → List Char
  | [], rest => rest
  | text :: others, rest => mark :: (margin ++ (text ++ behindMarks mark margin others rest))

/-- Items behind a first one, each behind a comma and a blank. -/
abbrev behindItems : List (List Char) → List Char → List Char := behindMarks ',' [' ']

theorem behindItems_cons (text : List Char) (others : List (List Char)) (rest : List Char) :
    behindItems (text :: others) rest = ',' :: ' ' :: (text ++ behindItems others rest) := rfl

theorem commaSeparated_append (text : List Char) (others : List (List Char)) (rest : List Char) :
    commaSeparated (text :: others) ++ rest = text ++ behindItems others rest := by
  induction others generalizing text with
  | nil => rfl
  | cons next others ih =>
      rw [commaSeparated, List.append_assoc, List.cons_append, List.cons_append, ih next]
      · rfl
      · exact nofun

/-- The trees of items behind a first one, each behind its mark. -/
def itemParts (mark : Char) : List Tree → List Part
  | [] => []
  | tree :: trees => ⟨none, .token [] [mark]⟩ :: ⟨none, tree⟩ :: itemParts mark trees

section

variable {item separator : Rule} {good : List Char → Tree → Prop} {mark : Char}
  {margin : List Char} {texts : List (List Char)} {rest : List Char}

/-- What a rule reads of the last items in front of a text. -/
def ReadsItems (item : Rule) (good : List Char → Tree → Prop) (mark : Char) (margin : List Char)
    (texts : List (List Char)) (rest : List Char) : Prop :=
  ∀ {text others}, text :: others <:+ texts → ∀ {s gap},
    takeGap s = (gap, text ++ behindMarks mark margin others rest) →
      ∃ tree, item.Reads s [⟨none, tree⟩] (behindMarks mark margin others rest) ∧ good text tree

/-- No white space and no comment stands in front of a text. -/
def Gapless (text : List Char) : Prop := ∀ rest, takeGap (text ++ rest) = ([], text ++ rest)

/-- A text behind a margin has the margin for its gap. -/
theorem Gapless.behind {text : List Char} (h : Gapless text)
    (hspace : ∀ c ∈ margin, isSpace c = true) (rest : List Char) :
    takeGap (margin ++ (text ++ rest)) = (margin, text ++ rest) := by
  rw [takeGap_spaces hspace, h rest, List.append_nil]

/-- Behind a first item, the others are read up to the text behind them. -/
theorem ReadsItems.chain (hitem : ReadsItems item good mark margin texts rest)
    (hsep : Separates separator mark margin) (hfront : ∀ text ∈ texts, Gapless text)
    (hstop : (separator ++ item).Fails rest) :
    ∃ trees, (separator ++ item).Chain (behindMarks mark margin texts rest)
      (itemParts mark trees) rest ∧ List.Forall₂ good texts trees := by
  induction texts with
  | nil => exact ⟨[], .stop hstop, .nil⟩
  | cons text others ih =>
      rw [List.forall_mem_cons] at hfront
      obtain ⟨trees, hchain, htrees⟩ :=
        ih (fun hsuffix => hitem (hsuffix.trans (List.suffix_cons text others))) hfront.2
      obtain ⟨tree, hread, htree⟩ := hitem List.suffix_rfl (hfront.1.behind hsep.space _)
      refine ⟨tree :: trees, .step ((hsep.reads _).append hread) ?_ hchain, .cons htree htrees⟩
      simp only [List.length_cons, List.length_append]
      omega

/-- **Items with marks between them** are read up to the text behind them. -/
theorem ReadsItems.sepBy {text s gap : List Char}
    (hitem : ReadsItems item good mark margin (text :: texts) rest)
    (hsep : Separates separator mark margin) (hfront : ∀ other ∈ texts, Gapless other)
    (hstop : (separator ++ item).Fails rest)
    (hs : takeGap s = (gap, text ++ behindMarks mark margin texts rest)) :
    ∃ tree trees, (item.sepBy separator).Reads s (⟨none, tree⟩ :: itemParts mark trees) rest ∧
      List.Forall₂ good (text :: texts) (tree :: trees) := by
  obtain ⟨tree, hread, htree⟩ := hitem List.suffix_rfl hs
  obtain ⟨trees, hchain, htrees⟩ := ReadsItems.chain
    (fun hsuffix => hitem (hsuffix.trans (List.suffix_cons text texts))) hsep hfront hstop
  exact ⟨tree, trees, .sepBy hread hchain, .cons htree htrees⟩

/-- What closes a list closes each of its items, as the comma does. -/
theorem Closes.behindItems (h : Closes false rest) (texts : List (List Char)) :
    Closes false (behindItems texts rest) := by
  cases texts with
  | nil => exact h
  | cons text texts => exact ⟨stopsWord_cons (by decide) _, .inr (.of_cons (by decide) _)⟩

theorem Closes.closing (h : Closes false rest) : AtClosing rest := h.front.resolve_left nofun

/-- An item is not longer than the list that it is in. -/
theorem length_le_commaSeparated {text : List Char} (h : text ∈ texts) :
    text.length ≤ (commaSeparated texts).length := by
  induction texts with
  | nil => cases h
  | cons first others ih =>
      have hlength := congrArg List.length (commaSeparated_append first others [])
      cases others with
      | nil => rw [List.mem_singleton.mp h, commaSeparated]
      | cons next others =>
          simp only [commaSeparated, List.length_append, List.length_cons]
          rcases List.mem_cons.mp h with rfl | hmem
          · omega
          · have := ih hmem
            omega

end

end FluentBuilder.Go

import Mathlib.Data.List.TakeWhile
import FluentBuilder.Proofs.Scans

/-!
# Lookahead — how far a scan looks

The scans for words, numbers and marks look at no character behind the first one that cannot stand
in any of them. So they take the same from a text that is changed from such a character on
(`Halts`), and what they leave is changed in the same way (`Scan.Follows`).

* **`Scan.Follows.word`**, **`Scan.Follows.numberLiteral`**, **`Scan.Follows.longest`** — words,
  numbers and marks do not depend on what stands behind them.
-/

namespace FluentBuilder.Go

/-! ## Changes of a text behind a token -/

/-- A text that is empty or begins with a character that passes a test. -/
def Stopped (stop : Char → Bool) (s : List Char) : Prop := ∀ c, s.head? = some c → stop c = true

/-- The marks that stand in numbers and in the escapes of runes, and the quotes. -/
def tokenMarks : List Char := ['.', '+', '-', '\\', '\'', '"', '\x60']

/-- What numbers hold beside their digits. -/
def numberChars : List Char :=
  ['0', '_', 'b', 'B', 'o', 'O', 'x', 'X', 'e', 'E', 'p', 'P', 'i', '.', '+', '-']

/-- The characters that a backslash announces in a rune. -/
def escapeChars : List Char :=
  ['x', 'u', 'U', 'a', 'b', 'f', 'n', 'r', 't', 'v', '\\', '\'', '"']

/-- A change of texts that leaves them as they are up to the first character that passes a test. No
such character stands in a word, nor is it one of some marks. If these are `tokenMarks`, it stands
in no number and in no escape of a rune either, and it is no quote. -/
structure Halts (marks : List Char) (stop : Char → Bool) (f : List Char → List Char) : Prop where
  cons {c : Char} (h : stop c = false) (s : List Char) : f (c :: s) = c :: f s
  stopped {s : List Char} (h : Stopped stop s) : Stopped stop (f s)
  inToken {c : Char} (h : Text.isIdentPart c = true ∨ c ∈ marks) : stop c = false

/-- A scan takes from a changed text what it takes from the text. -/
def Scan.Follows (f : List Char → List Char) (scan : Scan) : Prop :=
  ∀ s, scan (f s) = (scan s).map fun found => (found.1, f found.2)

/-- A digit stands in words. -/
theorem isIdentPart_of_digitValue {base : Nat} {c : Char}
    (h : (digitValue base c).isSome = true) : Text.isIdentPart c = true := by
  have hdigit : ∀ n < 10, Text.isIdentPart (Char.ofNat (0x30 + n)) = true := by decide
  have hsmall : ∀ n < 6, Text.isIdentPart (Char.ofNat (0x61 + n)) = true := by decide
  have hcapital : ∀ n < 6, Text.isIdentPart (Char.ofNat (0x41 + n)) = true := by decide
  have hranges : (0x30 ≤ c.toNat ∧ c.toNat ≤ 0x39) ∨ (0x61 ≤ c.toNat ∧ c.toNat ≤ 0x66) ∨
      (0x41 ≤ c.toNat ∧ c.toNat ≤ 0x46) := by
    rw [digitValue] at h
    grind
  rcases hranges with hrange | hrange | hrange
  · have hc := hdigit (c.toNat - 0x30) (by omega)
    rwa [Nat.add_sub_cancel' hrange.1, Char.ofNat_toNat] at hc
  · have hc := hsmall (c.toNat - 0x61) (by omega)
    rwa [Nat.add_sub_cancel' hrange.1, Char.ofNat_toNat] at hc
  · have hc := hcapital (c.toNat - 0x41) (by omega)
    rwa [Nat.add_sub_cancel' hrange.1, Char.ofNat_toNat] at hc

/-- Decide whether a character is a digit of the hexadecimal system. -/
abbrev isHex (c : Char) : Bool := (digitValue 16 c).isSome

/-- Decide whether a character is a digit of the octal system. -/
abbrev isOctal (c : Char) : Bool := (digitValue 8 c).isSome

/-- Characters that pass a test are counted at the front of a text. -/
theorem length_filter_take_eq_iff {test : Char → Bool} {count : Nat} {s : List Char} :
    ((s.take count).filter test).length = count ↔ count ≤ (s.takeWhile test).length := by
  induction count generalizing s with
  | zero => simp
  | succ n ih =>
      cases s with
      | nil => simp
      | cons c s =>
          by_cases hc : test c = true
          · simp [hc, ih]
          · have hle := List.length_filter_le test (s.take n)
            rw [List.length_take] at hle
            simp only [List.take_succ_cons, List.filter_cons_of_neg hc,
              List.takeWhile_cons_of_neg hc, List.length_nil]
            omega

theorem length_take_all_iff {test : Char → Bool} {count : Nat} {s : List Char} :
    ((s.take count).length == count && (s.take count).all test) = true ↔
      count ≤ (s.takeWhile test).length := by
  rw [← length_filter_take_eq_iff, Bool.and_eq_true, beq_iff_eq, List.all_eq_true,
    ← List.length_filter_eq_length_iff]
  have hle := List.length_filter_le test (s.take count)
  have htake := List.length_take (i := count) (l := s)
  constructor
  · omega
  · intro h
    constructor <;> omega

section Stopped

variable {stop test : Char → Bool} {s : List Char}

/-- A text that is stopped does not begin with a character that goes on with a token. -/
theorem Stopped.head (hs : Stopped stop s) (htest : ∀ c, test c = true → stop c = false) :
    ∀ c, s.head? = some c → test c = false := by
  intro c hc
  by_contra h
  have hstop := hs c hc
  rw [htest c (by simpa using h)] at hstop
  cases hstop

theorem takeWhile_of_head (h : ∀ c, s.head? = some c → test c = false) :
    s.takeWhile test = [] ∧ s.dropWhile test = s := by
  cases s with
  | nil => exact ⟨rfl, rfl⟩
  | cons c s =>
      have hc := h c rfl
      simp [hc]

theorem oneOf_of_head (h : ∀ c, s.head? = some c → test c = false) : oneOf test s = none := by
  cases s with
  | nil => rfl
  | cons c s => simp [oneOf, h c rfl]

theorem digits_of_head {base : Nat}
    (h : ∀ c, s.head? = some c → (digitValue base c).isSome = false) : digits base s = none := by
  cases s with
  | nil => rfl
  | cons c s => simp [digits, h c rfl]

theorem moreDigits_of_head {base : Nat}
    (h : ∀ c, s.head? = some c → ((digitValue base c).isSome || c == '_') = false) :
    moreDigits base s = ([], s) := by
  cases s with
  | nil => rfl
  | cons c s =>
      have hc := h c rfl
      simp only [Bool.or_eq_false_iff, beq_eq_false_iff_ne] at hc
      simp [moreDigits, hc]

theorem moreDigits_underscore_of_head {base : Nat}
    (h : ∀ c, s.head? = some c → (digitValue base c).isSome = false) :
    moreDigits base ('_' :: s) = ([], '_' :: s) := by
  cases s with
  | nil =>
      have hvalue : (digitValue base '_').isSome = false := by
        by_contra hsome
        simp [digitValue] at hsome
      simp [moreDigits, hvalue]
  | cons c s => simp [moreDigits, h c rfl]

theorem dropExact_of_head {c : Char} {text : List Char} (h : s.head? ≠ some c) :
    dropExact (c :: text) s = none := by
  cases s with
  | nil => rfl
  | cons d s =>
      rw [dropExact, if_neg]
      rintro heq
      exact h (congrArg some (beq_iff_eq.mp heq).symm)

theorem mark_of_head {c : Char} {text : List Char} (h : s.head? ≠ some c) :
    mark (c :: text) s = none := by
  rw [mark, dropExact_of_head h, Option.map_none]

end Stopped

namespace Halts

variable {marks : List Char} {stop : Char → Bool} {f : List Char → List Char} {test : Char → Bool}

/-- A text goes on with its first character, or it is stopped before and after the change. -/
theorem cases (hf : Halts marks stop f) (s : List Char) :
    (∃ c s', stop c = false ∧ s = c :: s' ∧ f s = c :: f s') ∨
      (Stopped stop s ∧ Stopped stop (f s)) := by
  cases s with
  | nil => exact .inr ⟨nofun, hf.stopped nofun⟩
  | cons c s =>
      by_cases hc : stop c = false
      · exact .inl ⟨c, s, hc, rfl, hf.cons hc s⟩
      · have hs : Stopped stop (c :: s) := by
          rintro d ⟨⟩
          simpa using hc
        exact .inr ⟨hs, hf.stopped hs⟩

/-- The change gives a text no other first character that goes on with a token. -/
theorem head (hf : Halts marks stop f) (htest : ∀ c, test c = true → stop c = false) {s : List Char}
    (h : ∀ c, s.head? = some c → test c = false) : ∀ c, (f s).head? = some c → test c = false := by
  rcases hf.cases s with ⟨c, s', -, rfl, hcons⟩ | ⟨-, hfs⟩
  · rw [hcons]
    exact h
  · exact hfs.head htest

theorem digit (hf : Halts marks stop f) {base : Nat} :
    ∀ c, (digitValue base c).isSome = true → stop c = false :=
  fun _ h => hf.inToken (.inl (isIdentPart_of_digitValue h))

theorem inWord (hf : Halts marks stop f) {text : List Char}
    (h : text.all Text.isIdentPart = true) : ∀ c ∈ text, stop c = false :=
  fun c hc => hf.inToken (.inl (List.all_eq_true.mp h c hc))

/-- A list of characters that are parts of words or marks of tokens. -/
theorem of_all (hf : Halts tokenMarks stop f) {chars : List Char}
    (h : chars.all (fun c => Text.isIdentPart c || tokenMarks.contains c) = true) {c : Char}
    (hc : c ∈ chars) : stop c = false := by
  have hor := Bool.or_eq_true_iff.mp (List.all_eq_true.mp h c hc)
  exact hf.inToken (hor.imp_right List.contains_iff_mem.mp)

theorem inNumber (hf : Halts tokenMarks stop f) {text : List Char}
    (h : text.all numberChars.contains = true) : ∀ c ∈ text, stop c = false := by
  intro c hc
  have hmem : c ∈ numberChars := List.contains_iff_mem.mp (List.all_eq_true.mp h c hc)
  exact hf.of_all (by decide) hmem

theorem inEscape (hf : Halts tokenMarks stop f) : ∀ c ∈ escapeChars, stop c = false :=
  fun _ hc => hf.of_all (by decide) hc

theorem takeWhile (hf : Halts marks stop f) (htest : ∀ c, test c = true → stop c = false)
    (s : List Char) :
    (f s).takeWhile test = s.takeWhile test ∧ (f s).dropWhile test = f (s.dropWhile test) := by
  induction s with
  | nil => exact takeWhile_of_head (hf.head htest nofun)
  | cons c s ih =>
      by_cases hc : test c = true
      · rw [hf.cons (htest c hc)]
        simp [hc, ih]
      · have hhead : ∀ d, (c :: s).head? = some d → test d = false := by
          rintro d ⟨⟩
          simpa using hc
        rw [(takeWhile_of_head hhead).1, (takeWhile_of_head hhead).2]
        exact takeWhile_of_head (hf.head htest hhead)

theorem append (hf : Halts marks stop f) {text : List Char} (h : ∀ c ∈ text, stop c = false)
    (s : List Char) : f (text ++ s) = text ++ f s := by
  induction text with
  | nil => rfl
  | cons c text ih =>
      rw [List.forall_mem_cons] at h
      rw [List.cons_append, List.cons_append, hf.cons h.1, ih h.2]

/-- The change reaches no character among those that pass a test at the front of a text. -/
theorem take (hf : Halts marks stop f) (htest : ∀ c, test c = true → stop c = false) {count : Nat}
    {s : List Char} (hcount : count ≤ (s.takeWhile test).length) :
    (f s).take count = s.take count ∧ (f s).drop count = f (s.drop count) := by
  have hcut : ∀ left, (s.takeWhile test ++ left).take count = (s.takeWhile test).take count ∧
      (s.takeWhile test ++ left).drop count = (s.takeWhile test).drop count ++ left :=
    fun _ => ⟨List.take_append_of_le_length hcount, List.drop_append_of_le_length hcount⟩
  have hfront : ∀ c ∈ (s.takeWhile test).drop count, stop c = false :=
    fun c hc => htest c (List.mem_takeWhile_imp (List.mem_of_mem_drop hc))
  obtain ⟨htake, hdrop⟩ := hf.takeWhile htest s
  have hs := hcut (s.dropWhile test)
  have hfs := hcut (f (s.dropWhile test))
  rw [List.takeWhile_append_dropWhile] at hs
  rw [← htake, ← hdrop, List.takeWhile_append_dropWhile, htake, hdrop] at hfs
  rw [hs.1, hs.2, hfs.1, hfs.2, hf.append hfront]
  exact ⟨rfl, rfl⟩

theorem dropExact (hf : Halts marks stop f) {text : List Char} (h : ∀ c ∈ text, stop c = false)
    (s : List Char) : dropExact text (f s) = (dropExact text s).map f := by
  induction text generalizing s with
  | nil => rfl
  | cons c text ih =>
      rw [List.forall_mem_cons] at h
      have hne : ∀ {s : List Char}, Stopped stop s → s.head? ≠ some c := by
        intro s hs heq
        have hstop := hs c heq
        rw [h.1] at hstop
        cases hstop
      rcases hf.cases s with ⟨d, s', -, rfl, hcons⟩ | ⟨hs, hfs⟩
      · rw [hcons, Go.dropExact, Go.dropExact]
        split
        · exact ih h.2 s'
        · rfl
      · rw [dropExact_of_head (hne hs), dropExact_of_head (hne hfs)]
        rfl

theorem moreDigits (hf : Halts marks stop f) (base : Nat) (s : List Char) :
    moreDigits base (f s) = ((moreDigits base s).1, f (moreDigits base s).2) := by
  have hnone : ∀ c, ((digitValue base c).isSome || c == '_') = true → stop c = false := by
    intro c hc
    rcases Bool.or_eq_true_iff.mp hc with hdigit | hunderscore
    · exact hf.digit c hdigit
    · rw [beq_iff_eq.mp hunderscore]
      exact hf.inToken (.inl (by decide))
  have hunderscore : stop '_' = false := hnone '_' (by simp)
  fun_induction Go.moreDigits base s with
  | case1 => exact moreDigits_of_head (hf.head hnone (by simp))
  | case2 c rest hc taken left hrest ih =>
      rw [hf.cons hunderscore, hf.cons (hf.digit c hc)]
      simp [Go.moreDigits, hc, ih, hrest]
  | case3 c rest hc =>
      rw [hf.cons hunderscore]
      refine moreDigits_underscore_of_head (hf.head hf.digit ?_)
      rintro d ⟨⟩
      simpa using hc
  | case4 c rest hne hc taken left hrest ih =>
      have hother : c ≠ '_' := by
        rintro rfl
        simp [digitValue] at hc
      rw [hf.cons (hf.digit c hc)]
      simp [Go.moreDigits, hc, ih, hrest, hother]
  | case5 c rest hne hc =>
      by_cases hother : c = '_'
      · subst hother
        cases rest with
        | nil =>
            rw [hf.cons hunderscore]
            exact moreDigits_underscore_of_head (hf.head hf.digit (by simp))
        | cons d rest => exact absurd rfl (hne d rest rfl)
      · refine moreDigits_of_head (hf.head hnone ?_)
        rintro d ⟨⟩
        simp [hc, hother]

end Halts

namespace Scan.Follows

variable {marks : List Char} {stop : Char → Bool} {f : List Char → List Char}
  {first second scan : Scan}

theorem mark (hf : Halts marks stop f) {text : List Char} (h : ∀ c ∈ text, stop c = false) :
    (mark text).Follows f := by
  intro s
  rw [Go.mark, Go.mark, hf.dropExact h, Option.map_map, Option.map_map]
  rfl

theorem seq (h₁ : first.Follows f) (h₂ : second.Follows f) : (first.seq second).Follows f := by
  intro s
  simp only [Scan.seq, h₁ s]
  cases first s with
  | none => rfl
  | some a =>
      simp only [Option.map_some, h₂ a.2, Option.map_map]
      rfl

theorem opt (h : scan.Follows f) : scan.opt.Follows f := by
  intro s
  simp only [Scan.opt, h s]
  cases scan s <;> rfl

theorem longer (h₁ : first.Follows f) (h₂ : second.Follows f) :
    (first.longer second).Follows f := by
  intro s
  simp only [Scan.longer, h₁ s, h₂ s]
  cases first s with
  | none => rfl
  | some a =>
      cases second s with
      | none => rfl
      | some b =>
          simp only [Option.map_some]
          split <;> rfl

theorem oneOf (hf : Halts marks stop f) {letters : List Char} (h : ∀ c ∈ letters, stop c = false) :
    (oneOf letters.contains).Follows f := by
  have htest : ∀ c, letters.contains c = true → stop c = false :=
    fun c hc => h c (List.contains_iff_mem.mp hc)
  intro s
  rcases hf.cases s with ⟨c, s', -, rfl, hcons⟩ | ⟨hs, hfs⟩
  · rw [hcons, Go.oneOf, Go.oneOf]
    split <;> rfl
  · rw [oneOf_of_head (hs.head htest), oneOf_of_head (hfs.head htest)]
    rfl

theorem digits (hf : Halts marks stop f) (base : Nat) : (digits base).Follows f := by
  intro s
  rcases hf.cases s with ⟨c, s', -, rfl, hcons⟩ | ⟨hs, hfs⟩
  · rw [hcons, Go.digits, Go.digits, hf.moreDigits]
    split <;> rfl
  · rw [digits_of_head (hs.head hf.digit), digits_of_head (hfs.head hf.digit)]
    rfl

theorem prefixedDigits (hf : Halts marks stop f) {letters : List Char}
    (h : ∀ c ∈ letters, stop c = false) (base : Nat) : (prefixedDigits letters base).Follows f :=
  .seq (.seq (.mark hf (hf.inWord (by decide))) (.oneOf hf h))
    (.seq (.opt (.mark hf (hf.inWord (by decide)))) (.digits hf base))

theorem intLiteral (hf : Halts marks stop f) : intLiteral.Follows f := by
  refine
    .longer
      (.longer (.prefixedDigits hf (hf.inWord (by decide)) 2)
        (.prefixedDigits hf (hf.inWord (by decide)) 8))
      (.longer
        (.longer (.prefixedDigits hf (hf.inWord (by decide)) 16)
          (.seq (.mark hf (hf.inWord (by decide)))
            (.seq (.opt (.mark hf (hf.inWord (by decide)))) (.digits hf 8))))
        ?_)
  intro s
  have hdigits := digits hf 10 s
  rcases hf.cases s with ⟨c, s', -, rfl, hcons⟩ | ⟨hs, hfs⟩
  · rw [hcons] at hdigits ⊢
    by_cases hzero : c = '0'
    · subst hzero
      rfl
    · simpa [hzero] using hdigits
  · have hzero : ∀ {s : List Char}, Stopped stop s → ∀ rest, s ≠ '0' :: rest := by
      rintro s hs rest rfl
      have hstop := hs '0' rfl
      rw [hf.inToken (.inl (by decide))] at hstop
      cases hstop
    have hs := hzero hs
    have hfs := hzero hfs
    dsimp only
    split
    case h_1 rest heq => exact absurd heq (hfs rest)
    case h_2 => exact hdigits

theorem exponent (hf : Halts tokenMarks stop f) {letters : List Char}
    (h : ∀ c ∈ letters, stop c = false) : (exponent letters).Follows f :=
  .seq (.oneOf hf h) (.seq (.opt (.oneOf hf (hf.inNumber (by decide)))) (.digits hf 10))

theorem floatLiteral (hf : Halts tokenMarks stop f) : floatLiteral.Follows f := by
  have hpoint : (Go.mark ['.']).Follows f := .mark hf (hf.inNumber (by decide))
  have hwhole : ((Go.mark ['_']).opt.seq (Go.digits 16)).Follows f :=
    .seq (.opt (.mark hf (hf.inNumber (by decide)))) (.digits hf 16)
  have he : (Go.exponent ['e', 'E']).Follows f := .exponent hf (hf.inNumber (by decide))
  exact
    .longer
      (.longer (.seq (.seq (.digits hf 10) hpoint) (.seq (.opt (.digits hf 10)) (.opt he)))
        (.longer (.seq (.digits hf 10) he) (.seq hpoint (.seq (.digits hf 10) (.opt he)))))
      (.seq (.seq (.mark hf (hf.inNumber (by decide))) (.oneOf hf (hf.inNumber (by decide))))
        (.seq
          (.longer (.seq (.seq hwhole hpoint) (.opt (.digits hf 16)))
            (.longer hwhole (.seq hpoint (.digits hf 16))))
          (.exponent hf (hf.inNumber (by decide)))))

theorem imaginaryLiteral (hf : Halts tokenMarks stop f) : imaginaryLiteral.Follows f := by
  have hi : (Go.mark ['i']).Follows f := .mark hf (hf.inNumber (by decide))
  exact .longer (.seq (.digits hf 10) hi)
    (.longer (.seq (.intLiteral hf) hi) (.seq (.floatLiteral hf) hi))

theorem numberLiteral (hf : Halts tokenMarks stop f) : numberLiteral.Follows f :=
  .longer (.intLiteral hf) (.longer (.floatLiteral hf) (.imaginaryLiteral hf))

theorem word (hf : Halts marks stop f) : word.Follows f := by
  have hpart : ∀ c, Text.isIdentPart c = true → stop c = false := fun c h => hf.inToken (.inl h)
  have hstart : ∀ c, Text.isIdentStart c = true → stop c = false := by
    intro c hc
    refine hpart c ?_
    rw [Text.isIdentPart, hc, Bool.true_or]
  have hnone : ∀ {s : List Char}, Stopped stop s → Go.word s = none := by
    intro s hs
    cases s with
    | nil => rfl
    | cons c s => rw [Go.word, if_neg (by simp [hs.head hstart c rfl])]
  intro s
  rcases hf.cases s with ⟨c, s', -, rfl, hcons⟩ | ⟨hs, hfs⟩
  · rw [hcons, Go.word, Go.word, (hf.takeWhile hpart s').1, (hf.takeWhile hpart s').2]
    split <;> rfl
  · rw [hnone hs, hnone hfs]
    rfl

theorem hexDigits (hf : Halts marks stop f) (count : Nat) (more : Bool) :
    (hexDigits count more).Follows f := by
  have hhex : ∀ c, isHex c = true → stop c = false := hf.digit
  intro s
  obtain ⟨htake, hdrop⟩ := hf.takeWhile hhex s
  simp only [Go.hexDigits, beq_iff_eq, length_filter_take_eq_iff, htake, hdrop]
  split
  case isTrue hcount =>
    obtain ⟨htaken, hleft⟩ := hf.take hhex hcount
    rw [htaken, hleft]
    split <;> rfl
  case isFalse => rfl

/-- What stands in front of a scan follows a change with it. -/
theorem map_cons (h : scan.Follows f) (c : Char) (s : List Char) :
    ((scan (f s)).map fun found => (c :: found.1, found.2)) =
      ((scan s).map fun found => (c :: found.1, found.2)).map
        fun found => (found.1, f found.2) := by
  rw [h s, Option.map_map, Option.map_map]
  rfl

theorem runeEscape (hf : Halts tokenMarks stop f) : runeEscape.Follows f := by
  have hoctal : ∀ c, isOctal c = true → stop c = false := hf.digit
  have hdigits : ∀ s : List Char, 3 ≤ (s.takeWhile isOctal).length →
      (f s).take 3 = s.take 3 ∧ (f s).drop 3 = f (s.drop 3) := fun _ h => hf.take hoctal h
  have hnone : ∀ {s : List Char}, Stopped stop s → Go.runeEscape s = none := by
    intro s hs
    cases s with
    | nil => rfl
    | cons c s =>
        have hstop := hs c rfl
        have hne : ∀ d ∈ escapeChars, c ≠ d := by
          rintro d hd rfl
          rw [hf.inEscape c hd] at hstop
          cases hstop
        have hdigit := hs.head hoctal c rfl
        simp only [escapeChars, List.forall_mem_cons] at hne
        simp [Go.runeEscape, hne, hdigit]
  intro s
  rcases hf.cases s with ⟨c, s', -, rfl, hcons⟩ | ⟨hs, hfs⟩
  · have hlength := (hf.takeWhile hoctal (c :: s')).1
    have hdigits := hdigits (c :: s')
    rw [hcons] at hlength hdigits
    rw [hcons, Go.runeEscape, Go.runeEscape]
    split
    · exact map_cons (.hexDigits hf 2 false) c s'
    · split
      · exact map_cons (.hexDigits hf 4 false) c s'
      · split
        · exact map_cons (.hexDigits hf 8 false) c s'
        · split
          · rfl
          · simp only [length_take_all_iff, hlength]
            split
            case isTrue hthree => rw [(hdigits hthree).1, (hdigits hthree).2, Option.map_some]
            case isFalse => rfl
  · rw [hnone hs, hnone hfs]
    rfl

/-- A mark that no such character stands in behind its first one. -/
theorem mark_cons (hf : Halts marks stop f) {text : List Char} (h : ∀ c ∈ text.tail, stop c = false)
    {c : Char} {s : List Char} (hc : f (c :: s) = c :: f s) :
    Go.mark text (f (c :: s)) =
      (Go.mark text (c :: s)).map fun found => (found.1, f found.2) := by
  cases text with
  | nil => rfl
  | cons d text =>
      simp only [hc, Go.mark, Go.dropExact]
      split
      · rw [@Halts.dropExact _ _ _ hf text h, Option.map_map, Option.map_map]
        rfl
      · rfl

theorem longest {texts : List (List Char)} {s : List Char} (h : ∀ text ∈ texts,
    Go.mark text (f s) = (Go.mark text s).map fun found => (found.1, f found.2)) :
    longest texts (f s) = (longest texts s).map fun found => (found.1, f found.2) := by
  induction texts with
  | nil => rfl
  | cons text others ih =>
      rw [List.forall_mem_cons] at h
      rw [Go.longest, Go.longest, ih h.2, h.1]
      cases Go.mark text s with
      | none => rfl
      | some a =>
          cases Go.longest others s with
          | none => rfl
          | some b =>
              simp only [Option.map_some]
              split <;> rfl

end Scan.Follows

end FluentBuilder.Go

import Mathlib.Data.List.Forall2
import FluentBuilder.Naming

/-!
# Casing — lower case makes no marks

The lower case of a character is a letter or the character itself. So the identifier for a name has
the marks, blanks and line breaks of the name and no others.

* **`Text.Unmade`** — a character that lowering the case of other ones does not make.
* **`letters_of_lowerFrom`** — which texts have small letters of ASCII as their lower case.
* **`lowered_eq_append`** — the lower case of a name begins with that of its first character.
* **`unexported_cases`** — what the identifier for a name is.
* **`mem_of_mem_unexported`** — of the identifier for a name.
-/

namespace FluentBuilder

namespace Text

variable {d : Char}

/-- A shift keeps a code point, or it moves it with the first one of a span. -/
theorem shifted_eq (table : List Shift) (n : Nat) :
    shifted table n = n ∨
      ∃ s ∈ table, s.first ≤ n ∧ n ≤ s.last ∧ (n - s.first) % s.step = 0 ∧
        shifted table n = s.target + (n - s.first) := by
  induction table with
  | nil => exact .inl rfl
  | cons s rest ih =>
      unfold shifted
      split
      · exact .inl rfl
      · split
        · rcases ih with h | ⟨s', hs', h⟩
          · exact .inl h
          · exact .inr ⟨s', .tail _ hs', h⟩
        · split
          case isTrue hmember =>
            exact .inr ⟨s, .head _, by omega, by omega, beq_iff_eq.mp hmember, rfl⟩
          case isFalse => exact .inl rfl

/-- No code point but its own gives a character. -/
theorem eq_toNat_of_ofNat {n : Nat} (hpos : 0 < d.toNat) (h : Char.ofNat n = d) : n = d.toNat := by
  by_cases hn : n.isValidChar
  · rw [← h, Char.ofNat, dif_pos hn]
    rfl
  · rw [Char.ofNat, dif_neg hn] at h
    rw [← h] at hpos
    cases hpos

/-- A character that lowering the case of other ones does not make. -/
structure Unmade (d : Char) : Prop where
  lower : ∀ {c : Char}, d ∈ lowerChar c → d = c
  sigma : d ∉ ['ς', 'σ']

/-- A character is not made if no shift to lower case reaches it. -/
theorem Unmade.of_unreached (hpos : 0 < d.toNat)
    (hshifts : ∀ s ∈ lowerShifts, d.toNat < s.target ∨ s.target + (s.last - s.first) < d.toNat)
    (hletters : d ∉ ['i', Char.ofNat 0x307, 'ς', 'σ']) : Unmade d := by
  simp only [List.mem_cons, List.not_mem_nil, or_false, not_or] at hletters
  obtain ⟨hi, hdot, hfinal, hsigma⟩ := hletters
  refine ⟨fun {c} h => ?_, by simp [hfinal, hsigma]⟩
  unfold lowerChar at h
  split at h
  · simp [hi, hdot] at h
  · have hcode := eq_toNat_of_ofNat hpos (List.mem_singleton.mp h).symm
    rcases shifted_eq lowerShifts c.toNat with hsame | ⟨s, hs, hfirst, hlast, -, hmoved⟩
    · exact Char.toNat_inj.mp (hcode.symm.trans hsame)
    · have := hshifts s hs
      omega

/-- No character below the small letters is made. -/
theorem Unmade.of_lt (hpos : 0 < d.toNat) (hlt : d.toNat < 'a'.toNat) : Unmade d := by
  have htargets : ∀ s ∈ lowerShifts, 'a'.toNat ≤ s.target := by decide +kernel
  have hletters : ∀ e ∈ ['i', Char.ofNat 0x307, 'ς', 'σ'], 'a'.toNat ≤ e.toNat := by
    simp only [List.forall_mem_cons]
    exact ⟨by decide, by decide, by decide, by decide, List.forall_mem_nil _⟩
  exact .of_unreached hpos (fun s hs => .inl (Nat.lt_of_lt_of_le hlt (htargets s hs)))
    fun hmem => absurd hlt (Nat.not_lt.mpr (hletters d hmem))

/-- A character that is not made stands in the lower case of a text only if it stands in the text. -/
theorem Unmade.mem_of_mem_lowerFrom (hd : Unmade d) {cs : List Char} (before : List Char)
    (h : d ∈ lowerFrom before cs) : d ∈ cs := by
  induction cs generalizing before with
  | nil => exact h
  | cons c rest ih =>
      rw [lowerFrom, List.mem_append] at h
      rcases h with h | h
      · split at h
        · have hmem : d ∈ ['ς', 'σ'] := by
            split at h <;> simp_all
          exact absurd hmem hd.sigma
        · exact hd.lower h ▸ .head _
      · exact .tail _ (ih _ h)

/-! ## Letters of ASCII -/

/-- The small letters of ASCII by their place in the alphabet. -/
theorem isLower_iff : d.isLower = true ↔ ∃ n < 26, d = Char.ofNat (0x61 + n) := by
  constructor
  · intro h
    replace h : (decide ('a'.val ≤ d.val) && decide (d.val ≤ 'z'.val)) = true := h
    simp only [Bool.and_eq_true, decide_eq_true_eq, UInt32.le_iff_toNat_le] at h
    have hfirst : 0x61 ≤ d.toNat := h.1
    have hlast : d.toNat ≤ 0x7A := h.2
    exact ⟨d.toNat - 0x61, by omega, by rw [Nat.add_sub_cancel' hfirst, Char.ofNat_toNat]⟩
  · rintro ⟨n, hn, rfl⟩
    have hall : ∀ n < 26, (Char.ofNat (0x61 + n)).isLower = true := by decide
    exact hall n hn

/-- The capital letters of ASCII by their place in the alphabet. -/
theorem isUpper_iff : d.isUpper = true ↔ ∃ n < 26, d = Char.ofNat (0x41 + n) := by
  constructor
  · intro h
    replace h : 'A'.val ≤ d.val ∧ d.val ≤ 'Z'.val := of_decide_eq_true h
    simp only [UInt32.le_iff_toNat_le] at h
    have hfirst : 0x41 ≤ d.toNat := h.1
    have hlast : d.toNat ≤ 0x5A := h.2
    exact ⟨d.toNat - 0x41, by omega, by rw [Nat.add_sub_cancel' hfirst, Char.ofNat_toNat]⟩
  · rintro ⟨n, hn, rfl⟩
    have hall : ∀ n < 26, (Char.ofNat (0x41 + n)).isUpper = true := by decide
    exact hall n hn

/-- The lower case of a capital letter is the small one. -/
theorem lowerChar_of_isUpper {c : Char} (h : c.isUpper = true) :
    lowerChar c = [c.toLower] ∧ c.toLower.isUpper = false := by
  obtain ⟨n, hn, rfl⟩ := isUpper_iff.mp h
  have hall : ∀ n < 26, lowerChar (Char.ofNat (0x41 + n)) = [(Char.ofNat (0x41 + n)).toLower] ∧
      (Char.ofNat (0x41 + n)).toLower.isUpper = false := by
    decide
  exact hall n hn

/-- The upper case of a small letter, and that of its capital, is the capital. -/
theorem upperChar_of_isLower (h : d.isLower = true) :
    upperChar d = [d.toUpper] ∧ upperChar d.toUpper = [d.toUpper] := by
  obtain ⟨n, hn, rfl⟩ := isLower_iff.mp h
  have hall : ∀ n < 26, upperChar (Char.ofNat (0x61 + n)) = [(Char.ofNat (0x61 + n)).toUpper] ∧
      upperChar (Char.ofNat (0x61 + n)).toUpper = [(Char.ofNat (0x61 + n)).toUpper] := by
    decide
  exact hall n hn

/-- Decide whether a small letter is the lower case of its capital and itself only: `i` and `k`
    stand in the lower case of the capital I with a dot and of the sign for kelvins as well. -/
def hasOneCapital (d : Char) : Bool := d.isLower && d != 'i' && d != 'k'

/-- A character with a small letter as its lower case is this letter or its capital. -/
theorem eq_or_capital_of_lowerChar {c : Char} (hd : hasOneCapital d = true)
    (h : lowerChar c = [d]) : c = d ∨ c = d.toUpper := by
  have htable : ∀ s ∈ lowerShifts, s.first = 0x41 ∧ s.target = 0x61 ∨ 0x7A < s.target ∨
      s.last = s.first ∧ s.target = 0x6B := by
    decide +kernel
  simp only [hasOneCapital, Bool.and_eq_true, bne_iff_ne] at hd
  obtain ⟨⟨hlower, -⟩, hkelvin⟩ := hd
  obtain ⟨n, hn, rfl⟩ := isLower_iff.mp hlower
  have hcapitals : ∀ n < 26, (Char.ofNat (0x61 + n)).toNat = 0x61 + n ∧
      (Char.ofNat (0x61 + n)).toUpper.toNat = 0x41 + n := by
    decide
  obtain ⟨hsmall, hcapital⟩ := hcapitals n hn
  unfold lowerChar at h
  split at h
  · exact absurd (congrArg List.length h) (by simp)
  · have hcode := eq_toNat_of_ofNat (by omega) (List.singleton_inj.mp h)
    rcases shifted_eq lowerShifts c.toNat with hsame | ⟨s, hs, hfirst, hlast, -, hmoved⟩
    · exact .inl (Char.toNat_inj.mp (hsame.symm.trans hcode))
    · rcases htable s hs with ⟨hfrom, hto⟩ | hfar | ⟨hsole, hto⟩
      · exact .inr (Char.toNat_inj.mp (by omega))
      · omega
      · have hcodes : 'k'.toNat = 0x6B := rfl
        exact absurd (Char.toNat_inj.mp (by omega : _ = 'k'.toNat)) hkelvin

/-- A character is lowered to one character, or to two of which the first one is `i`. -/
theorem lowerChar_cases (c : Char) :
    (∃ d, lowerChar c = [d]) ∨ lowerChar c = ['i', Char.ofNat 0x307] := by
  unfold lowerChar
  split
  · exact .inr rfl
  · exact .inl ⟨_, rfl⟩

/-- A text whose lower case has small letters only is made of them and their capitals. -/
theorem letters_of_lowerFrom {cs ds : List Char} (before : List Char)
    (hds : ∀ d ∈ ds, hasOneCapital d = true) (h : lowerFrom before cs = ds) :
    List.Forall₂ (fun c d => c = d ∨ c = d.toUpper) cs ds := by
  induction cs generalizing before ds with
  | nil =>
      cases h
      exact .nil
  | cons c rest ih =>
      rw [lowerFrom] at h
      split at h
      case isTrue =>
        subst h
        split at hds
        · exact absurd (hds 'ς' (.head _)) (by decide)
        · exact absurd (hds 'σ' (.head _)) (by decide)
      case isFalse =>
        rcases lowerChar_cases c with ⟨d, hd⟩ | hdotted
        · rw [hd] at h
          subst h
          rw [List.singleton_append, List.forall_mem_cons] at hds
          exact .cons (eq_or_capital_of_lowerChar hds.1 hd) (ih _ hds.2 rfl)
        · rw [hdotted] at h
          subst h
          exact absurd (hds 'i' (.head _)) (by decide)

/-- The upper case of small letters and capitals is the capitals. -/
theorem upperText_of_letters {cs ds : List Char} (hds : ∀ d ∈ ds, d.isLower = true)
    (h : List.Forall₂ (fun c d => c = d ∨ c = d.toUpper) cs ds) :
    upperText cs = ds.map Char.toUpper := by
  induction h with
  | nil => rfl
  | @cons c d cs ds hc _ ih =>
      rw [List.forall_mem_cons] at hds
      obtain ⟨hsmall, hcapital⟩ := upperChar_of_isLower hds.1
      have hupper : upperChar c = [d.toUpper] := by
        rcases hc with rfl | rfl
        · exact hsmall
        · exact hcapital
      rw [upperText, List.flatMap_cons, hupper, List.singleton_append, List.map_cons]
      exact congrArg _ (ih hds.2)

end Text

/-- Lowering the case of a name lowers its first character. -/
theorem lowered_eq_append (c : Char) (rest : List Char) :
    ∃ others, lowered (c :: rest) = Text.lowerChar c ++ others := by
  rw [lowered]
  split
  · -- No cased character stands before a first sigma, so it ends no word.
    refine ⟨Text.lowerFrom [c] rest, ?_⟩
    simp only [Text.lowerText, Text.lowerFrom, List.append_left_inj]
    split
    case isTrue hsigma =>
      rw [beq_iff_eq] at hsigma
      have hstart : Text.endsWord [] rest = false := rfl
      have hlower : Text.lowerChar 'Σ' = ['σ'] := by decide
      rw [hsigma, hstart, hlower, if_neg Bool.false_ne_true]
    case isFalse => rfl
  · exact ⟨rest, rfl⟩

/-- **What an identifier is**: the name in lower case, behind an underscore if that is reserved or
    the name itself. -/
theorem unexported_cases {name : String} (h : name ≠ "") :
    let cased := String.ofList (lowered name.toList)
    (unexported name = escape cased ∧ (isReserved cased = true ∨ cased = name)) ∨
      (unexported name = cased ∧ isReserved cased = false ∧ cased ≠ name) := by
  intro cased
  have hnil : ¬ (name.toList == []) = true := by
    rw [beq_iff_eq]
    exact fun hnil => h (String.toList_inj.mp hnil)
  have hname : unexported name =
      if isReserved cased || cased == name then escape cased else cased := by
    rw [unexported, if_neg hnil]
  by_cases hguard : (isReserved cased || cased == name) = true
  · rw [if_pos hguard] at hname
    rw [Bool.or_eq_true, beq_iff_eq] at hguard
    exact .inl ⟨hname, hguard⟩
  · rw [if_neg hguard] at hname
    rw [Bool.or_eq_true, not_or, Bool.not_eq_true, beq_iff_eq] at hguard
    exact .inr ⟨hname, hguard⟩

/-- A character that is not made stands in the lower case of a name only if it stands in the name. -/
theorem mem_of_mem_lowered {cs : List Char} {d : Char} (hd : Text.Unmade d) (h : d ∈ lowered cs) :
    d ∈ cs := by
  cases cs with
  | nil => exact h
  | cons c rest =>
      rw [lowered] at h
      split at h
      · exact hd.mem_of_mem_lowerFrom [] h
      · rcases List.mem_append.mp h with h | h
        · exact hd.lower h ▸ .head _
        · exact .tail _ h

/-- **The identifier for a name makes no marks**: a character that lowering the case does not make
stands in it only if it stands in the name, but for the underscore in front. -/
theorem mem_of_mem_unexported {name : String} {d : Char} (hd : Text.Unmade d) (hne : d ≠ '_')
    (h : d ∈ (unexported name).toList) : d ∈ name.toList := by
  by_cases hempty : name = ""
  · subst hempty
    cases h
  · rcases unexported_cases hempty with ⟨hident, -⟩ | ⟨hident, -⟩
    · rw [hident, escape, String.toList_ofList, String.toList_ofList] at h
      rcases List.mem_cons.mp h with heq | h
      · exact absurd heq hne
      · exact mem_of_mem_lowered hd h
    · rw [hident, String.toList_ofList] at h
      exact mem_of_mem_lowered hd h

end FluentBuilder

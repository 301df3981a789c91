import FluentBuilder.Proofs.Reserved

/-!
# Capitals — which identifiers are exported

The identifier for a name is escaped, or its first character is in lower case. The lower case of a
character is no capital letter, except that there are capital letters that have no lower case, such
as `ℂ`. A name that begins with one of these is compared as a whole with its lower case, so it is
not escaped if a letter behind the first one has a lower case, and the capital stays in front.

* **`Text.inSpans_of_avoids`** — what a table of shifts and a table of spans have in common.
* **`Text.eq_of_isUpper_of_mem_lowerChar`** — a capital letter in the lower case of a character.
* **`isExported_unexported_iff`** — which identifiers are exported.
-/

namespace FluentBuilder

namespace Text

/-! ## The lower case of a character -/

/-- Decide whether a table of spans holds no code point that a shift moves to. Where the ends of
    a span leave room for one, both take every second code point and differ in parity. -/
def Shift.avoids (s : Shift) : List Span → Bool
  | [] => true
  | u :: rest =>
    if u.last < s.target then s.avoids rest
    else if s.target + (s.last - s.first) < u.first then true
    else
      (s.step == 2 || s.first == s.last) && (u.step == 2 || u.first == u.last) &&
        s.target % 2 != u.first % 2 && s.avoids rest

/-- **A table that a shift avoids** holds none of the code points that the shift moves to. -/
theorem inSpans_of_avoids {s : Shift} {spans : List Span} (h : s.avoids spans = true) {k : Nat}
    (hk : k ≤ s.last - s.first) (hstep : k % s.step = 0) :
    inSpans spans (s.target + k) = false := by
  induction spans with
  | nil => rfl
  | cons u rest ih =>
      rw [Shift.avoids] at h
      rw [inSpans]
      split
      case isTrue => rfl
      case isFalse hfirst =>
        split at h
        case isTrue hbefore =>
          rw [if_pos (by omega)]
          exact ih h
        case isFalse hbefore =>
          rw [if_neg (by omega)] at h
          simp only [Bool.and_eq_true, Bool.or_eq_true, beq_iff_eq, bne_iff_ne] at h
          obtain ⟨⟨⟨hshift, hspan⟩, hparity⟩, hrest⟩ := h
          split
          case isTrue => exact ih hrest
          case isFalse hlast =>
            -- Between the ends of the span, the parity of its members is not that of the image.
            have himage : (s.target + k) % 2 = s.target % 2 := by
              rcases hshift with htwo | hsole
              · rw [htwo] at hstep
                omega
              · omega
            refine beq_false_of_ne fun hmember => hparity ?_
            rcases hspan with htwo | hsole
            · rw [htwo] at hmember
              omega
            · omega

/-- No shift to lower case moves to a capital letter. -/
theorem lowerShifts_avoid : ∀ s ∈ lowerShifts, s.avoids upperSpans = true := by decide +kernel

/-- **A capital letter in the lower case of a character** is that character. -/
theorem eq_of_isUpper_of_mem_lowerChar {c d : Char} (hd : isUpper d = true)
    (h : d ∈ lowerChar c) : d = c := by
  unfold lowerChar at h
  split at h
  case isTrue =>
    have hletters : ∀ e ∈ ['i', Char.ofNat 0x307], isUpper e = false := by
      rw [List.forall_mem_cons, List.forall_mem_singleton]
      decide
    rw [hletters d h] at hd
    cases hd
  case isFalse =>
    have hpos : 0 < d.toNat := by
      refine Nat.pos_of_ne_zero fun hzero => ?_
      rw [isUpper, hzero] at hd
      cases hd
    have hcode := eq_toNat_of_ofNat hpos (List.mem_singleton.mp h).symm
    rcases shifted_eq lowerShifts c.toNat with hsame | ⟨s, hs, hfirst, hlast, hstep, hmoved⟩
    · exact Char.toNat_inj.mp (hcode.symm.trans hsame)
    · have hlower := inSpans_of_avoids (lowerShifts_avoid s hs) (by omega) hstep
      rw [← hmoved, hcode, ← isUpper, hd] at hlower
      cases hlower

/-- A character has some lower case, if only itself. -/
theorem exists_cons_lowerChar (c : Char) : ∃ d ds, lowerChar c = d :: ds := by
  rcases lowerChar_cases c with ⟨d, hd⟩ | hdotted
  · exact ⟨d, [], hd⟩
  · exact ⟨_, _, hdotted⟩

/-- A character whose lower case begins with a capital letter has no lower case. -/
theorem lowerChar_eq_self {c d : Char} {ds : List Char} (hd : isUpper d = true)
    (h : lowerChar c = d :: ds) : lowerChar c = [c] ∧ d = c := by
  have heq : d = c := eq_of_isUpper_of_mem_lowerChar hd (by rw [h]; exact .head _)
  refine ⟨?_, heq⟩
  rcases lowerChar_cases c with ⟨e, he⟩ | hdotted
  · obtain ⟨rfl, -⟩ := List.cons.inj (he.symm.trans h)
    rw [he, heq]
  · have hletter : isUpper 'i' = false := by decide
    obtain ⟨rfl, -⟩ := List.cons.inj (hdotted.symm.trans h)
    rw [hletter] at hd
    cases hd

/-- A small letter of ASCII is no capital letter. -/
theorem isUpper_of_isLower {c : Char} (h : c.isLower = true) : isUpper c = false := by
  obtain ⟨n, hn, rfl⟩ := isLower_iff.mp h
  have hall : ∀ n < 26, isUpper (Char.ofNat (0x61 + n)) = false := by decide
  exact hall n hn

end Text

/-! ## The identifier for a name -/

/-- What makes a name exported. -/
theorem isExported_ofList (c : Char) (rest : List Char) :
    isExported (String.ofList (c :: rest)) = Text.isUpper c := by
  rw [isExported, String.toList_ofList]

/-- An escaped name is not exported. -/
theorem isExported_escape (name : String) : isExported (escape name) = false := by
  rw [escape, isExported_ofList]
  rfl

/-- No reserved word is exported. -/
theorem isReserved_of_isExported {word : String} (h : isExported word = true) :
    isReserved word = false := by
  rw [← Bool.not_eq_true, isReserved_iff]
  intro hmem
  obtain ⟨c, rest, hword, hlower⟩ := isLower_of_mem_reservedWords hmem
  have hfirst : isExported word = Text.isUpper c := by rw [isExported, hword]
  rw [hfirst, Text.isUpper_of_isLower hlower] at h
  cases h

/-- **Which identifiers are exported**: those for names in capitals that begin with a capital letter
    without a lower case and are not their own lower case. -/
theorem isExported_unexported_iff {name : String} :
    isExported (unexported name) = true ↔
      ∃ c rest, name.toList = c :: rest ∧ Text.isUpper c = true ∧ Text.lowerChar c = [c] ∧
        Text.upperText (c :: rest) = c :: rest ∧ Text.lowerText (c :: rest) ≠ c :: rest := by
  by_cases hempty : name = ""
  · subst hempty
    exact ⟨nofun, nofun⟩
  obtain ⟨c, rest, hname⟩ : ∃ c rest, name.toList = c :: rest :=
    List.exists_cons_of_ne_nil fun hnil => hempty (String.toList_inj.mp hnil)
  obtain ⟨others, hothers⟩ := lowered_eq_append c rest
  have hcases := unexported_cases hempty
  rw [hname] at hcases
  constructor
  · intro h
    rcases hcases with ⟨hescaped, -⟩ | ⟨hident, -, hother⟩
    · rw [hescaped, isExported_escape] at h
      cases h
    · -- What is not escaped has changed, and its first letter has not.
      obtain ⟨d, ds, hd⟩ := Text.exists_cons_lowerChar c
      rw [hident, hothers, hd, List.cons_append, isExported_ofList] at h
      obtain ⟨hself, rfl⟩ := Text.lowerChar_eq_self h hd
      rw [Ne, ← String.toList_inj, String.toList_ofList, hname, lowered] at hother
      split at hother
      case isTrue hcapitals =>
        exact ⟨d, rest, hname, h, hself, beq_iff_eq.mp hcapitals, hother⟩
      case isFalse =>
        rw [hself, List.singleton_append] at hother
        exact absurd rfl hother
  · rintro ⟨c', rest', hname', hcapital, hself, hcapitals, hchanged⟩
    obtain ⟨rfl, rfl⟩ := List.cons.inj (hname.symm.trans hname')
    have hexported : isExported (String.ofList (lowered (c :: rest))) = true := by
      rw [hothers, hself, List.singleton_append, isExported_ofList, hcapital]
    rcases hcases with ⟨-, hreserved | hsame⟩ | ⟨hident, -⟩
    · rw [isReserved_of_isExported hexported] at hreserved
      cases hreserved
    · rw [← String.toList_inj, String.toList_ofList, hname, lowered,
        if_pos (beq_iff_eq.mpr hcapitals)] at hsame
      exact absurd hsame hchanged
    · rw [hident, hexported]

/-- The identifier for a field `ℂX` is exported. -/
theorem unexported_keeps_capital :
    ¬ ∀ name : String, isExported name = true → isExported (unexported name) = false := by
  have hkept : isExported "ℂX" = true ∧ isExported (unexported "ℂX") = true := by
    set_option maxRecDepth 2000 in
    decide
  intro h
  rw [h "ℂX" hkept.1] at hkept
  cases hkept.2

end FluentBuilder

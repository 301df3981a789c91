import FluentBuilder.Proofs.Reading

/-!
# Integers — an integer is read as a number with the same text

An integer is in the decimal system or has a prefix. In front of what goes on neither with a word
nor with a point, no fraction, no exponent and no imaginary number begins like it, so it is the
longest number there (`floatLiteral_none`).

* **`IsInteger.shape`** — how an integer begins.
* **`reads_integer`** — an integer is read as a number.
-/

namespace FluentBuilder.Go

section

variable {s gap w rest : List Char}

/-! ## Integers -/

/-- The text of an integer: all of it is scanned as one. -/
def IsInteger (text : List Char) : Prop := intLiteral text = some (text, [])

instance (text : List Char) : Decidable (IsInteger text) :=
  inferInstanceAs (Decidable (intLiteral text = some (text, [])))

/-- Words and integers end in front of what does not go on with a word. -/
theorem halts_word (hrest : StopsWord rest) :
    Halts [] (fun c => !Text.isIdentPart c) (· ++ rest) where
  cons _ _ := rfl
  stopped {s} h := by
    cases s with
    | nil =>
        intro c hc
        dsimp only
        rw [hrest c hc]
        rfl
    | cons c s => exact h
  inToken {c} h := by
    rcases h with h | h
    · rw [h]
      rfl
    · cases h

/-- Behind the characters of a word a text can be cut off. -/
theorem halts_cut : Halts [] (fun c => !Text.isIdentPart c) (·.takeWhile Text.isIdentPart) where
  cons h s := List.takeWhile_cons_of_pos (by simpa using h)
  stopped {s} h := by
    have hnone : ∀ c, s.head? = some c → Text.isIdentPart c = false :=
      fun c hc => by simpa using h c hc
    rw [(takeWhile_of_head hnone).1]
    exact nofun
  inToken {c} h := by
    rcases h with h | h
    · rw [h]
      rfl
    · cases h

/-- Each character of an integer may stand in a word. -/
theorem IsInteger.inWord (h : IsInteger w) : ∀ c ∈ w, Text.isIdentPart c = true := by
  have hcut := Scan.Follows.intLiteral halts_cut w
  unfold IsInteger at h
  rw [h] at hcut
  have htext : w = w.takeWhile Text.isIdentPart := by
    have htaken := Scan.Takes.intLiteral hcut
    rwa [List.takeWhile_nil, List.append_nil] at htaken
  exact fun c hc => List.mem_takeWhile_imp (htext ▸ hc)

/-- What is an integer in front of the rest of the digits, if not all of them are decimal. -/
inductive IntegerShape : List Char → Prop
  | decimal {c : Char} {text : List Char} (hc : (digitValue 10 c).isSome = true)
      (h : ∀ d ∈ text, (digitValue 10 d).isSome = true ∨ d = '_') : IntegerShape (c :: text)
  | prefixed {c : Char} {text : List Char} (hc : c ∈ ['b', 'B', 'o', 'O']) :
      IntegerShape ('0' :: c :: text)
  | hexadecimal {c : Char} {text : List Char} (hc : c ∈ ['x', 'X'])
      (h : ((mark ['_']).opt.seq (digits 16)) text = some (text, [])) :
      IntegerShape ('0' :: c :: text)

/-- The digits of a system with at most ten are decimal ones. -/
theorem digitValue_decimal {base : Nat} (hbase : base ≤ 10) {c : Char}
    (h : (digitValue base c).isSome = true) : (digitValue 10 c).isSome = true := by
  simp only [digitValue] at h ⊢
  grind

theorem moreDigits_decimal {base : Nat} (hbase : base ≤ 10) (s : List Char) :
    ∀ c ∈ (moreDigits base s).1, (digitValue 10 c).isSome = true ∨ c = '_' := by
  fun_induction moreDigits base s with
  | case1 => exact List.forall_mem_nil _
  | case2 c rest hc taken left hrest ih =>
      rw [hrest] at ih
      exact List.forall_mem_cons.mpr ⟨.inr rfl, List.forall_mem_cons.mpr
        ⟨.inl (digitValue_decimal hbase hc), ih⟩⟩
  | case3 => exact List.forall_mem_nil _
  | case4 c rest hne hc taken left hrest ih =>
      rw [hrest] at ih
      exact List.forall_mem_cons.mpr ⟨.inl (digitValue_decimal hbase hc), ih⟩
  | case5 => exact List.forall_mem_nil _

theorem digits_decimal {base : Nat} (hbase : base ≤ 10) {left : List Char}
    (h : digits base s = some (w, left)) : ∃ c text, w = c :: text ∧
      (digitValue 10 c).isSome = true ∧ ∀ d ∈ text, (digitValue 10 d).isSome = true ∨ d = '_' := by
  cases s with
  | nil => cases h
  | cons c s =>
      rw [digits] at h
      split at h <;> cases h
      exact ⟨c, _, rfl, digitValue_decimal hbase ‹_›, moreDigits_decimal hbase s⟩

/-- The digits behind a prefix. -/
theorem prefixedDigits_eq_some {letters : List Char} {base : Nat}
    (h : prefixedDigits letters base w = some (w, [])) : ∃ c text, w = '0' :: c :: text ∧
      c ∈ letters ∧ ((mark ['_']).opt.seq (digits base)) text = some (text, []) := by
  obtain ⟨a, middle, b, hfront, hdigits, rfl⟩ := Scan.seq_eq_some h
  obtain ⟨d, behind, e, hzero, hletter, rfl⟩ := Scan.seq_eq_some hfront
  obtain ⟨more, hmore, heq⟩ := Option.map_eq_some_iff.mp hzero
  cases heq
  cases behind with
  | nil => cases hletter
  | cons c behind =>
      rw [oneOf] at hletter
      split at hletter <;> cases hletter
      have htext : ((mark ['_']).opt.seq (digits base)).Takes := .seq (.opt .mark) .digits
      have heq := htext hdigits
      rw [List.append_nil] at heq
      subst heq
      exact ⟨c, b, rfl, List.contains_iff_mem.mp ‹_›, hdigits⟩

/-- What stands in front of the digits of an octal number is an underscore, if anything. -/
theorem eq_underscore_of_opt {taken left : List Char}
    (h : (mark ['_']).opt s = some (taken, left)) : ∀ c ∈ taken, c = '_' := by
  have hopt := Option.some.inj h
  cases hmark : mark ['_'] s with
  | none =>
      rw [hmark] at hopt
      cases hopt
      exact nofun
  | some found =>
      rw [hmark] at hopt
      obtain ⟨left, -, heq⟩ := Option.map_eq_some_iff.mp hmark
      cases heq
      cases hopt
      exact List.forall_mem_singleton.mpr rfl

/-- An integer has one of the three shapes. -/
theorem IsInteger.shape (h : IsInteger w) : IntegerShape w := by
  have hprefixed : ∀ letters base, letters ⊆ ['b', 'B', 'o', 'O'] →
      prefixedDigits letters base w = some (w, []) → IntegerShape w := by
    intro letters base hletters hw
    obtain ⟨c, text, rfl, hc, -⟩ := prefixedDigits_eq_some hw
    exact .prefixed (hletters hc)
  rcases Scan.longer_cases h with h | h
  · rcases Scan.longer_cases h with h | h
    · exact hprefixed _ _ (by simp) h
    · exact hprefixed _ _ (by simp) h
  · rcases Scan.longer_cases h with h | h
    · rcases Scan.longer_cases h with h | h
      · obtain ⟨c, text, rfl, hc, hdigits⟩ := prefixedDigits_eq_some h
        exact .hexadecimal hc hdigits
      · -- an octal number without a letter looks like a decimal one
        obtain ⟨zero, middle, b, hzero, hrest, rfl⟩ := Scan.seq_eq_some h
        obtain ⟨left, -, heq⟩ := Option.map_eq_some_iff.mp hzero
        obtain rfl : ['0'] = zero := congrArg Prod.fst heq
        obtain ⟨front, behind, octal, hfront, hdigits, rfl⟩ := Scan.seq_eq_some hrest
        obtain ⟨c, text, rfl, hc, htext⟩ := digits_decimal (by decide) hdigits
        have hall : ∀ d ∈ front ++ c :: text, (digitValue 10 d).isSome = true ∨ d = '_' :=
          List.forall_mem_append.mpr ⟨fun d hd => .inr (eq_underscore_of_opt hfront d hd),
            List.forall_mem_cons.mpr ⟨.inl hc, htext⟩⟩
        exact .decimal (by decide) hall
    · split at h
      · cases h
        exact .decimal (by decide) nofun
      · obtain ⟨c, text, rfl, hc, htext⟩ := digits_decimal le_rfl h
        exact .decimal hc htext

section

variable (hrest : StopsWord rest) (hdot : rest.head? ≠ some '.')

include hrest

/-- An integer is scanned as one in front of what does not go on with it. -/
theorem IsInteger.scanned (h : IsInteger w) : intLiteral (w ++ rest) = some (w, rest) := by
  have hfollows := Scan.Follows.intLiteral (halts_word hrest) w
  unfold IsInteger at h
  rw [h] at hfollows
  exact hfollows

include hdot

/-- What stands behind an integer is neither a point nor the letter of an exponent or of an imaginary
number. -/
theorem head_notMem : ∀ c, rest.head? = some c → c ∉ ['.', 'e', 'E', 'i'] := by
  have hletters : ∀ c ∈ ['e', 'E', 'i'], Text.isIdentPart c = true := by decide
  rintro c hc hmem
  rcases List.mem_cons.mp hmem with rfl | hmem
  · exact hdot hc
  · have hpart := hletters c hmem
    rw [hrest c hc] at hpart
    cases hpart

/-- Behind the decimal digits of an integer stands nothing that a fraction or an exponent begins
with, nor the mark of an imaginary number: the digits go up to the rest, -/
theorem IntegerShape.behindDigits_decimal {c : Char} {text taken left : List Char}
    (hall : ∀ d ∈ c :: text, (digitValue 10 d).isSome = true ∨ d = '_')
    (hdigits : digits 10 (c :: text ++ rest) = some (taken, left)) :
    ∀ d, left.head? = some d → d ∉ ['.', 'e', 'E', 'i'] := by
  have hfollows := Scan.Follows.digits (halts_word hrest) 10 (c :: text)
  rw [hdigits] at hfollows
  obtain ⟨⟨first, behind⟩, hfound, heq⟩ := Option.map_eq_some_iff.mp hfollows.symm
  cases heq
  cases behind with
  | nil => exact head_notMem hrest hdot
  | cons b behind =>
      have hbad : ∀ d ∈ ['.', 'e', 'E', 'i'], (digitValue 10 d).isSome = false ∧ d ≠ '_' := by
        decide
      have hmem : b ∈ c :: text := by
        rw [← Scan.Takes.digits hfound]
        exact List.mem_append_right _ (.head _)
      rintro d ⟨⟩ hb
      rcases hall b hmem with hdigit | hunderscore
      · rw [(hbad b hb).1] at hdigit
        cases hdigit
      · exact (hbad b hb).2 hunderscore

omit hrest hdot in
/-- or up to the letter of a prefix. -/
theorem IntegerShape.behindDigits_prefixed {c : Char} {text taken left : List Char}
    (hc : c ∈ ['b', 'B', 'o', 'O', 'x', 'X'])
    (hdigits : digits 10 ('0' :: c :: text) = some (taken, left)) :
    ∀ d, left.head? = some d → d ∉ ['.', 'e', 'E', 'i'] := by
  have hletters : ∀ c ∈ ['b', 'B', 'o', 'O', 'x', 'X'], (digitValue 10 c).isSome = false ∧
      c ≠ '_' ∧ c ∉ ['.', 'e', 'E', 'i'] := by
    decide
  obtain ⟨hdigit, hunderscore, hbad⟩ := hletters c hc
  have hmore : moreDigits 10 (c :: text) = ([], c :: text) := moreDigits_of_head (by
    rintro d ⟨⟩
    simp [hdigit, hunderscore])
  rw [digits, if_pos (by decide), hmore] at hdigits
  cases hdigits
  rintro d ⟨⟩
  exact hbad

theorem IntegerShape.behindDigits (h : IntegerShape w) {taken left : List Char}
    (hdigits : digits 10 (w ++ rest) = some (taken, left)) :
    ∀ c, left.head? = some c → c ∉ ['.', 'e', 'E', 'i'] := by
  cases h with
  | decimal hc htext =>
      exact behindDigits_decimal hrest hdot (List.forall_mem_cons.mpr ⟨.inl hc, htext⟩) hdigits
  | prefixed hc => exact behindDigits_prefixed (List.mem_append_left ['x', 'X'] hc) hdigits
  | hexadecimal hc _ =>
      exact behindDigits_prefixed (List.mem_append_right ['b', 'B', 'o', 'O'] hc) hdigits

/-- So no fraction and no exponent goes on with the digits. -/
theorem IntegerShape.behindDigits_none (h : IntegerShape w) {taken left : List Char}
    (hdigits : digits 10 (w ++ rest) = some (taken, left)) :
    mark ['.'] left = none ∧ mark ['i'] left = none ∧ exponent ['e', 'E'] left = none := by
  have hbehind := h.behindDigits hrest hdot hdigits
  have hmark : ∀ d ∈ ['.', 'e', 'E', 'i'], mark [d] left = none := by
    intro d hd
    exact mark_of_head fun hhead => hbehind d hhead hd
  have hletter : oneOf ['e', 'E'].contains left = none := oneOf_of_head fun d hd =>
    Bool.eq_false_iff.mpr fun hmem => hbehind d hd
      ((by decide : ['e', 'E'] ⊆ ['.', 'e', 'E', 'i']) (List.contains_iff_mem.mp hmem))
  refine ⟨hmark _ (by decide), hmark _ (by decide), ?_⟩
  simp only [exponent, Scan.seq, hletter]

/-- No fraction and no exponent goes on with the digits of a hexadecimal integer. -/
theorem hexadecimal_none {text : List Char}
    (h : ((mark ['_']).opt.seq (digits 16)) text = some (text, [])) :
    ((((((mark ['_']).opt.seq (digits 16)).seq (mark ['.'])).seq (digits 16).opt).longer
      (((mark ['_']).opt.seq (digits 16)).longer ((mark ['.']).seq (digits 16)))).seq
        (exponent ['p', 'P'])) (text ++ rest) = none := by
  have hf := halts_word hrest
  have hunderscore : (mark ['_']).Follows (· ++ rest) :=
    .mark hf (hf.inWord (by decide))
  have hfollows := Scan.Follows.seq hunderscore.opt (.digits hf 16) text
  rw [h, Option.map_some] at hfollows
  have hpoint : mark ['.'] (text ++ rest) = none := by
    refine mark_of_head ?_
    rcases text with _ | ⟨c, text⟩
    · cases h
    · rintro ⟨⟩
      cases h
  have hbehind : mark ['.'] rest = none := mark_of_head hdot
  have hexponent : exponent ['p', 'P'] rest = none := by
    have hletter : oneOf ['p', 'P'].contains rest = none := by
      refine oneOf_of_head fun d hd => Bool.eq_false_iff.mpr fun hmem => ?_
      have hpart := (by decide : ∀ d ∈ ['p', 'P'], Text.isIdentPart d = true) d
        (List.contains_iff_mem.mp hmem)
      rw [hrest d hd] at hpart
      cases hpart
    simp only [exponent, Scan.seq, hletter]
  generalize (mark ['_']).opt.seq (digits 16) = whole at hfollows
  dsimp only [List.nil_append] at hfollows
  simp only [Scan.longer, Scan.seq, hfollows, hpoint, hbehind, hexponent, Option.map_none]

/-- No decimal number with a fraction or an exponent begins like an integer. -/
theorem IntegerShape.decimalFloat_none (h : IntegerShape w) :
    (((digits 10).seq (mark ['.'])).seq ((digits 10).opt.seq (exponent ['e', 'E']).opt)).longer
      (((digits 10).seq (exponent ['e', 'E'])).longer
        ((mark ['.']).seq ((digits 10).seq (exponent ['e', 'E']).opt))) (w ++ rest) = none := by
  have hpoint : mark ['.'] (w ++ rest) = none := by
    refine mark_of_head ?_
    cases h with
    | decimal hc =>
        rintro ⟨⟩
        cases hc
    | prefixed => simp
    | hexadecimal => simp
  cases hdigits : digits 10 (w ++ rest) with
  | none => simp only [Scan.longer, Scan.seq, hdigits, hpoint]
  | some found =>
      obtain ⟨hdot, -, he⟩ := h.behindDigits_none hrest hdot hdigits
      simp only [Scan.longer, Scan.seq, hdigits, hdot, he, hpoint, Option.map_none]

omit hdot in
/-- Only a hexadecimal integer has the letter of one behind its zero. -/
theorem IntegerShape.hexadecimalPrefix_cases (h : IntegerShape w) :
    ((mark ['0']).seq (oneOf ['x', 'X'].contains)) (w ++ rest) = none ∨
      ∃ c text, w = '0' :: c :: text ∧ c ∈ ['x', 'X'] ∧
        ((mark ['_']).opt.seq (digits 16)) text = some (text, []) := by
  have hletter : ∀ s : List Char, (∀ c, s.head? = some c → c ∉ ['x', 'X']) →
      ((mark ['0']).seq (oneOf ['x', 'X'].contains)) ('0' :: s) = none := by
    intro s hs
    have hzero : mark ['0'] ('0' :: s) = some (['0'], s) := rfl
    have hnone : oneOf ['x', 'X'].contains s = none := oneOf_of_head fun c hc =>
      Bool.eq_false_iff.mpr fun hmem => hs c hc (List.contains_iff_mem.mp hmem)
    simp only [Scan.seq, hzero, hnone, Option.map_none]
  cases h with
  | @decimal c text hc htext =>
      refine .inl ?_
      by_cases hzero : c = '0'
      · subst hzero
        have hother : ∀ d ∈ ['x', 'X'], (digitValue 10 d).isSome = false ∧ d ≠ '_' ∧
            Text.isIdentPart d = true := by
          decide
        refine hletter _ fun d hd hmem => ?_
        obtain ⟨hdigit, hunderscore, hpart⟩ := hother d hmem
        cases text with
        | nil =>
            rw [hrest d hd] at hpart
            cases hpart
        | cons b text =>
            obtain rfl : b = d := Option.some.inj hd
            rcases htext b (.head _) with hb | hb
            · rw [hdigit] at hb
              cases hb
            · exact hunderscore hb
      · have hnone : mark ['0'] (c :: (text ++ rest)) = none :=
          mark_of_head (by simpa using hzero)
        simp only [Scan.seq, List.cons_append, hnone]
  | @prefixed c text hc =>
      have hother : ∀ c ∈ ['b', 'B', 'o', 'O'], c ∉ ['x', 'X'] := by decide
      refine .inl (hletter _ ?_)
      rintro d ⟨⟩
      exact hother c hc
  | hexadecimal hc h => exact .inr ⟨_, _, rfl, hc, h⟩

/-- **No number with a fraction or an exponent begins like an integer**, -/
theorem IntegerShape.floatLiteral_none (h : IntegerShape w) : floatLiteral (w ++ rest) = none := by
  rw [floatLiteral, Scan.longer, h.decimalFloat_none hrest hdot]
  rcases h.hexadecimalPrefix_cases hrest with hnone | ⟨c, text, rfl, hc, hdigits⟩
  · rw [Scan.seq, hnone]
  · have hfront : ((mark ['0']).seq (oneOf ['x', 'X'].contains)) ('0' :: c :: (text ++ rest)) =
        some (['0', c], text ++ rest) := by
      have hzero : mark ['0'] ('0' :: c :: (text ++ rest)) = some (['0'], c :: (text ++ rest)) :=
        rfl
      simp only [Scan.seq, hzero, oneOf, List.contains_iff_mem.mpr hc, if_true, Option.map_some]
      rfl
    rw [Scan.seq, List.cons_append, List.cons_append, hfront]
    exact congrArg (Option.map _) (hexadecimal_none hrest hdot hdigits)

/-- nor does one with the mark of an imaginary number behind it. -/
theorem imaginaryLiteral_none (h : IsInteger w) : imaginaryLiteral (w ++ rest) = none := by
  have hmark : mark ['i'] rest = none :=
    mark_of_head fun hhead => absurd (hrest 'i' hhead) (by decide)
  have hdigits : ((digits 10).seq (mark ['i'])) (w ++ rest) = none := by
    cases hdigits : digits 10 (w ++ rest) with
    | none => simp only [Scan.seq, hdigits]
    | some found =>
        simp only [Scan.seq, hdigits, (h.shape.behindDigits_none hrest hdot hdigits).2.1,
          Option.map_none]
  simp only [imaginaryLiteral, Scan.longer, hdigits]
  simp only [Scan.seq, h.scanned hrest, h.shape.floatLiteral_none hrest hdot, hmark,
    Option.map_none]

/-- **An integer is read as a number** in front of what does not go on with it. -/
theorem reads_integer (h : IsInteger w) (hfront : takeGap s = (gap, w ++ rest)) :
    Grammar.number.Reads s [⟨none, .leaf .intLiteral gap w⟩] rest := by
  have hfloat := h.shape.floatLiteral_none hrest hdot
  have himaginary := imaginaryLiteral_none hrest hdot h
  refine .right (.scanLeaf ?_) (.right (.scanLeaf ?_) (.scanLeaf (congrArg Prod.fst hfront) ?_))
  · simp only [hfront, himaginary]
  · simp only [hfront, hfloat]
  · simp only [hfront, Scan.longer, h.scanned hrest, hfloat, himaginary, beq_self_eq_true, if_true]

end

/-- An integer begins with a digit. -/
theorem IsInteger.front (h : IsInteger w) :
    ∃ c cs, w = c :: cs ∧ (digitValue 10 c).isSome = true := by
  cases h.shape with
  | decimal hc _ => exact ⟨_, _, rfl, hc⟩
  | prefixed _ => exact ⟨_, _, rfl, by decide⟩
  | hexadecimal _ _ => exact ⟨_, _, rfl, by decide⟩

end

end FluentBuilder.Go

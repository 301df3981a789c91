import Mathlib.Data.List.TakeWhile
import FluentBuilder.Go.Token

/-!
# Scans — what a scan takes from a text

A scan takes characters from the front of a text and leaves the others. There is one lemma for each
way to make a scan of others, called as the function it is about, and the scans for numbers are put
together from these lemmas as they are from the functions.

* **`Scan.Takes`** — what a scan takes and what it leaves are the text.
* **`Scan.Advances`** — what a scan takes is not empty.
-/

namespace FluentBuilder.Go

/-- A number of any form. -/
def numberLiteral : Scan := intLiteral.longer (floatLiteral.longer imaginaryLiteral)

theorem Scan.longer_cases {first second : Scan} {s : List Char} {found : List Char × List Char}
    (h : first.longer second s = some found) : first s = some found ∨ second s = some found := by
  unfold Scan.longer at h
  split at h
  case h_1 hfirst => exact .inr h
  case h_2 hsecond => exact .inl h
  case h_3 a b hfirst hsecond =>
    split at h
    · exact .inr (hsecond.trans h)
    · exact .inl (hfirst.trans h)

theorem Scan.seq_eq_some {first second : Scan} {s taken left : List Char}
    (h : first.seq second s = some (taken, left)) : ∃ a rest b,
      first s = some (a, rest) ∧ second rest = some (b, left) ∧ a ++ b = taken := by
  unfold Scan.seq at h
  split at h
  case h_1 => cases h
  case h_2 a rest hfirst =>
    obtain ⟨⟨b, left'⟩, hsecond, heq⟩ := Option.map_eq_some_iff.mp h
    cases heq
    exact ⟨a, rest, b, hfirst, hsecond, rfl⟩

/-- The longest of several marks is one of them. -/
theorem longest_cases {text : List Char} {others : List (List Char)} {s : List Char}
    {found : List Char × List Char} (h : longest (text :: others) s = some found) :
    mark text s = some found ∨ longest others s = some found := by
  rw [longest] at h
  split at h
  case h_1 hmark => exact .inr h
  case h_2 a hmark hothers => exact .inl (hmark.trans h)
  case h_3 a b hmark hothers =>
    split at h
    · exact .inl (hmark.trans h)
    · exact .inr (hothers.trans h)

/-! ## What a scan takes and leaves -/

/-- What a scan takes stands at the front of the text, and what it leaves stands behind it. -/
def Scan.Takes (scan : Scan) : Prop :=
  ∀ ⦃s taken left⦄, scan s = some (taken, left) → taken ++ left = s

namespace Scan.Takes

variable {first second scan : Scan}

theorem mark {text : List Char} : (mark text).Takes := by
  have hdrop : ∀ (text : List Char) {s left}, dropExact text s = some left → text ++ left = s := by
    intro text
    induction text with
    | nil =>
        intro s left h
        exact (Option.some.inj h).symm
    | cons c text ih =>
        intro s left h
        cases s with
        | nil => cases h
        | cons d s =>
            rw [dropExact] at h
            split at h
            case isTrue hcd => rw [List.cons_append, ih h, beq_iff_eq.mp hcd]
            case isFalse => cases h
  intro s taken left h
  obtain ⟨rest, hrest, heq⟩ := Option.map_eq_some_iff.mp h
  cases heq
  exact hdrop _ hrest

theorem seq (h₁ : first.Takes) (h₂ : second.Takes) : (first.seq second).Takes := by
  intro s taken left h
  obtain ⟨a, rest, b, hfirst, hsecond, rfl⟩ := seq_eq_some h
  rw [List.append_assoc, h₂ hsecond, h₁ hfirst]

theorem opt (h : scan.Takes) : scan.opt.Takes := by
  intro s taken left hopt
  have hfound := Option.some.inj hopt
  cases hscan : scan s with
  | none =>
      rw [hscan] at hfound
      cases hfound
      rfl
  | some found =>
      rw [hscan] at hfound
      cases hfound
      exact h hscan

theorem longer (h₁ : first.Takes) (h₂ : second.Takes) : (first.longer second).Takes := by
  intro s taken left h
  rcases longer_cases h with hfirst | hsecond
  · exact h₁ hfirst
  · exact h₂ hsecond

theorem oneOf {test : Char → Bool} : (oneOf test).Takes := by
  intro s taken left h
  cases s with
  | nil => cases h
  | cons c s =>
      rw [Go.oneOf] at h
      split at h
      · cases h
        rfl
      · cases h

theorem moreDigits (base : Nat) (s : List Char) :
    (moreDigits base s).1 ++ (moreDigits base s).2 = s := by
  fun_induction Go.moreDigits base s with
  | case1 => rfl
  | case2 c rest hc taken left hrest ih => simpa [hrest] using ih
  | case3 => rfl
  | case4 c rest hne hc taken left hrest ih => simpa [hrest] using ih
  | case5 => rfl

theorem digits {base : Nat} : (digits base).Takes := by
  intro s taken left h
  cases s with
  | nil => cases h
  | cons c s =>
      rw [Go.digits] at h
      split at h
      · cases h
        rw [List.cons_append, moreDigits]
      · cases h

theorem prefixedDigits {letters : List Char} {base : Nat} : (prefixedDigits letters base).Takes :=
  .seq (.seq .mark .oneOf) (.seq (.opt .mark) .digits)

theorem intLiteral : intLiteral.Takes := by
  refine .longer (.longer .prefixedDigits .prefixedDigits)
    (.longer (.longer .prefixedDigits (.seq .mark (.seq (.opt .mark) .digits))) ?_)
  intro s taken left h
  dsimp only at h
  split at h
  · cases h
    rfl
  · exact digits h

theorem exponent {letters : List Char} : (exponent letters).Takes :=
  .seq .oneOf (.seq (.opt .oneOf) .digits)

theorem floatLiteral : floatLiteral.Takes :=
  have hwhole {base : Nat} : ((Go.mark ['_']).opt.seq (Go.digits base)).Takes :=
    .seq (.opt .mark) .digits
  .longer
    (.longer (.seq (.seq .digits .mark) (.seq (.opt .digits) (.opt .exponent)))
      (.longer (.seq .digits .exponent) (.seq .mark (.seq .digits (.opt .exponent)))))
    (.seq (.seq .mark .oneOf)
      (.seq
        (.longer (.seq (.seq hwhole .mark) (.opt .digits)) (.longer hwhole (.seq .mark .digits)))
        .exponent))

theorem imaginaryLiteral : imaginaryLiteral.Takes :=
  .longer (.seq .digits .mark) (.longer (.seq .intLiteral .mark) (.seq .floatLiteral .mark))

theorem numberLiteral : numberLiteral.Takes :=
  .longer .intLiteral (.longer .floatLiteral .imaginaryLiteral)

theorem word : word.Takes := by
  intro s taken left h
  cases s with
  | nil => cases h
  | cons c s =>
      rw [Go.word] at h
      split at h
      · cases h
        rw [List.cons_append, List.takeWhile_append_dropWhile]
      · cases h

theorem longest {texts : List (List Char)} : (longest texts).Takes := by
  induction texts with
  | nil => exact nofun
  | cons text others ih =>
      intro s taken left h
      rcases longest_cases h with hmark | hothers
      · exact mark hmark
      · exact ih hothers

theorem hexDigits {count : Nat} {more : Bool} : (hexDigits count more).Takes := by
  intro s taken left h
  simp only [Go.hexDigits] at h
  split at h
  · split at h <;> cases h
    · exact List.takeWhile_append_dropWhile
    · exact List.take_append_drop count s
  · cases h

/-- What stands in front of a scan is taken with it. -/
theorem cons (h : scan.Takes) {s taken left : List Char} {c : Char}
    (hs : ((scan s).map fun found => (c :: found.1, found.2)) = some (taken, left)) :
    taken ++ left = c :: s := by
  obtain ⟨found, hfound, heq⟩ := Option.map_eq_some_iff.mp hs
  cases heq
  rw [List.cons_append, h hfound]

theorem blockComment : blockComment.Takes := by
  intro s taken left h
  induction s using Go.blockComment.induct generalizing taken left with
  | case1 => cases h
  | case2 rest =>
      cases h
      rfl
  | case3 c rest hne ih =>
      rw [Go.blockComment] at h
      · obtain ⟨found, hfound, heq⟩ := Option.map_eq_some_iff.mp h
        cases heq
        rw [List.cons_append, ih hfound]
      · exact hne

theorem rawString : rawString.Takes := by
  intro s taken left h
  unfold Go.rawString at h
  split at h
  case h_1 rest =>
    split at h
    case h_1 => cases h
    case h_2 quote left' hdrop =>
      cases h
      rw [List.cons_append, List.append_assoc, List.singleton_append, ← hdrop,
        List.takeWhile_append_dropWhile]
  case h_2 => cases h

theorem stringEscape : stringEscape.Takes := by
  intro s taken left h
  cases s with
  | nil => cases h
  | cons c s =>
      rw [Go.stringEscape] at h
      split at h
      · exact cons hexDigits h
      · split at h
        · exact cons hexDigits h
        · split at h
          · exact cons hexDigits h
          · cases h
            rfl

theorem stringBody {bound : List Char} : Scan.Takes (stringBody bound) := by
  intro s taken left h
  induction bound generalizing s taken left with
  | nil => simp [Go.stringBody] at h
  | cons b bound ih =>
      cases s with
      | nil => simp [Go.stringBody] at h
      | cons c s =>
          rw [Go.stringBody] at h
          split at h
          case isTrue =>
            cases h
            rfl
          case isFalse =>
            split at h
            case isTrue => cases h
            case isFalse =>
              split at h
              case isTrue =>
                split at h
                case h_1 => cases h
                case h_2 escape after hescape =>
                  obtain ⟨rest, hrest, heq⟩ := Option.map_eq_some_iff.mp h
                  cases heq
                  rw [List.cons_append, List.append_assoc, ih hrest, stringEscape hescape]
              case isFalse => exact cons ih h

theorem interpretedString : interpretedString.Takes := by
  intro s taken left h
  unfold Go.interpretedString at h
  split at h
  case h_1 rest => exact cons stringBody h
  case h_2 => cases h

theorem runeEscape : runeEscape.Takes := by
  intro s taken left h
  cases s with
  | nil => cases h
  | cons c s =>
      rw [Go.runeEscape] at h
      split at h
      · exact cons hexDigits h
      · split at h
        · exact cons hexDigits h
        · split at h
          · exact cons hexDigits h
          · split at h
            · cases h
              rfl
            · dsimp only at h
              split at h
              · cases h
                exact List.take_append_drop 3 (c :: s)
              · cases h

theorem runeLiteral : runeLiteral.Takes := by
  intro s taken left h
  unfold Go.runeLiteral at h
  split at h
  case h_1 rest =>
    split at h
    case h_1 escape left' hfound =>
      cases h
      simpa using runeEscape hfound
    case h_2 => cases h
  case h_2 =>
    split at h
    · cases h
    · cases h
      rfl
  case h_3 => cases h

end Scan.Takes

/-! ## Scans that take something -/

/-- What a scan takes is not empty. -/
def Scan.Advances (scan : Scan) : Prop :=
  ∀ ⦃s taken left⦄, scan s = some (taken, left) → taken ≠ []

namespace Scan.Advances

variable {first second : Scan}

theorem mark {text : List Char} (h : text ≠ []) : (mark text).Advances := by
  intro s taken left hmark
  obtain ⟨rest, -, heq⟩ := Option.map_eq_some_iff.mp hmark
  cases heq
  exact h

theorem seq (h : first.Advances) : (first.seq second).Advances := by
  intro s taken left hseq
  obtain ⟨a, rest, b, hfirst, -, rfl⟩ := seq_eq_some hseq
  exact List.append_ne_nil_of_left_ne_nil (h hfirst) b

theorem longer (h₁ : first.Advances) (h₂ : second.Advances) : (first.longer second).Advances := by
  intro s taken left h
  rcases longer_cases h with hfirst | hsecond
  · exact h₁ hfirst
  · exact h₂ hsecond

theorem digits {base : Nat} : (digits base).Advances := by
  intro s taken left h
  cases s with
  | nil => cases h
  | cons c s =>
      rw [Go.digits] at h
      split at h <;> cases h
      exact List.cons_ne_nil _ _

theorem prefixedDigits {letters : List Char} {base : Nat} :
    (prefixedDigits letters base).Advances :=
  .seq (.seq (.mark nofun))

theorem longest {texts : List (List Char)} (h : ∀ text ∈ texts, text ≠ []) :
    (longest texts).Advances := by
  induction texts with
  | nil => exact nofun
  | cons text others ih =>
      rw [List.forall_mem_cons] at h
      intro s taken left hlongest
      rcases longest_cases hlongest with hmark | hothers
      · exact mark h.1 hmark
      · exact ih h.2 hothers

theorem intLiteral : intLiteral.Advances := by
  refine .longer (.longer .prefixedDigits .prefixedDigits)
    (.longer (.longer .prefixedDigits (.seq (.mark nofun))) ?_)
  intro s taken left h
  dsimp only at h
  split at h
  · cases h
    exact List.cons_ne_nil _ _
  · exact digits h

theorem floatLiteral : floatLiteral.Advances :=
  .longer (.longer (.seq (.seq .digits)) (.longer (.seq .digits) (.seq (.mark nofun))))
    (.seq (.seq (.mark nofun)))

theorem numberLiteral : numberLiteral.Advances :=
  .longer .intLiteral
    (.longer .floatLiteral
      (.longer (.seq .digits) (.longer (.seq .intLiteral) (.seq .floatLiteral))))

theorem word : word.Advances := by
  intro s taken left h
  cases s with
  | nil => cases h
  | cons c s =>
      rw [Go.word] at h
      split at h <;> cases h
      exact List.cons_ne_nil _ _

theorem rawString : rawString.Advances := by
  intro s taken left h
  unfold Go.rawString at h
  split at h
  case h_1 =>
    split at h <;> cases h
    exact List.cons_ne_nil _ _
  case h_2 => cases h

theorem interpretedString : interpretedString.Advances := by
  intro s taken left h
  unfold Go.interpretedString at h
  split at h
  case h_1 =>
    obtain ⟨found, -, heq⟩ := Option.map_eq_some_iff.mp h
    cases heq
    exact List.cons_ne_nil _ _
  case h_2 => cases h

theorem runeLiteral : runeLiteral.Advances := by
  intro s taken left h
  unfold Go.runeLiteral at h
  split at h
  case h_1 =>
    split at h <;> cases h
    exact List.cons_ne_nil _ _
  case h_2 =>
    split at h <;> cases h
    exact List.cons_ne_nil _ _
  case h_3 => cases h

end Scan.Advances

end FluentBuilder.Go

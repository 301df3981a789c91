import FluentBuilder.Proofs.Reading
import FluentBuilder.Proofs.Shape

/-!
# Brackets — what a rule reads has as many closing square brackets as opening ones

`behindBracket` looks for the bracket that closes those that are open. Literals in quotes and
comments may hold brackets of their own, so it gives no answer at the first of them. A rule is
`Balanced` if it leaves the brackets open that were open before, whichever way it reads the text:
then what it reads between two brackets ends at the second one.

There is one lemma for each combinator, called as the combinator is, as there is for what rules
read (`Rule.Each`).

* **`Rule.Balanced.enclosed_ends`** — a rule between brackets ends behind the closing one.
* **`Paired.brackets`** — the texts in which brackets come in pairs.
-/

namespace FluentBuilder.Go

/-- What stands behind the bracket that closes the first of the open ones, of which there are
`inner` more. There is no answer where a quote or a comment stands in front of it. -/
def behindBracket : Nat → List Char → Option (List Char)
  | _, [] => none
  | inner, c :: s =>
    if c = '[' then behindBracket (inner + 1) s
    else if c = ']' then
      match inner with
      | 0 => some s
      | inner + 1 => behindBracket inner s
    else if c ∈ quotes ∨ (comment (c :: s)).isSome then none
    else behindBracket inner s

/-- Decide whether a character is no square bracket. -/
def isUnbracketed (c : Char) : Bool := c != '[' && c != ']'

section

variable {inner : Nat} {c : Char} {s left : List Char}

theorem behindBracket_open (inner : Nat) (s : List Char) :
    behindBracket inner ('[' :: s) = behindBracket (inner + 1) s := rfl

theorem behindBracket_closeInner (inner : Nat) (s : List Char) :
    behindBracket (inner + 1) (']' :: s) = behindBracket inner s := rfl

/-- Any other character opens and closes no bracket. -/
theorem behindBracket_char (hc : isUnbracketed c = true) (inner : Nat) (s : List Char) :
    behindBracket inner (c :: s) =
      if c ∈ quotes ∨ (comment (c :: s)).isSome then none else behindBracket inner s := by
  simp only [isUnbracketed, Bool.and_eq_true, bne_iff_ne] at hc
  simp only [behindBracket, if_neg hc.1, if_neg hc.2]

theorem behindBracket_drop (hc : isUnbracketed c = true)
    (h : behindBracket inner (c :: s) = some left) : behindBracket inner s = some left := by
  rw [behindBracket_char hc] at h
  split at h
  · cases h
  · exact h

/-- Several characters other than brackets in front of a text. -/
theorem behindBracket_dropAll {text : List Char} (htext : ∀ c ∈ text, isUnbracketed c = true)
    (h : behindBracket inner (text ++ s) = some left) : behindBracket inner s = some left := by
  induction text with
  | nil => exact h
  | cons c text ih =>
      rw [List.forall_mem_cons] at htext
      exact ih htext.2 (behindBracket_drop htext.1 h)

theorem behindBracket_quote (hc : c ∈ quotes) (inner : Nat) (s : List Char) :
    behindBracket inner (c :: s) = none := by
  rw [behindBracket_char ((by decide : ∀ c ∈ quotes, isUnbracketed c = true) c hc),
    if_pos (.inl hc)]

theorem behindBracket_comment (h : (comment (c :: s)).isSome = true) (inner : Nat) :
    behindBracket inner (c :: s) = none := by
  have hslash : c = '/' := by
    by_contra hne
    rw [comment_of_ne hne] at h
    cases h
  rw [behindBracket_char (hslash ▸ rfl), if_pos (.inr h)]

/-- A gap without comments opens and closes no bracket. -/
theorem behindBracket_gap {test : Char → Bool} (htest : ∀ c, test c = true → isSpace c = true)
    (bound : List Char) (h : behindBracket inner s = some left) :
    behindBracket inner (takeGapWith test bound s).2 = some left := by
  have hspace : ∀ c, isSpace c = true → isUnbracketed c = true := by
    intro c hc
    rw [isUnbracketed, Bool.and_eq_true, bne_iff_ne, bne_iff_ne]
    constructor <;> rintro rfl <;> cases hc
  induction bound generalizing s with
  | nil => cases s <;> exact h
  | cons b bound ih =>
      cases s with
      | nil => exact h
      | cons c s =>
          rw [takeGapWith]
          split
          case isTrue hc => exact ih (behindBracket_drop (hspace c (htest c hc)) h)
          case isFalse =>
            cases hcomment : comment (c :: s) with
            | none => exact h
            | some found =>
                rw [behindBracket_comment (by rw [hcomment]; rfl)] at h
                cases h

theorem behindBracket_takeGap (h : behindBracket inner s = some left) :
    behindBracket inner (takeGap s).2 = some left :=
  behindBracket_gap (fun _ h => h) s h

end

/-! ## Scans -/

/-- A scan that opens and closes no bracket. -/
def Scan.Unbracketed (scan : Scan) : Prop :=
  ∀ ⦃s taken rest⦄, scan s = some (taken, rest) → ∀ ⦃inner left⦄,
    behindBracket inner s = some left → behindBracket inner rest = some left

namespace Scan.Unbracketed

variable {first second scan : Scan}

/-- What takes only characters that are no brackets. -/
theorem of_takes (htakes : scan.Takes)
    (h : ∀ ⦃s taken rest⦄, scan s = some (taken, rest) → ∀ c ∈ taken, isUnbracketed c = true) :
    scan.Unbracketed := by
  intro s taken rest hscan inner left hs
  rw [← htakes hscan] at hs
  exact behindBracket_dropAll (h hscan) hs

/-- A literal in quotes is not looked into. -/
theorem quoted (h : ∀ ⦃s found⦄, scan s = some found → ∃ c ∈ quotes, ∃ rest, s = c :: rest) :
    scan.Unbracketed := by
  intro s taken rest hscan inner left hs
  obtain ⟨c, hc, rest, rfl⟩ := h hscan
  rw [behindBracket_quote hc] at hs
  cases hs

theorem mark {text : List Char} (h : text.all isUnbracketed = true) : (mark text).Unbracketed := by
  refine .of_takes .mark fun s taken rest hscan => ?_
  obtain ⟨left, -, heq⟩ := Option.map_eq_some_iff.mp hscan
  cases heq
  exact List.all_eq_true.mp h

theorem seq (h₁ : first.Unbracketed) (h₂ : second.Unbracketed) :
    (first.seq second).Unbracketed := by
  intro s taken rest hscan inner left hs
  obtain ⟨a, middle, b, hfirst, hsecond, -⟩ := seq_eq_some hscan
  exact h₂ hsecond (h₁ hfirst hs)

theorem opt (h : scan.Unbracketed) : scan.opt.Unbracketed := by
  intro s taken rest hscan inner left hs
  have hfound := Option.some.inj hscan
  cases hread : scan s with
  | none =>
      rw [hread] at hfound
      cases hfound
      exact hs
  | some found =>
      rw [hread] at hfound
      cases hfound
      exact h hread hs

theorem longer (h₁ : first.Unbracketed) (h₂ : second.Unbracketed) :
    (first.longer second).Unbracketed := by
  intro s taken rest hscan inner left hs
  rcases longer_cases hscan with hfirst | hsecond
  · exact h₁ hfirst hs
  · exact h₂ hsecond hs

theorem oneOf {test : Char → Bool} (h : ∀ c, test c = true → isUnbracketed c = true) :
    (oneOf test).Unbracketed := by
  refine .of_takes .oneOf fun s taken rest hscan => ?_
  cases s with
  | nil => cases hscan
  | cons c s =>
      rw [Go.oneOf] at hscan
      split at hscan <;> cases hscan
      exact List.forall_mem_singleton.mpr (h c ‹_›)

theorem oneOfLetters {letters : List Char} (h : letters.all isUnbracketed = true) :
    (Go.oneOf letters.contains).Unbracketed :=
  .oneOf fun c hc => List.all_eq_true.mp h c (List.contains_iff_mem.mp hc)

end Scan.Unbracketed

/-- What may stand in a word is no bracket. -/
theorem isUnbracketed_of_isIdentPart {c : Char} (h : Text.isIdentPart c = true) :
    isUnbracketed c = true := by
  rw [isUnbracketed, Bool.and_eq_true, bne_iff_ne, bne_iff_ne]
  constructor <;> rintro rfl <;> revert h <;> decide

namespace Scan.Unbracketed

theorem word : word.Unbracketed := by
  refine .of_takes .word fun s taken rest hscan c hc => ?_
  obtain ⟨d, ds, rfl, hd, hds⟩ := isWord_iff.mp (word_isWord hscan)
  rcases List.mem_cons.mp hc with rfl | hc
  · exact isUnbracketed_of_isIdentPart (by rw [Text.isIdentPart, hd, Bool.true_or])
  · exact isUnbracketed_of_isIdentPart (hds c hc)

theorem wordThat {test : List Char → Bool} : (Rule.wordThat test).Unbracketed := by
  intro s taken rest hscan
  unfold Rule.wordThat at hscan
  split at hscan
  · cases hscan
  · split at hscan <;> cases hscan
    exact word ‹_›

/-- Digits, and the underscores between them, are no brackets. -/
theorem moreDigits_unbracketed (base : Nat) (s : List Char) :
    ∀ c ∈ (moreDigits base s).1, isUnbracketed c = true := by
  have hdigit : ∀ c, (digitValue base c).isSome = true → isUnbracketed c = true := fun _ h =>
    isUnbracketed_of_isIdentPart (isIdentPart_of_digitValue h)
  fun_induction moreDigits base s with
  | case1 => exact List.forall_mem_nil _
  | case2 c rest hc taken left hrest ih =>
      rw [hrest] at ih
      exact List.forall_mem_cons.mpr ⟨rfl, List.forall_mem_cons.mpr ⟨hdigit c hc, ih⟩⟩
  | case3 => exact List.forall_mem_nil _
  | case4 c rest hne hc taken left hrest ih =>
      rw [hrest] at ih
      exact List.forall_mem_cons.mpr ⟨hdigit c hc, ih⟩
  | case5 => exact List.forall_mem_nil _

theorem digits {base : Nat} : (digits base).Unbracketed := by
  refine .of_takes .digits fun s taken rest hscan => ?_
  cases s with
  | nil => cases hscan
  | cons c s =>
      rw [Go.digits] at hscan
      split at hscan <;> cases hscan
      exact List.forall_mem_cons.mpr ⟨isUnbracketed_of_isIdentPart (isIdentPart_of_digitValue ‹_›),
        moreDigits_unbracketed base s⟩

theorem intLiteral : intLiteral.Unbracketed := by
  have hprefixed : ∀ letters base, letters.all isUnbracketed = true →
      (prefixedDigits letters base).Unbracketed := fun _ _ h =>
    .seq (.seq (.mark rfl) (.oneOfLetters h)) (.seq (.opt (.mark rfl)) .digits)
  refine .longer (.longer (hprefixed _ _ rfl) (hprefixed _ _ rfl))
    (.longer (.longer (hprefixed _ _ rfl) (.seq (.mark rfl) (.seq (.opt (.mark rfl)) .digits))) ?_)
  intro s taken rest hscan inner left hs
  dsimp only at hscan
  split at hscan
  · cases hscan
    exact behindBracket_drop rfl hs
  · exact digits hscan hs

theorem floatLiteral : floatLiteral.Unbracketed := by
  have hexponent : ∀ letters, letters.all isUnbracketed = true →
      (exponent letters).Unbracketed := fun _ h =>
    .seq (.oneOfLetters h) (.seq (.opt (.oneOfLetters rfl)) .digits)
  have hwhole {base : Nat} : ((Go.mark ['_']).opt.seq (Go.digits base)).Unbracketed :=
    .seq (.opt (.mark rfl)) .digits
  refine .longer (.longer ?_ (.longer ?_ ?_)) (.seq ?_ (.seq (.longer ?_ (.longer hwhole ?_)) ?_))
  · exact .seq (.seq .digits (.mark rfl)) (.seq (.opt .digits) (.opt (hexponent _ rfl)))
  · exact .seq .digits (hexponent _ rfl)
  · exact .seq (.mark rfl) (.seq .digits (.opt (hexponent _ rfl)))
  · exact .seq (.mark rfl) (.oneOfLetters rfl)
  · exact .seq (.seq hwhole (.mark rfl)) (.opt .digits)
  · exact .seq (.mark rfl) .digits
  · exact hexponent _ rfl

theorem imaginaryLiteral : imaginaryLiteral.Unbracketed :=
  .longer (.seq .digits (.mark rfl))
    (.longer (.seq .intLiteral (.mark rfl)) (.seq .floatLiteral (.mark rfl)))

/-- A scan that takes no more than another one. -/
theorem restrict {scan smaller : Scan} (h : scan.Unbracketed)
    (hsmaller : ∀ s found, smaller s = some found → scan s = some found) : smaller.Unbracketed :=
  fun s taken rest hscan => h (hsmaller s (taken, rest) hscan)

theorem longest {texts : List (List Char)}
    (h : texts.all (fun text => text.all isUnbracketed) = true) : (longest texts).Unbracketed := by
  induction texts with
  | nil => exact nofun
  | cons text others ih =>
      rw [List.all_cons, Bool.and_eq_true] at h
      intro s taken rest hscan
      rcases longest_cases hscan with hmark | hothers
      · exact mark h.1 hmark
      · exact ih h.2 hothers

theorem rawString : rawString.Unbracketed := by
  refine .quoted fun s found hscan => ?_
  unfold Go.rawString at hscan
  split at hscan
  · exact ⟨_, by decide, _, rfl⟩
  · cases hscan

theorem interpretedString : interpretedString.Unbracketed := by
  refine .quoted fun s found hscan => ?_
  unfold Go.interpretedString at hscan
  split at hscan
  · exact ⟨_, by decide, _, rfl⟩
  · cases hscan

theorem runeLiteral : runeLiteral.Unbracketed := by
  refine .quoted fun s found hscan => ?_
  unfold Go.runeLiteral at hscan
  split at hscan
  · exact ⟨_, by decide, _, rfl⟩
  · exact ⟨_, by decide, _, rfl⟩
  · cases hscan

end Scan.Unbracketed

/-! ## Rules -/

/-- A rule that leaves so many brackets open if so many were open before. -/
def Rule.Nests (before after : Nat) (rule : Rule) : Prop :=
  ∀ ⦃s parts rest⦄, rule.Reads s parts rest → ∀ ⦃inner left⦄,
    behindBracket (inner + before) s = some left → behindBracket (inner + after) rest = some left

/-- A rule that opens as many brackets as it closes, and closes only those. -/
abbrev Rule.Balanced (rule : Rule) : Prop := rule.Nests 0 0

namespace Rule.Nests

variable {before middle after : Nat} {first second rule : Rule} {next : List Part → Rule}
  {kind : Kind} {role : Role}

/-- More brackets may be open around a rule. -/
theorem deeper (h : rule.Balanced) : rule.Nests before before := by
  intro s parts rest hread inner left hs
  have hinner : behindBracket (inner + before + 0) s = some left := hs
  exact h hread hinner

theorem nothing : Rule.nothing.Balanced := by
  intro s parts rest hread inner left hs
  cases hread
  exact hs

theorem never : Rule.never.Nests before after := nofun

theorem append (h₁ : first.Nests before middle) (h₂ : second.Nests middle after) :
    (first ++ second).Nests before after := by
  intro s parts rest hread inner left hs
  obtain ⟨a, between, b, hfirst, hsecond, -⟩ := Rule.read_append hread
  exact h₂ hsecond (h₁ hfirst hs)

theorem orElse (h₁ : first.Nests before after) (h₂ : second.Nests before after) :
    (first <|> second).Nests before after := by
  intro s parts rest hread
  rcases Rule.read_orElse hread with hread | hread
  · exact h₁ hread
  · exact h₂ hread

theorem ite {c : Prop} [Decidable c] (h₁ : first.Nests before after)
    (h₂ : second.Nests before after) : (if c then first else second).Nests before after := by
  split
  · exact h₁
  · exact h₂

theorem opt (h : rule.Balanced) : rule.opt.Balanced := h.orElse nothing

theorem andThen (h : rule.Nests before middle) (hnext : ∀ parts, (next parts).Nests middle after) :
    (rule.andThen next).Nests before after := by
  intro s parts rest hread inner left hs
  obtain ⟨a, between, hfirst, hsecond⟩ := Rule.read_andThen hread
  exact hnext a hsecond (h hfirst hs)

theorem yield {parts : List Part} : (Rule.yield parts).Nests before before := by
  intro s parts' rest hread inner left hs
  cases hread
  exact hs

theorem node (h : rule.Nests before after) : (rule.node kind).Nests before after :=
  h.andThen fun _ => yield

theorem as (h : rule.Nests before after) : (rule.as role).Nests before after :=
  h.andThen fun _ => yield

theorem satisfying {test : List Part → Bool} (h : rule.Nests before after) :
    (rule.satisfying test).Nests before after :=
  h.andThen fun _ => ite yield never

/-- What a repeated rule leaves. -/
theorem repeatFrom (h : rule.Balanced) (bound : List Char) {s : List Char} {inner : Nat}
    {left : List Char} (hs : behindBracket inner s = some left) :
    behindBracket inner (rule.repeatFrom bound s).2 = some left := by
  induction bound generalizing s with
  | nil => exact hs
  | cons b bound ih =>
      simp only [Rule.repeatFrom]
      cases hread : rule.read s with
      | none => exact hs
      | some found => exact ih (h hread hs)

theorem many (h : rule.Balanced) : rule.many.Balanced := by
  intro s parts rest hread inner left hs
  have hrest := h.repeatFrom s hs
  rw [Option.some.inj hread] at hrest
  exact hrest

theorem sepBy (h₁ : first.Balanced) (h₂ : second.Balanced) : (first.sepBy second).Balanced :=
  h₁.append (h₂.append h₁).many

/-- What an extended rule leaves. -/
theorem extendFrom {step : List Part → Rule} (hstep : ∀ parts, (step parts).Balanced)
    (bound : List Char) (parts : List Part) {s : List Char} {inner : Nat} {left : List Char}
    (hs : behindBracket inner s = some left) :
    behindBracket inner (Rule.extendFrom step bound parts s).2 = some left := by
  induction bound generalizing parts s with
  | nil => exact hs
  | cons b bound ih =>
      simp only [Rule.extendFrom]
      cases hread : (step parts).read s with
      | none => exact hs
      | some found => exact ih _ (hstep parts hread hs)

theorem extend {step : List Part → Rule} (h : rule.Balanced)
    (hstep : ∀ parts, (step parts).Balanced) : (rule.extend step).Balanced := by
  refine h.andThen fun parts s parts' rest hread inner left hs => ?_
  have hrest := extendFrom hstep s parts hs
  rw [Option.some.inj hread] at hrest
  exact hrest

theorem ahead {test : List Char → Bool} : (Rule.ahead test).Balanced := by
  intro s parts rest hread inner left hs
  simp only [Rule.Reads, Rule.ahead] at hread
  split at hread <;> cases hread
  exact hs

theorem notAhead : (Rule.notAhead rule).Balanced := ahead

theorem onLine {ends : Bool} : (Rule.onLine ends).Balanced := ahead

theorem firstOf {rules : List Rule} (h : ∀ rule ∈ rules, rule.Balanced) :
    (Grammar.firstOf rules).Balanced := by
  induction rules with
  | nil => exact never
  | cons rule others ih => exact (h rule (.head _)).orElse (ih fun r hr => h r (.tail _ hr))

theorem heavier (h₁ : first.Balanced) (h₂ : second.Balanced) :
    (Grammar.heavier first second).Balanced := by
  intro s parts rest hread
  simp only [Rule.Reads, Grammar.heavier] at hread
  split at hread
  case h_1 a b ha hb =>
    split at hread <;> cases hread
    · exact h₂ hb
    · exact h₁ ha
  case h_2 a ha hb =>
    cases hread
    exact h₁ ha
  case h_3 other ha => exact h₂ hread

/-! ### Tokens -/

theorem scanToken {scan : Scan} (h : scan.Unbracketed) : (Rule.scanToken scan).Balanced := by
  intro s parts rest hread inner left hs
  simp only [Rule.Reads, Rule.scanToken, Option.map_eq_some_iff, Prod.mk.injEq] at hread
  obtain ⟨found, hfound, -, rfl⟩ := hread
  exact h hfound (behindBracket_takeGap hs)

theorem scanLeaf {scan : Scan} (h : scan.Unbracketed) : (Rule.scanLeaf kind scan).Balanced := by
  intro s parts rest hread inner left hs
  simp only [Rule.Reads, Rule.scanLeaf, Option.map_eq_some_iff, Prod.mk.injEq] at hread
  obtain ⟨found, hfound, -, rfl⟩ := hread
  exact h hfound (behindBracket_takeGap hs)

theorem token {text : String} (h : text.toList.all isUnbracketed = true) :
    (Rule.token text).Balanced := scanToken (.mark h)

theorem tokenOf {all wanted : List String}
    (h : all.all (fun text => text.toList.all isUnbracketed) = true) :
    (Rule.tokenOf all wanted).Balanced := by
  have hmarks : (all.map String.toList).all (fun text => text.all isUnbracketed) = true := by
    rwa [List.all_map]
  refine scanToken fun s taken rest hscan => ?_
  split at hscan
  · cases hscan
  · split at hscan <;> cases hscan
    exact Scan.Unbracketed.longest hmarks ‹_›

theorem keyword {text : String} : (Rule.keyword text).Balanced := scanToken .wordThat

theorem keywordLeaf {text : String} : (Rule.keywordLeaf kind text).Balanced := scanLeaf .wordThat

theorem name {keywords : List String} : (Rule.name kind keywords).Balanced := scanLeaf .wordThat

theorem terminator : Rule.terminator.Balanced := by
  intro s parts rest hread inner left hs
  have hline : ∀ c, (isSpace c && c != '\n') = true → isSpace c = true := fun _ hc =>
    (Bool.and_eq_true_iff.mp hc).1
  have hgap := behindBracket_gap hline s hs
  simp only [Rule.Reads, Rule.terminator] at hread
  split at hread
  case h_1 gap c more hline =>
    rw [takeLineGap] at hline
    rw [hline] at hgap
    split at hread
    case isTrue hc =>
      cases hread
      refine behindBracket_drop ?_ hgap
      simp only [Bool.or_eq_true, beq_iff_eq] at hc
      rcases hc with (rfl | rfl) | rfl <;> rfl
    case isFalse => cases hread
  case h_2 => cases hread

/-! ### Brackets -/

/-- The text that a mark was read from. -/
theorem takeGap_of_token {text : String} {s rest : List Char} {parts : List Part}
    (h : (Rule.token text).Reads s parts rest) : (takeGap s).2 = text.toList ++ rest := by
  simp only [Rule.Reads, Rule.token, Rule.scanToken, Option.map_eq_some_iff, Prod.mk.injEq] at h
  obtain ⟨⟨taken, left⟩, hfound, -, rfl⟩ := h
  have htaken : taken = text.toList := by
    obtain ⟨left, -, heq⟩ := Option.map_eq_some_iff.mp hfound
    cases heq
    rfl
  rw [← Scan.Takes.mark hfound, htaken]

/-- An opening bracket is one more that is open, -/
theorem openBracket : (Rule.token "[").Nests before (before + 1) := by
  intro s parts rest hread inner left hs
  have hgap := behindBracket_takeGap hs
  rw [takeGap_of_token hread] at hgap
  exact hgap

/-- and a closing one closes it. -/
theorem closeBracket : (Rule.token "]").Nests (before + 1) before := by
  intro s parts rest hread inner left hs
  have hgap := behindBracket_takeGap hs
  rw [takeGap_of_token hread] at hgap
  exact hgap

theorem brackets (h : rule.Balanced) : (Grammar.enclosed "[" rule "]").Balanced :=
  .append (.append openBracket h.deeper) closeBracket

/-- A rule between two other marks. -/
theorem enclosed {first last : String} (h : rule.Balanced)
    (hfirst : first.toList.all isUnbracketed = true)
    (hlast : last.toList.all isUnbracketed = true) :
    (Grammar.enclosed first rule last).Balanced :=
  .append (.append (.token hfirst) h) (.token hlast)

end Rule.Nests

/-- **What is read between brackets ends at the closing one.** -/
theorem Rule.Balanced.enclosed_ends {rule : Rule} (h : rule.Balanced)
    {s gap text left rest : List Char} {parts : List Part}
    (hread : (Grammar.enclosed "[" rule "]").Reads s parts rest)
    (hs : takeGap s = (gap, '[' :: text)) (hclose : behindBracket 0 text = some left) :
    rest = left := by
  obtain ⟨a, middle, b, hfront, hlast, -⟩ := Rule.read_append hread
  obtain ⟨c, inside, d, hopen, hrule, -⟩ := Rule.read_append hfront
  have hinside := Rule.Nests.takeGap_of_token hopen
  rw [hs] at hinside
  obtain rfl : text = inside := (List.cons.inj hinside).2
  have hmiddle := behindBracket_takeGap (h hrule hclose)
  rw [Rule.Nests.takeGap_of_token hlast] at hmiddle
  exact Option.some.inj hmiddle

/-! ## Texts -/

/-- A character of its own: no bracket, no quote and nothing that a comment begins with. -/
def IsOrdinary (c : Char) : Prop := isUnbracketed c = true ∧ c ∉ quotes ∧ c ≠ '/'

instance : DecidablePred IsOrdinary := fun _ => inferInstanceAs (Decidable (_ ∧ _ ∧ _))

theorem IsOrdinary.of_isIdentPart {c : Char} (h : Text.isIdentPart c = true) : IsOrdinary c := by
  refine ⟨isUnbracketed_of_isIdentPart h, fun hmem => ?_, ?_⟩
  · rw [(by decide : ∀ d ∈ quotes, Text.isIdentPart d = false) c hmem] at h
    cases h
  · rintro rfl
    exact absurd h (by decide)

/-- A text in which brackets come in pairs, without quotes and comments. -/
def Paired (text : List Char) : Prop :=
  ∀ inner rest, behindBracket inner (text ++ rest) = behindBracket inner rest

namespace Paired

variable {a b text : List Char} {c : Char}

theorem nil : Paired [] := fun _ _ => rfl

theorem append (ha : Paired a) (hb : Paired b) : Paired (a ++ b) := by
  intro inner rest
  rw [List.append_assoc, ha, hb]

theorem char (hc : IsOrdinary c) : Paired [c] := by
  obtain ⟨hbracket, hquote, hslash⟩ := hc
  intro inner rest
  rw [List.singleton_append, behindBracket_char hbracket, if_neg]
  rw [comment_of_ne hslash]
  rintro (hmem | hsome)
  · exact hquote hmem
  · cases hsome

theorem cons (hc : IsOrdinary c) (h : Paired text) : Paired (c :: text) := (char hc).append h

theorem chars (h : ∀ c ∈ text, IsOrdinary c) : Paired text := by
  induction text with
  | nil => exact nil
  | cons c text ih =>
      rw [List.forall_mem_cons] at h
      exact cons h.1 (ih h.2)

/-- **A text in brackets.** -/
theorem brackets (h : Paired text) : Paired ('[' :: (text ++ [']'])) := by
  intro inner rest
  rw [List.cons_append, List.append_assoc, behindBracket_open, h]
  exact behindBracket_closeInner inner rest

/-- A text in brackets in front of another one. -/
theorem bracketed (ha : Paired a) (hb : Paired b) : Paired ('[' :: (a ++ ']' :: b)) := by
  have h := ha.brackets.append hb
  rwa [List.cons_append, List.append_assoc] at h

theorem word (h : IsWord text) : Paired text := by
  obtain ⟨c, cs, rfl, hc, hcs⟩ := isWord_iff.mp h
  have hfirst : Text.isIdentPart c = true := by rw [Text.isIdentPart, hc, Bool.true_or]
  exact chars (List.forall_mem_cons.mpr ⟨.of_isIdentPart hfirst, fun d hd =>
    .of_isIdentPart (hcs d hd)⟩)

/-- Texts with commas between them. -/
theorem commaSeparated {texts : List (List Char)} (h : ∀ text ∈ texts, Paired text) :
    Paired (commaSeparated texts) := by
  induction texts with
  | nil => exact nil
  | cons text others ih =>
      rw [List.forall_mem_cons] at h
      cases others with
      | nil => exact h.1
      | cons next others => exact h.1.append (cons (by decide) (cons (by decide) (ih h.2)))

theorem closes (h : Paired text) (rest : List Char) :
    behindBracket 0 (text ++ ']' :: rest) = some rest := h 0 (']' :: rest)

end Paired

end FluentBuilder.Go

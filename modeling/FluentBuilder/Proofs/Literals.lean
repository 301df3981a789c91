import Mathlib.Data.List.Forall2
import Mathlib.Data.Nat.Digits.Defs
import Mathlib.Tactic.IntervalCases
import FluentBuilder.Go.Literal

/-!
# Literals — the grammar of string literals and what they stand for

An interpreted literal is a sequence of items between double quotes, each of which stands for one
character; `IsItem` says which texts are items. The reader goes through a text one character at a
time (`Mode.next`): it comes to the end of an item just when it puts out a character, and is then
where it began.

* **`decode_append`** — what the reader has done behind the first part of a text.
* **`run_bounded`** — no number that it builds up needs more than 32 bits.
* **`LiteralItem.eq_of_append`** — a text begins with at most one item.
* **`decode_eq_some_iff`** — what is decoded is a sequence of items.
* **`unquote_grammar`** — the literals, and what each of them stands for.
-/

namespace FluentBuilder.Go

/-! ## Digits -/

/-- The digits in order, letters in lower case. -/
def lowerDigits : List Char := "0123456789abcdef".toList

/-- The digits in order, letters in upper case. -/
def upperDigits : List Char := "0123456789ABCDEF".toList

/-- A character is a digit of a number system, with its value. -/
def IsDigit (base : Nat) (c : Char) (value : Nat) : Prop :=
  value < base ∧ (lowerDigits[value]? = some c ∨ upperDigits[value]? = some c)

/-- Where the digits stand among all characters. -/
theorem digitValue_cases {base : Nat} {c : Char} {value : Nat}
    (h : digitValue base c = some value) :
    value < base ∧ (value < 10 ∧ c.toNat = 0x30 + value ∨
      10 ≤ value ∧ value < 16 ∧ (c.toNat = 0x57 + value ∨ c.toNat = 0x37 + value)) := by
  rw [digitValue] at h
  obtain ⟨hlt, hvalue⟩ := Option.ite_some_none_eq_some.mp h
  simp only [Bool.and_eq_true, decide_eq_true_eq] at hvalue hlt
  split_ifs at hvalue hlt <;> omega

/-- **The value of a digit.** -/
theorem digitValue_eq_some_iff {base : Nat} (hbase : base ≤ 16) {c : Char} {value : Nat} :
    digitValue base c = some value ↔ IsDigit base c value := by
  constructor
  · intro h
    obtain ⟨hlt, hcode⟩ := digitValue_cases h
    refine ⟨hlt, ?_⟩
    rw [← Char.ofNat_toNat c]
    rcases hcode with ⟨hten, hcode⟩ | ⟨hten, hsixteen, hcode | hcode⟩
    · rw [hcode]
      left
      interval_cases value <;> rfl
    · rw [hcode]
      left
      interval_cases value <;> rfl
    · rw [hcode]
      right
      interval_cases value <;> rfl
  · rintro ⟨hlt, hdigit⟩
    have hsixteen : value < 16 := Nat.lt_of_lt_of_le hlt hbase
    rcases hdigit with hdigit | hdigit
    · interval_cases value <;> cases hdigit <;> exact if_pos hlt
    · interval_cases value <;> cases hdigit <;> exact if_pos hlt

/-- The number that digits stand for, the last one counting least. -/
def numberOf (base : Nat) (values : List Nat) : Nat := Nat.ofDigits base values.reverse

theorem numberOf_cons (base value : Nat) (values : List Nat) :
    numberOf base (value :: values) = value * base ^ values.length + numberOf base values := by
  rw [numberOf, List.reverse_cons, Nat.ofDigits_append, Nat.ofDigits_singleton, List.length_reverse,
    Nat.mul_comm, Nat.add_comm]
  rfl

/-- The character with a number. -/
theorem scalar_eq_some_iff {n : Nat} {c : Char} : scalar n = some c ↔ c.toNat = n := by
  rw [scalar, Option.ite_some_none_eq_some]
  constructor
  · rintro ⟨hvalid, rfl⟩
    rw [Char.ofNat, dif_pos hvalid]
    rfl
  · rintro rfl
    exact ⟨c.valid, Char.ofNat_toNat c⟩

theorem numbered_eq_some_iff {base n : Nat} {c : Char} :
    numbered base n = some c ↔ c.toNat = n ∧ (base = 8 → n ≤ 255) := by
  rw [numbered, ← scalar_eq_some_iff]
  by_cases hlarge : base = 8 ∧ 255 < n
  · rw [if_pos (by simpa using hlarge)]
    constructor
    · exact nofun
    · rintro ⟨-, hmax⟩
      exact absurd (hmax hlarge.1) (Nat.not_le_of_lt hlarge.2)
  · rw [if_neg (by simpa using hlarge)]
    refine (and_iff_left ?_).symm
    intro hbase
    exact Nat.le_of_not_lt fun hlt => hlarge ⟨hbase, hlt⟩

/-! ## Items -/

/-- The characters that stand for another one behind a backslash. -/
def escapes : List (Char × Char) :=
  [('a', '\x07'), ('b', '\x08'), ('f', '\x0c'), ('n', '\n'), ('r', '\r'), ('t', '\t'),
    ('v', '\x0b'), ('\\', '\\'), ('"', '"')]

/-- The characters that announce hexadecimal digits behind a backslash, and how many. -/
def hexEscapes : List (Char × Nat) := [('x', 2), ('u', 4), ('U', 8)]

/-- A text that stands for one character in an interpreted literal. -/
inductive IsItem : List Char → Char → Prop where
  | plain {c : Char} (hquote : c ≠ '"') (hbackslash : c ≠ '\\') (hbreak : c ≠ '\n') : IsItem [c] c
  | escape {c d : Char} (h : (c, d) ∈ escapes) : IsItem ['\\', c] d
  | hex {marker : Char} {count : Nat} {digits : List Char} {values : List Nat} {d : Char}
      (hmarker : (marker, count) ∈ hexEscapes) (hcount : digits.length = count)
      (hdigits : List.Forall₂ (IsDigit 16) digits values) (hvalue : d.toNat = numberOf 16 values) :
      IsItem ('\\' :: marker :: digits) d
  | octal {digits : List Char} {values : List Nat} {d : Char} (hcount : digits.length = 3)
      (hdigits : List.Forall₂ (IsDigit 8) digits values) (hvalue : d.toNat = numberOf 8 values)
      (hmax : numberOf 8 values ≤ 255) : IsItem ('\\' :: digits) d

/-- An item of an interpreted literal. -/
structure LiteralItem where
  text  : List Char
  value : Char
  valid : IsItem text value

/-! ## The reader, one character at a time -/

/-- What the reader makes of one more character: what it puts out, and its mode behind it. -/
def Mode.next : Mode → Char → Option (List Char × Mode)
  | .plain, c =>
    if c == '"' || c == '\n' then none
    else if c == '\\' then some ([], .escape)
    else some ([c], .plain)
  | .escape, c =>
    match simpleEscape c with
    | some d => some ([d], .plain)
    | none => (numericEscape c).map ([], ·)
  | .digits base left value, c =>
    match digitValue base c with
    | none => none
    | some d =>
      if left ≤ 1 then (numbered base (value * base + d)).map ([·], .plain)
      else some ([], .digits base (left - 1) (value * base + d))

/-- What a step of the reader can be. -/
inductive Mode.Steps : Mode → Char → List Char → Mode → Prop where
  | plain {c : Char} (hquote : c ≠ '"') (hbackslash : c ≠ '\\') (hbreak : c ≠ '\n') :
      Steps .plain c [c] .plain
  | backslash : Steps .plain '\\' [] .escape
  | escape {c d : Char} (h : (c, d) ∈ escapes) : Steps .escape c [d] .plain
  | hex {c : Char} {count : Nat} (h : (c, count) ∈ hexEscapes) :
      Steps .escape c [] (.digits 16 count 0)
  | octal {c : Char} {value : Nat} (h : digitValue 8 c = some value) :
      Steps .escape c [] (.digits 8 2 value)
  | digit {base left value d : Nat} {c : Char} (hdigit : digitValue base c = some d)
      (hleft : 1 < left) :
      Steps (.digits base left value) c [] (.digits base (left - 1) (value * base + d))
  | last {base left value d : Nat} {c e : Char} (hdigit : digitValue base c = some d)
      (hleft : left ≤ 1) (hnumber : numbered base (value * base + d) = some e) :
      Steps (.digits base left value) c [e] .plain

theorem mem_escapes_of_simpleEscape {c d : Char} (h : simpleEscape c = some d) :
    (c, d) ∈ escapes := by
  rw [simpleEscape.eq_def] at h
  split at h <;> cases h <;> decide

/-- Behind a backslash, digits are announced or begin. -/
theorem numericEscape_cases {c : Char} {mode : Mode} (h : numericEscape c = some mode) :
    (∃ count, (c, count) ∈ hexEscapes ∧ mode = .digits 16 count 0) ∨
      ∃ value, digitValue 8 c = some value ∧ mode = .digits 8 2 value := by
  rw [numericEscape] at h
  simp only [beq_iff_eq] at h
  split_ifs at h with hx hu hU
  · subst hx
    cases h
    exact .inl ⟨2, by decide, rfl⟩
  · subst hu
    cases h
    exact .inl ⟨4, by decide, rfl⟩
  · subst hU
    cases h
    exact .inl ⟨8, by decide, rfl⟩
  · obtain ⟨value, hvalue, rfl⟩ := Option.map_eq_some_iff.mp h
    exact .inr ⟨value, hvalue, rfl⟩

/-- **One step.** -/
theorem Mode.steps_of_next {mode behind : Mode} {c : Char} {out : List Char}
    (h : mode.next c = some (out, behind)) : mode.Steps c out behind := by
  cases mode with
  | plain =>
      rw [Mode.next] at h
      simp only [Bool.or_eq_true, beq_iff_eq] at h
      split_ifs at h with hstop hbackslash
      · subst hbackslash
        cases h
        exact .backslash
      · cases h
        rw [not_or] at hstop
        exact .plain hstop.1 hbackslash hstop.2
  | escape =>
      rw [Mode.next] at h
      cases hsimple : simpleEscape c with
      | some d =>
          rw [hsimple] at h
          cases h
          exact .escape (mem_escapes_of_simpleEscape hsimple)
      | none =>
          rw [hsimple] at h
          obtain ⟨mode, hmode, ⟨⟩⟩ := Option.map_eq_some_iff.mp h
          rcases numericEscape_cases hmode with ⟨count, hcount, rfl⟩ | ⟨value, hvalue, rfl⟩
          · exact .hex hcount
          · exact .octal hvalue
  | digits base left value =>
      rw [Mode.next] at h
      cases hdigit : digitValue base c with
      | none =>
          rw [hdigit] at h
          cases h
      | some d =>
          rw [hdigit] at h
          dsimp only at h
          split_ifs at h with hleft
          · obtain ⟨e, hnumber, ⟨⟩⟩ := Option.map_eq_some_iff.mp h
            exact .last hdigit hleft hnumber
          · cases h
            exact .digit hdigit (Nat.lt_of_not_le hleft)

/-- What the reader makes of a text: what it puts out, and its mode behind the text. -/
def run : Mode → List Char → Option (List Char × Mode)
  | mode, [] => some ([], mode)
  | mode, c :: rest =>
    (mode.next c).bind fun (out, behind) =>
      (run behind rest).map fun (more, last) => (out ++ more, last)

theorem decode_cons (mode : Mode) (c : Char) (rest : List Char) :
    decode mode (c :: rest) =
      (mode.next c).bind fun (out, behind) => (decode behind rest).map (out ++ ·) := by
  cases mode with
  | plain =>
      rw [decode, Mode.next]
      split_ifs <;> simp
  | escape =>
      rw [decode, Mode.next]
      cases simpleEscape c with
      | some d => simp
      | none => cases numericEscape c <;> simp
  | digits base left value =>
      rw [decode, Mode.next]
      cases digitValue base c with
      | none => rfl
      | some d =>
          dsimp only
          split_ifs
          · cases numbered base (value * base + d) <;> simp
          · simp

/-- **Reading on.** The first part of a text brings the reader to a mode, in which it decodes the
    rest. -/
theorem decode_append (mode : Mode) (s rest : List Char) :
    decode mode (s ++ rest) =
      (run mode s).bind fun (out, behind) => (decode behind rest).map (out ++ ·) := by
  induction s generalizing mode with
  | nil => simp [run]
  | cons c s ih =>
      rw [List.cons_append, decode_cons, run]
      cases mode.next c with
      | none => rfl
      | some step =>
          obtain ⟨out, behind⟩ := step
          dsimp only [Option.bind_some]
          rw [ih]
          cases run behind s <;> simp [Function.comp_def]

/-! ## The numbers that the reader builds up -/

/-- A number of so many digits has been built up as far as digits have been read. -/
def Mode.Bounded : Mode → Prop
  | .digits base left value =>
    ∃ count, (base, count) ∈ [(16, 8), (8, 3)] ∧ 0 < left ∧ left ≤ count ∧
      value < base ^ (count - left)
  | _ => True

/-- A number with one more digit. -/
theorem lt_of_digit {base left value count d : Nat} {c : Char} (hleft : 0 < left)
    (hcount : left ≤ count) (hvalue : value < base ^ (count - left))
    (hdigit : digitValue base c = some d) : value * base + d < base ^ (count - (left - 1)) := by
  have hd := (digitValue_cases hdigit).1
  have hstep : count - (left - 1) = count - left + 1 := by omega
  calc value * base + d < value * base + base := Nat.add_lt_add_left hd _
    _ = (value + 1) * base := by rw [Nat.add_mul, Nat.one_mul]
    _ ≤ base ^ (count - left) * base := Nat.mul_le_mul_right base hvalue
    _ = base ^ (count - (left - 1)) := by rw [hstep, Nat.pow_succ]

theorem Mode.Bounded.next {mode behind : Mode} {c : Char} {out : List Char} (h : mode.Bounded)
    (hnext : mode.next c = some (out, behind)) : behind.Bounded := by
  cases Mode.steps_of_next hnext with
  | plain | backslash | escape | last => trivial
  | @hex _ count hmarker =>
      have hcount : 0 < count ∧ count ≤ 8 := by
        have hall : ∀ escape ∈ hexEscapes, 0 < escape.2 ∧ escape.2 ≤ 8 := by decide
        exact hall _ hmarker
      exact ⟨8, by decide, hcount.1, hcount.2, Nat.pow_pos (by decide)⟩
  | octal hvalue => exact ⟨3, by decide, by decide, by decide, (digitValue_cases hvalue).1⟩
  | digit hdigit hleft =>
      obtain ⟨count, hmem, hpos, hcount, hvalue⟩ := h
      exact ⟨count, hmem, by omega, by omega, lt_of_digit hpos hcount hvalue hdigit⟩

/-- **The numbers of the reader stay bounded** behind any text. -/
theorem run_bounded {mode behind : Mode} {s out : List Char} (h : mode.Bounded)
    (hrun : run mode s = some (out, behind)) : behind.Bounded := by
  induction s generalizing mode out with
  | nil =>
      cases hrun
      exact h
  | cons c s ih =>
      rw [run] at hrun
      obtain ⟨⟨first, next⟩, hnext, hrun⟩ := Option.bind_eq_some_iff.mp hrun
      obtain ⟨⟨more, last⟩, hrest, ⟨⟩⟩ := Option.map_eq_some_iff.mp hrun
      exact ih (h.next hnext) hrest

/-- Behind any text, a number with one more digit needs no more than 32 bits. -/
theorem lt_of_run {s out : List Char} {base left value d : Nat} {c : Char}
    (hrun : run .plain s = some (out, .digits base left value))
    (hdigit : digitValue base c = some d) : value * base + d < 2 ^ 32 := by
  have hstart : Mode.plain.Bounded := trivial
  obtain ⟨count, hmem, hpos, hcount, hvalue⟩ := run_bounded hstart hrun
  have hall : ∀ system ∈ [(16, 8), (8, 3)], 0 < system.1 ∧ system.1 ^ system.2 ≤ 2 ^ 32 := by
    decide
  obtain ⟨hbase, hmax⟩ := hall _ hmem
  calc value * base + d < base ^ (count - (left - 1)) := lt_of_digit hpos hcount hvalue hdigit
    _ ≤ base ^ count := Nat.pow_le_pow_right hbase (Nat.sub_le _ _)
    _ ≤ 2 ^ 32 := hmax

/-! ## The reader, one item at a time -/

/-- A step that puts out nothing. -/
theorem run_silent {mode behind : Mode} {c : Char} (h : mode.next c = some ([], behind))
    (rest : List Char) : run mode (c :: rest) = run behind rest := by
  rw [run, h, Option.bind_some]
  dsimp only
  cases run behind rest <;> rfl

/-- A step that ends the text. -/
theorem run_singleton (mode : Mode) (c : Char) : run mode [c] = mode.next c := by
  rw [run]
  cases mode.next c with
  | none => rfl
  | some step => simp [run]

/-- Hexadecimal digits are announced behind a backslash. -/
theorem Mode.next_hex {marker : Char} {count : Nat} (h : (marker, count) ∈ hexEscapes) :
    Mode.escape.next marker = some ([], .digits 16 count 0) := by
  simp only [hexEscapes, List.mem_cons, List.not_mem_nil, or_false, Prod.mk.injEq] at h
  rcases h with ⟨rfl, rfl⟩ | ⟨rfl, rfl⟩ | ⟨rfl, rfl⟩ <;> rfl

/-- Octal digits begin behind a backslash. -/
theorem Mode.next_octal {c : Char} {value : Nat} (h : IsDigit 8 c value) :
    Mode.escape.next c = some ([], .digits 8 2 value) := by
  obtain ⟨hlt, hdigit | hdigit⟩ := h
  · interval_cases value <;> cases hdigit <;> rfl
  · interval_cases value <;> cases hdigit <;> rfl

/-- **Digits** are read as the character with their number. -/
theorem run_digits {base : Nat} (hbase : base ≤ 16) {digits : List Char} {values : List Nat}
    (hdigits : List.Forall₂ (IsDigit base) digits values) (hne : digits ≠ []) (value : Nat) :
    run (.digits base digits.length value) digits =
      (numbered base (value * base ^ digits.length + numberOf base values)).map ([·], .plain) := by
  induction hdigits generalizing value with
  | nil => exact absurd rfl hne
  | @cons c d digits values hc hrest ih =>
      have hd := (digitValue_eq_some_iff hbase).mpr hc
      have hnumber : value * base ^ (c :: digits).length + numberOf base (d :: values) =
          (value * base + d) * base ^ digits.length + numberOf base values := by
        rw [numberOf_cons, ← hrest.length_eq, List.length_cons, Nat.pow_succ]
        ring
      rw [hnumber]
      cases digits with
      | nil =>
          cases hrest
          have hsame : (value * base + d) * base ^ 0 + numberOf base [] = value * base + d := by
            simp [numberOf]
          rw [run_singleton, Mode.next, hd, List.length_nil, hsame]
          exact if_pos (Nat.le_refl 1)
      | cons c' digits =>
          have hnext : (Mode.digits base (c :: c' :: digits).length value).next c =
              some ([], .digits base (c' :: digits).length (value * base + d)) := by
            rw [Mode.next, hd]
            exact if_neg (by simp)
          rw [run_silent hnext, ih (List.cons_ne_nil c' digits)]

/-- **An item** brings the reader back to its plain mode with one character put out. -/
theorem run_item (item : LiteralItem) : run .plain item.text = some ([item.value], .plain) := by
  obtain ⟨text, value, valid⟩ := item
  have hbackslash : Mode.plain.next '\\' = some ([], .escape) := rfl
  cases valid with
  | plain hquote hback hbreak =>
      rw [run_singleton, Mode.next]
      simp [hquote, hback, hbreak]
  | @escape c d h =>
      have hall : ∀ escape ∈ escapes, simpleEscape escape.1 = some escape.2 := by decide
      rw [run_silent hbackslash, run_singleton, Mode.next, hall _ h]
  | @hex marker count digits values _ hmarker hcount hdigits hvalue =>
      have hne : digits ≠ [] := by
        have hpos : ∀ escape ∈ hexEscapes, escape.2 ≠ 0 := by decide
        rintro rfl
        exact hpos _ hmarker hcount.symm
      subst hcount
      have hnumber : numbered 16 (numberOf 16 values) = some value :=
        numbered_eq_some_iff.mpr ⟨hvalue, nofun⟩
      rw [run_silent hbackslash, run_silent (Mode.next_hex hmarker),
        run_digits (by decide) hdigits hne, Nat.zero_mul, Nat.zero_add, hnumber]
      rfl
  | @octal digits values d hcount hdigits hvalue hmax =>
      cases hdigits with
      | nil => cases hcount
      | @cons c first digits values hc hrest =>
          have htwo : digits.length = 2 := Nat.succ.inj hcount
          have hne : digits ≠ [] := List.ne_nil_of_length_eq_add_one htwo
          -- The first digit is there when the number begins.
          rw [numberOf_cons, ← hrest.length_eq] at hvalue hmax
          have hread := run_digits (by decide) hrest hne first
          rw [numbered_eq_some_iff.mpr ⟨hvalue, fun _ => hmax⟩, htwo] at hread
          rw [run_silent hbackslash, run_silent (Mode.next_octal hc), hread]
          rfl

/-- **Items** are decoded one after the other. -/
theorem decode_item (item : LiteralItem) (rest : List Char) :
    decode .plain (item.text ++ rest) = (decode .plain rest).map (item.value :: ·) := by
  rw [decode_append, run_item]
  rfl

theorem decode_items (items : List LiteralItem) (rest : List Char) :
    decode .plain (items.flatMap LiteralItem.text ++ rest) =
      (decode .plain rest).map (items.map LiteralItem.value ++ ·) := by
  induction items with
  | nil => simp
  | cons item items ih =>
      rw [List.flatMap_cons, List.append_assoc, decode_item, ih, Option.map_map]
      rfl

/-- What can be decoded is decoded by a step and by what follows it. -/
theorem exists_step_of_decode {mode : Mode} {c : Char} {s v : List Char}
    (h : decode mode (c :: s) = some v) :
    ∃ out behind w, mode.Steps c out behind ∧ decode behind s = some w ∧ v = out ++ w := by
  rw [decode_cons] at h
  obtain ⟨⟨out, behind⟩, hnext, hrest⟩ := Option.bind_eq_some_iff.mp h
  obtain ⟨w, hw, hv⟩ := Option.map_eq_some_iff.mp hrest
  exact ⟨out, behind, w, Mode.steps_of_next hnext, hw, hv.symm⟩

/-- A text that does not end in the middle of an item stands for a character at least. -/
theorem eq_nil_of_decode {mode : Mode} {s : List Char} (h : decode mode s = some []) :
    s = [] ∧ mode = .plain := by
  induction s generalizing mode with
  | nil =>
      cases mode with
      | plain => exact ⟨rfl, rfl⟩
      | _ => cases h
  | cons c s ih =>
      obtain ⟨out, behind, w, hstep, hw, hv⟩ := exists_step_of_decode h
      obtain ⟨rfl, rfl⟩ := List.append_eq_nil_iff.mp hv.symm
      obtain ⟨-, rfl⟩ := ih hw
      -- A step to the plain mode puts out a character.
      cases hstep

/-- **A text begins with at most one item.** -/
theorem LiteralItem.eq_of_append {item item' : LiteralItem} {rest rest' : List Char}
    (h : item.text ++ rest = item'.text ++ rest') : item = item' := by
  have hfront : ∀ {item item' : LiteralItem} {more : List Char}, item'.text = item.text ++ more →
      item = item' := by
    intro item item' more htext
    have hread := decode_item item' []
    rw [List.append_nil, htext, decode_item] at hread
    obtain ⟨out, hout, hvalue⟩ := Option.map_eq_some_iff.mp hread
    obtain ⟨hvalue, rfl⟩ := List.cons.inj hvalue
    obtain ⟨rfl, -⟩ := eq_nil_of_decode hout
    rw [List.append_nil] at htext
    cases item
    cases item'
    cases htext
    cases hvalue
    rfl
  rcases List.append_eq_append_iff.mp h with ⟨more, htext, -⟩ | ⟨more, htext, -⟩
  · exact hfront htext
  · exact (hfront htext).symm

theorem LiteralItem.text_ne_nil (item : LiteralItem) : item.text ≠ [] := by
  intro hnil
  have hread := run_item item
  rw [hnil] at hread
  cases hread

/-- **The items of a text are unique.** -/
theorem items_unique {items items' : List LiteralItem}
    (h : items.flatMap LiteralItem.text = items'.flatMap LiteralItem.text) : items = items' := by
  induction items generalizing items' with
  | nil =>
      cases items' with
      | nil => rfl
      | cons item rest =>
          rw [List.flatMap_cons] at h
          exact absurd (List.append_eq_nil_iff.mp h.symm).1 item.text_ne_nil
  | cons item items ih =>
      cases items' with
      | nil =>
          rw [List.flatMap_cons] at h
          exact absurd (List.append_eq_nil_iff.mp h).1 item.text_ne_nil
      | cons item' items' =>
          rw [List.flatMap_cons, List.flatMap_cons] at h
          obtain rfl := LiteralItem.eq_of_append h
          rw [ih (List.append_cancel_left h)]

/-- Where digits are awaited, a text that can be decoded begins with them. -/
theorem exists_digits_of_decode {base : Nat} (hbase : base ≤ 16) {left value : Nat}
    (hleft : 0 < left) {s v : List Char} (h : decode (.digits base left value) s = some v) :
    ∃ digits values rest, s = digits ++ rest ∧ digits.length = left ∧
      List.Forall₂ (IsDigit base) digits values := by
  induction s generalizing left value v with
  | nil => cases h
  | cons c s ih =>
      obtain ⟨out, behind, w, hstep, hw, -⟩ := exists_step_of_decode h
      cases hstep with
      | @last _ _ _ d _ _ hdigit hone hnumber =>
          have hd := (digitValue_eq_some_iff hbase).mp hdigit
          have hlength : 1 = left := Nat.le_antisymm hleft hone
          exact ⟨[c], [d], s, rfl, hlength, .cons hd .nil⟩
      | @digit _ _ _ d _ hdigit hmany =>
          have hd := (digitValue_eq_some_iff hbase).mp hdigit
          obtain ⟨digits, values, rest, rfl, hlength, hdigits⟩ := ih (Nat.sub_pos_of_lt hmany) hw
          refine ⟨c :: digits, d :: values, rest, rfl, ?_, .cons hd hdigits⟩
          rw [List.length_cons, hlength, Nat.sub_add_cancel hleft]

/-- **Digits that can be decoded** are those of a character. -/
theorem exists_number_of_decode {base : Nat} (hbase : base ≤ 16) {left value : Nat}
    (hleft : 0 < left) {s v : List Char} (h : decode (.digits base left value) s = some v) :
    ∃ digits values rest c, s = digits ++ rest ∧ digits.length = left ∧
      List.Forall₂ (IsDigit base) digits values ∧
      numbered base (value * base ^ left + numberOf base values) = some c := by
  obtain ⟨digits, values, rest, rfl, rfl, hdigits⟩ := exists_digits_of_decode hbase hleft h
  have hne : digits ≠ [] := List.ne_nil_of_length_pos hleft
  rw [decode_append, run_digits hbase hdigits hne] at h
  obtain ⟨⟨out, behind⟩, hread, -⟩ := Option.bind_eq_some_iff.mp h
  obtain ⟨c, hc, -⟩ := Option.map_eq_some_iff.mp hread
  exact ⟨digits, values, rest, c, rfl, rfl, hdigits, hc⟩

/-- **A text that can be decoded begins with an item.** -/
theorem exists_item_of_decode {s v : List Char} (h : decode .plain s = some v) (hne : s ≠ []) :
    ∃ (item : LiteralItem) (rest : List Char), s = item.text ++ rest := by
  cases s with
  | nil => exact absurd rfl hne
  | cons c s =>
      obtain ⟨out, behind, w, hstep, hw, -⟩ := exists_step_of_decode h
      cases hstep with
      | plain hquote hbackslash hbreak =>
          exact ⟨⟨[c], c, .plain hquote hbackslash hbreak⟩, s, rfl⟩
      | backslash =>
          cases s with
          | nil => cases hw
          | cons c s =>
              obtain ⟨out, behind, w', hstep, hw', -⟩ := exists_step_of_decode hw
              cases hstep with
              | @escape _ d hmem => exact ⟨⟨['\\', c], d, .escape hmem⟩, s, rfl⟩
              | @hex _ count hmarker =>
                  have hpos : ∀ escape ∈ hexEscapes, 0 < escape.2 := by decide
                  obtain ⟨digits, values, rest, d, rfl, hlength, hdigits, hnumber⟩ :=
                    exists_number_of_decode (by decide) (hpos _ hmarker) hw'
                  rw [Nat.zero_mul, Nat.zero_add, numbered_eq_some_iff] at hnumber
                  exact ⟨⟨_, d, .hex hmarker hlength hdigits hnumber.1⟩, rest, rfl⟩
              | @octal _ first hfirst =>
                  obtain ⟨digits, values, rest, d, rfl, hlength, hdigits, hnumber⟩ :=
                    exists_number_of_decode (by decide) Nat.two_pos hw'
                  have hc := (digitValue_eq_some_iff (by decide)).mp hfirst
                  have hall : numberOf 8 (first :: values) = first * 8 ^ 2 + numberOf 8 values := by
                    rw [numberOf_cons, ← hdigits.length_eq, hlength]
                  rw [← hall, numbered_eq_some_iff] at hnumber
                  have hthree : (c :: digits).length = 3 := congrArg Nat.succ hlength
                  exact ⟨⟨_, d, .octal hthree (.cons hc hdigits) hnumber.1 (hnumber.2 rfl)⟩, rest,
                    rfl⟩

/-- **What is decoded is a sequence of items.** -/
theorem decode_eq_some_iff {s v : List Char} :
    decode .plain s = some v ↔
      ∃ items : List LiteralItem,
        s = items.flatMap LiteralItem.text ∧ v = items.map LiteralItem.value := by
  constructor
  · intro h
    -- Items are taken off the front, so the induction is on how long the text is.
    induction hlength : s.length using Nat.strong_induction_on generalizing s v with
    | _ n ih =>
        by_cases hne : s = []
        · subst hne
          cases h
          exact ⟨[], rfl, rfl⟩
        · obtain ⟨item, rest, rfl⟩ := exists_item_of_decode h hne
          rw [decode_item] at h
          obtain ⟨w, hw, rfl⟩ := Option.map_eq_some_iff.mp h
          have hpos := List.length_pos_iff.mpr item.text_ne_nil
          have hshorter : rest.length < n := by
            rw [← hlength, List.length_append]
            omega
          obtain ⟨items, rfl, rfl⟩ := ih rest.length hshorter hw rfl
          exact ⟨item :: items, rfl, rfl⟩
  · rintro ⟨items, rfl, rfl⟩
    have hread := decode_items items []
    rw [List.append_nil] at hread
    rw [hread]
    simp [decode]

/-! ## Literals -/

/-- What a literal stands for: all of a raw one but its carriage returns, and the characters of the
items of an interpreted one. -/
inductive Denotes : List Char → List Char → Prop where
  | raw (inner : List Char) :
      Denotes ('\x60' :: inner ++ ['\x60']) (inner.filter (· != '\r'))
  | interpreted (items : List LiteralItem) :
      Denotes ('"' :: items.flatMap LiteralItem.text ++ ['"']) (items.map LiteralItem.value)

/-- What stands between two quotes, of which none is both the first and the last one. -/
theorem between_eq_some_iff {quote : Char} {s inner : List Char} :
    between quote s = some inner ↔ s = quote :: inner ++ [quote] := by
  cases s with
  | nil => exact ⟨nofun, nofun⟩
  | cons c rest =>
      rw [between, Option.ite_some_none_eq_some, Bool.and_eq_true, beq_iff_eq, beq_iff_eq]
      constructor
      · rintro ⟨⟨rfl, hlast⟩, rfl⟩
        rw [List.cons_append, List.dropLast_append_getLast? _ hlast]
      · intro heq
        obtain ⟨rfl, rfl⟩ := List.cons.inj heq
        exact ⟨⟨rfl, List.getLast?_concat⟩, List.dropLast_concat⟩

/-- **Literals are what can be unquoted.** -/
theorem unquoteChars_eq_some_iff {s v : List Char} : unquoteChars s = some v ↔ Denotes s v := by
  constructor
  · intro h
    rw [unquoteChars] at h
    cases hraw : between '\x60' s with
    | some inner =>
        rw [hraw] at h
        cases h
        rw [between_eq_some_iff.mp hraw]
        exact .raw inner
    | none =>
        rw [hraw] at h
        cases hbody : between '"' s with
        | none =>
            rw [hbody] at h
            cases h
        | some body =>
            rw [hbody] at h
            obtain ⟨items, rfl, rfl⟩ := decode_eq_some_iff.mp h
            rw [between_eq_some_iff.mp hbody]
            exact .interpreted items
  · intro h
    cases h with
    | raw inner => rw [unquoteChars, between_eq_some_iff.mpr rfl]
    | interpreted items =>
        have hraw : between '\x60' ('"' :: items.flatMap LiteralItem.text ++ ['"']) = none := rfl
        rw [unquoteChars, hraw, between_eq_some_iff.mpr rfl]
        exact decode_eq_some_iff.mpr ⟨items, rfl, rfl⟩

theorem unquote_eq_some_iff {literal text : String} :
    unquote literal = some text ↔ Denotes literal.toList text.toList := by
  rw [unquote, ← unquoteChars_eq_some_iff, Option.map_eq_some_iff]
  constructor
  · rintro ⟨v, hv, rfl⟩
    rw [hv, String.toList_ofList]
  · intro h
    exact ⟨text.toList, h, String.ofList_toList⟩

/-- **The grammar of string literals.** A text is unquoted if it is a literal, to what it stands
    for, and nothing else is. The items of an interpreted literal are unique. While one is read,
    any first part of it brings the reader to a mode in which it decodes the rest, and a number
    that has been built up there needs no more than 32 bits with one more digit. -/
theorem unquote_grammar :
    (∀ literal text : String,
      unquote literal = some text ↔ Denotes literal.toList text.toList) ∧
    (∀ literal : String,
      unquote literal = none ↔ ∀ text : String, ¬ Denotes literal.toList text.toList) ∧
    (∀ items items' : List LiteralItem,
      items.flatMap LiteralItem.text = items'.flatMap LiteralItem.text → items = items') ∧
    (∀ s rest : List Char, decode .plain (s ++ rest) =
      (run .plain s).bind fun (out, behind) => (decode behind rest).map (out ++ ·)) ∧
    ∀ (s out : List Char) (base left value d : Nat) (c : Char),
      run .plain s = some (out, .digits base left value) → digitValue base c = some d →
        value * base + d < 2 ^ 32 := by
  refine ⟨fun _ _ => unquote_eq_some_iff, fun literal => ?_, fun _ _ => items_unique,
    decode_append .plain, fun _ _ _ _ _ _ _ => lt_of_run⟩
  rw [Option.eq_none_iff_forall_ne_some]
  exact forall_congr' fun text => not_congr unquote_eq_some_iff

end FluentBuilder.Go

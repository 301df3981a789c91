import FluentBuilder.Proofs.Literals
import FluentBuilder.Proofs.Tags

/-!
# Byte escapes — what a literal stands for in the language, and what is read instead

In the language a string is a sequence of bytes. A character of a literal adds the bytes of its
encoding, and so do most escapes; but two hexadecimal or three octal digits behind a backslash add
one byte, so that several of them may spell a character together. The reader takes each such byte
for the character with its number. Below 128 this is the same.

* **`AddsBytes`** — the pieces of an interpreted literal with the bytes that they add.
* **`HasValue`** — the literals of the language with their values.
* **`exists_items`** and **`exists_pieces`** — the reader goes through the pieces of a literal.
* **`unquote_bytes`** — the bytes that are read, and the texts that are refused.
-/

namespace FluentBuilder.Go

/-! ## The literals of the language -/

/-- The bytes of a text. -/
def bytesOf (s : List Char) : List UInt8 := s.flatMap String.utf8EncodeChar

/-- The characters that announce the number of a character behind a backslash, and how many digits
    it has. -/
def codePointEscapes : List (Char × Nat) := [('u', 4), ('U', 8)]

/-- A piece of an interpreted literal and the bytes that it adds to the value. -/
inductive AddsBytes : List Char → List UInt8 → Prop where
  | plain {c : Char} (hquote : c ≠ '"') (hbackslash : c ≠ '\\') (hbreak : c ≠ '\n') :
      AddsBytes [c] (String.utf8EncodeChar c)
  | escape {c d : Char} (h : (c, d) ∈ escapes) : AddsBytes ['\\', c] (String.utf8EncodeChar d)
  | codePoint {marker : Char} {count : Nat} {digits : List Char} {values : List Nat} {d : Char}
      (hmarker : (marker, count) ∈ codePointEscapes) (hcount : digits.length = count)
      (hdigits : List.Forall₂ (IsDigit 16) digits values) (hvalue : d.toNat = numberOf 16 values) :
      AddsBytes ('\\' :: marker :: digits) (String.utf8EncodeChar d)
  | hexByte {digits : List Char} {values : List Nat} {b : UInt8} (hcount : digits.length = 2)
      (hdigits : List.Forall₂ (IsDigit 16) digits values) (hvalue : b.toNat = numberOf 16 values) :
      AddsBytes ('\\' :: 'x' :: digits) [b]
  | octalByte {digits : List Char} {values : List Nat} {b : UInt8} (hcount : digits.length = 3)
      (hdigits : List.Forall₂ (IsDigit 8) digits values) (hvalue : b.toNat = numberOf 8 values) :
      AddsBytes ('\\' :: digits) [b]

/-- A piece of an interpreted literal. -/
structure LiteralPiece where
  text  : List Char
  bytes : List UInt8
  valid : AddsBytes text bytes

/-- A string literal of the language and its value. A raw one holds no back quote, and its carriage
    returns do not count. -/
inductive HasValue : List Char → List UInt8 → Prop where
  | raw {inner : List Char} (h : '\x60' ∉ inner) :
      HasValue ('\x60' :: inner ++ ['\x60']) (bytesOf (inner.filter (· != '\r')))
  | interpreted (pieces : List LiteralPiece) :
      HasValue ('"' :: pieces.flatMap LiteralPiece.text ++ ['"'])
        (pieces.flatMap LiteralPiece.bytes)

/-! ## Bytes taken for characters -/

/-- What the reader makes of the bytes of a piece: a byte that stands alone is taken for the
    character with its number. -/
def taken : List UInt8 → List UInt8
  | [b] => String.utf8EncodeChar (Char.ofUInt8 b)
  | bytes => bytes

/-- The bytes of a character are taken for what they are. -/
theorem taken_utf8EncodeChar (c : Char) :
    taken (String.utf8EncodeChar c) = String.utf8EncodeChar c := by
  rcases Nat.lt_or_ge 0x7f c.toNat with hhigh | hlow
  · have hlength : (String.utf8EncodeChar c).length ≠ 1 := by
      rw [String.length_utf8EncodeChar, Ne, Char.utf8Size_eq_one_iff]
      exact Nat.not_le_of_lt hhigh
    rw [taken]
    rintro b hb
    rw [hb] at hlength
    exact hlength rfl
  · rw [Tag.utf8EncodeChar_of_le hlow]
    have hsame : Char.ofUInt8 (UInt8.ofNat c.toNat) = c := by
      rw [← Char.toNat_inj]
      exact UInt8.toNat_ofNat_of_lt' (Nat.lt_of_le_of_lt hlow (by decide))
    rw [taken, hsame, Tag.utf8EncodeChar_of_le hlow]

/-- **Which bytes are taken for what they are**: all but one alone beyond the first 128. -/
theorem taken_eq_self_iff {bytes : List UInt8} :
    taken bytes = bytes ↔ ∀ b, bytes = [b] → b < 0x80 := by
  match bytes with
  | [] => exact ⟨fun _ => nofun, fun _ => rfl⟩
  | [b] =>
      have hnumber : (Char.ofUInt8 b).toNat = b.toNat := rfl
      rw [taken]
      constructor
      · rintro hsame _ ⟨⟩
        have hlength := congrArg List.length hsame
        rw [String.length_utf8EncodeChar, List.length_singleton,
          Char.utf8Size_eq_one_iff] at hlength
        exact UInt8.lt_iff_toNat_lt.mpr (Nat.lt_succ_of_le hlength)
      · intro hlow
        have hlow : b.toNat ≤ 0x7f := Nat.le_of_lt_succ (UInt8.lt_iff_toNat_lt.mp (hlow b rfl))
        rw [Tag.utf8EncodeChar_of_le (hnumber ▸ hlow), hnumber, UInt8.ofNat_toNat]
  | _ :: _ :: _ => exact ⟨fun _ => nofun, fun _ => rfl⟩

/-- No byte is lost. -/
theorem length_le_taken (bytes : List UInt8) : bytes.length ≤ (taken bytes).length := by
  match bytes with
  | [] => exact Nat.le_refl 0
  | [b] =>
      rw [taken, String.length_utf8EncodeChar]
      exact Char.utf8Size_pos _
  | _ :: _ :: _ => exact Nat.le_refl _

/-- **When the value is read**: each piece has to be taken for what it is, since the bytes of one
    cannot make up for those of another. -/
theorem flatMap_taken_eq_iff {pieces : List LiteralPiece} :
    pieces.flatMap (fun piece => taken piece.bytes) = pieces.flatMap LiteralPiece.bytes ↔
      ∀ piece ∈ pieces, ∀ b, piece.bytes = [b] → b < 0x80 := by
  have hlonger : ∀ pieces : List LiteralPiece, (pieces.flatMap LiteralPiece.bytes).length ≤
      (pieces.flatMap fun piece => taken piece.bytes).length := by
    intro pieces
    induction pieces with
    | nil => exact Nat.le_refl 0
    | cons piece rest ih =>
        rw [List.flatMap_cons, List.flatMap_cons, List.length_append, List.length_append]
        exact Nat.add_le_add (length_le_taken piece.bytes) ih
  induction pieces with
  | nil => exact ⟨fun _ => nofun, fun _ => rfl⟩
  | cons piece rest ih =>
      rw [List.forall_mem_cons, List.flatMap_cons, List.flatMap_cons]
      constructor
      · intro hsame
        -- no side is longer in front, and none behind, so both are cut at the same place
        have hlength := congrArg List.length hsame
        rw [List.length_append, List.length_append] at hlength
        have hpiece := length_le_taken piece.bytes
        have hrest := hlonger rest
        obtain ⟨hfirst, hothers⟩ := List.append_inj hsame (by omega)
        exact ⟨taken_eq_self_iff.mp hfirst, ih.mp hothers⟩
      · rintro ⟨hfirst, hothers⟩
        rw [taken_eq_self_iff.mpr hfirst, ih.mpr hothers]

/-! ## Pieces and items -/

theorem codePointEscapes_subset : codePointEscapes ⊆ hexEscapes := by
  decide

/-- A piece is an item, and the reader takes its bytes for a character. -/
theorem LiteralPiece.exists_item (piece : LiteralPiece) :
    ∃ item : LiteralItem, item.text = piece.text ∧
      String.utf8EncodeChar item.value = taken piece.bytes := by
  obtain ⟨text, bytes, valid⟩ := piece
  cases valid with
  | @plain c hquote hbackslash hbreak =>
      exact ⟨⟨[c], c, .plain hquote hbackslash hbreak⟩, rfl, (taken_utf8EncodeChar c).symm⟩
  | @escape c d h => exact ⟨⟨['\\', c], d, .escape h⟩, rfl, (taken_utf8EncodeChar d).symm⟩
  | @codePoint _ _ _ _ d hmarker hcount hdigits hvalue =>
      have hitem := IsItem.hex (codePointEscapes_subset hmarker) hcount hdigits hvalue
      exact ⟨⟨_, d, hitem⟩, rfl, (taken_utf8EncodeChar d).symm⟩
  | @hexByte _ _ b hcount hdigits hvalue =>
      have hvalue : (Char.ofUInt8 b).toNat = numberOf 16 _ := hvalue
      exact ⟨⟨_, _, .hex (by decide) hcount hdigits hvalue⟩, rfl, rfl⟩
  | @octalByte _ _ b hcount hdigits hvalue =>
      have hmax := Nat.le_of_lt_succ (hvalue ▸ b.toNat_lt)
      have hvalue : (Char.ofUInt8 b).toNat = numberOf 8 _ := hvalue
      exact ⟨⟨_, _, .octal hcount hdigits hvalue hmax⟩, rfl, rfl⟩

/-- Two hexadecimal digits have a number below 256. -/
theorem numberOf_lt {digits : List Char} {values : List Nat} (hcount : digits.length = 2)
    (hdigits : List.Forall₂ (IsDigit 16) digits values) : numberOf 16 values < 256 := by
  have hsmall : ∀ value ∈ values, value < 16 := by
    clear hcount
    induction hdigits with
    | nil => exact nofun
    | cons hdigit _ ih => exact List.forall_mem_cons.mpr ⟨hdigit.1, ih⟩
  have hlt : numberOf 16 values < 16 ^ values.reverse.length :=
    Nat.ofDigits_lt_base_pow_length (by decide) fun value hmem =>
      hsmall value (List.mem_reverse.mp hmem)
  rw [List.length_reverse, ← hdigits.length_eq, hcount] at hlt
  exact hlt

/-- **An item is a piece** of the language. -/
theorem LiteralItem.exists_piece (item : LiteralItem) :
    ∃ piece : LiteralPiece, piece.text = item.text := by
  obtain ⟨text, value, valid⟩ := item
  cases valid with
  | plain hquote hbackslash hbreak => exact ⟨⟨_, _, .plain hquote hbackslash hbreak⟩, rfl⟩
  | escape h => exact ⟨⟨_, _, .escape h⟩, rfl⟩
  | @hex marker count digits values d hmarker hcount hdigits hvalue =>
      by_cases hpoint : (marker, count) ∈ codePointEscapes
      · exact ⟨⟨_, _, .codePoint hpoint hcount hdigits hvalue⟩, rfl⟩
      · -- the only other marker with hexadecimal digits is that of a byte
        have hall : ∀ escape ∈ hexEscapes, escape ∉ codePointEscapes → escape = ('x', 2) := by
          decide
        obtain ⟨rfl, rfl⟩ := Prod.mk.inj (hall _ hmarker hpoint)
        have hbyte := UInt8.toNat_ofNat_of_lt' (numberOf_lt hcount hdigits)
        exact ⟨⟨_, _, .hexByte hcount hdigits hbyte⟩, rfl⟩
  | octal hcount hdigits hvalue hmax =>
      have hbyte := UInt8.toNat_ofNat_of_lt' (Nat.lt_succ_of_le hmax)
      exact ⟨⟨_, _, .octalByte hcount hdigits hbyte⟩, rfl⟩

/-- **The reader goes through the pieces of a literal**, one item for each. -/
theorem exists_items (pieces : List LiteralPiece) :
    ∃ items : List LiteralItem,
      items.flatMap LiteralItem.text = pieces.flatMap LiteralPiece.text ∧
      bytesOf (items.map LiteralItem.value) = pieces.flatMap fun piece => taken piece.bytes := by
  induction pieces with
  | nil => exact ⟨[], rfl, rfl⟩
  | cons piece rest ih =>
      obtain ⟨item, htext, hvalue⟩ := piece.exists_item
      obtain ⟨items, htexts, hvalues⟩ := ih
      refine ⟨item :: items, ?_, ?_⟩
      · rw [List.flatMap_cons, List.flatMap_cons, htext, htexts]
      · rw [bytesOf, List.map_cons, List.flatMap_cons, List.flatMap_cons, hvalue, ← hvalues,
          bytesOf]

/-- The items that the reader goes through are the pieces of a literal. -/
theorem exists_pieces (items : List LiteralItem) :
    ∃ pieces : List LiteralPiece,
      pieces.flatMap LiteralPiece.text = items.flatMap LiteralItem.text := by
  induction items with
  | nil => exact ⟨[], rfl⟩
  | cons item rest ih =>
      obtain ⟨piece, htext⟩ := item.exists_piece
      obtain ⟨pieces, htexts⟩ := ih
      exact ⟨piece :: pieces, by rw [List.flatMap_cons, List.flatMap_cons, htext, htexts]⟩

/-! ## Literals -/

/-- A literal of the language stands for something. -/
theorem HasValue.denotes {s : List Char} {bytes : List UInt8} (h : HasValue s bytes) :
    ∃ v, Denotes s v := by
  cases h with
  | raw _ => exact ⟨_, .raw _⟩
  | interpreted pieces =>
      obtain ⟨items, htexts, -⟩ := exists_items pieces
      rw [← htexts]
      exact ⟨_, .interpreted items⟩

/-- What stands for something and is no raw text is a literal of the language. -/
theorem HasValue.of_denotes {s v : List Char} (h : Denotes s v)
    (hraw : ∀ inner, s ≠ '\x60' :: inner ++ ['\x60']) : ∃ bytes, HasValue s bytes := by
  cases h with
  | raw inner => exact absurd rfl (hraw inner)
  | interpreted items =>
      obtain ⟨pieces, htexts⟩ := exists_pieces items
      rw [← htexts]
      exact ⟨_, .interpreted pieces⟩

/-- What is refused stands for nothing. -/
theorem unquote_eq_none_iff {literal : String} :
    unquote literal = none ↔ ∀ v, ¬ Denotes literal.toList v := by
  rw [unquote, Option.map_eq_none_iff, Option.eq_none_iff_forall_ne_some]
  exact forall_congr' fun v => not_congr unquoteChars_eq_some_iff

/-- **The bytes of literals.** Between back quotes, all characters are read but the carriage
    returns. An interpreted literal of the language is always read, with each byte that an escape
    stands for taken for the character with its number; so its value is read if and only if these
    bytes are all below 128. Refused is what is no literal of the language, unless it stands between
    back quotes: there a back quote is read as well. -/
theorem unquote_bytes (literal : String) :
    (∀ inner : List Char, literal.toList = '\x60' :: inner ++ ['\x60'] →
      ∃ text, unquote literal = some text ∧
        bytesOf text.toList = bytesOf (inner.filter (· != '\r'))) ∧
    (∀ pieces : List LiteralPiece,
      literal.toList = '"' :: pieces.flatMap LiteralPiece.text ++ ['"'] →
        ∃ text, unquote literal = some text ∧
          bytesOf text.toList = pieces.flatMap (fun piece => taken piece.bytes) ∧
          (bytesOf text.toList = pieces.flatMap LiteralPiece.bytes ↔
            ∀ piece ∈ pieces, ∀ b, piece.bytes = [b] → b < 0x80)) ∧
    (unquote literal = none ↔
      (∀ bytes, ¬ HasValue literal.toList bytes) ∧
        ∀ inner, literal.toList ≠ '\x60' :: inner ++ ['\x60']) := by
  refine ⟨?raw, ?interpreted, ?refused⟩
  case raw =>
    intro inner hliteral
    refine ⟨String.ofList (inner.filter (· != '\r')), ?_, by rw [String.toList_ofList]⟩
    rw [unquote_eq_some_iff, hliteral, String.toList_ofList]
    exact .raw inner
  case interpreted =>
    intro pieces hliteral
    obtain ⟨items, htexts, hvalues⟩ := exists_items pieces
    refine ⟨String.ofList (items.map LiteralItem.value), ?_, ?_, ?_⟩
    · rw [unquote_eq_some_iff, hliteral, String.toList_ofList, ← htexts]
      exact .interpreted items
    · rw [String.toList_ofList, hvalues]
    · rw [String.toList_ofList, hvalues, flatMap_taken_eq_iff]
  case refused =>
    rw [unquote_eq_none_iff]
    constructor
    · intro hnone
      refine ⟨fun bytes hvalue => ?_, fun inner hraw => ?_⟩
      · obtain ⟨v, hv⟩ := hvalue.denotes
        exact hnone v hv
      · rw [hraw] at hnone
        exact hnone _ (.raw inner)
    · rintro ⟨hvalue, hraw⟩ v hv
      obtain ⟨bytes, hbytes⟩ := HasValue.of_denotes hv hraw
      exact hvalue bytes hbytes

/-- Two hexadecimal digits behind a backslash, as a piece. -/
def hexPiece (high low : Char) (values : List Nat) (b : UInt8)
    (hdigits : List.Forall₂ (IsDigit 16) [high, low] values)
    (hvalue : b.toNat = numberOf 16 values) : LiteralPiece :=
  ⟨['\\', 'x', high, low], [b], .hexByte rfl hdigits hvalue⟩

/-- The two bytes of a character, each as an escape. -/
def escapedPieces : List LiteralPiece :=
  have hdigit : ∀ {c : Char} {value : Nat}, digitValue 16 c = some value → IsDigit 16 c value :=
    (digitValue_eq_some_iff (Nat.le_refl 16)).mp
  [hexPiece 'c' '3' [12, 3] 0xc3 (.cons (hdigit rfl) (.cons (hdigit rfl) .nil)) rfl,
    hexPiece 'a' '9' [10, 9] 0xa9 (.cons (hdigit rfl) (.cons (hdigit rfl) .nil)) rfl]

/-- `unquote_bytes` for the two bytes of `é`, each as an escape: four bytes are read. -/
theorem unquote_bytes_escaped :
    ∃ text, unquote "\"\\xc3\\xa9\"" = some text ∧
      bytesOf text.toList = [0xc3, 0x83, 0xc2, 0xa9] ∧ bytesOf text.toList ≠ [0xc3, 0xa9] := by
  obtain ⟨-, hinterpreted, -⟩ := unquote_bytes "\"\\xc3\\xa9\""
  obtain ⟨text, hread, hbytes, hsame⟩ := hinterpreted escapedPieces (by decide)
  refine ⟨text, hread, hbytes, fun hvalue => ?_⟩
  exact absurd (hsame.mp hvalue _ List.mem_cons_self 0xc3 rfl) (by decide)

/-- **A literal that is read as another text**, and a text that is read without being a literal: two
    byte escapes that spell `é`, and a back quote between back quotes. -/
theorem unquote_splits_character :
    HasValue "\"\\xc3\\xa9\"".toList (bytesOf "é".toList) ∧
      unquote "\"\\xc3\\xa9\"" = some "Ã©" ∧
      (∀ bytes, ¬ HasValue "\x60a\x60b\x60".toList bytes) ∧
      unquote "\x60a\x60b\x60" = some "a\x60b" := by
  refine ⟨.interpreted escapedPieces, by decide, fun bytes hvalue => ?_, by decide⟩
  generalize hs : "\x60a\x60b\x60".toList = s at hvalue
  cases hvalue with
  | @raw inner hinner =>
      have hinside : ['a', '\x60', 'b'] ++ ['\x60'] = inner ++ ['\x60'] := (List.cons.inj hs).2
      have hbody : inner = ['a', '\x60', 'b'] := (List.append_cancel_right hinside).symm
      rw [hbody] at hinner
      exact hinner (by decide)
  | interpreted pieces => cases hs

end FluentBuilder.Go

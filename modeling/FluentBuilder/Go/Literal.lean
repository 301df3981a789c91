/-!
# Go string literals — the text that a literal stands for

`unquote` decodes a raw literal, between back quotes, or an interpreted one, between double
quotes. It reads an interpreted literal character by character: `Mode` says what the next
character belongs to. Every escape stands for one character, also the ones written as a number.
-/

namespace FluentBuilder.Go

/-- The value of a digit of a number system with at most sixteen digits. -/
def digitValue (base : Nat) (c : Char) : Option Nat :=
  let n := c.toNat
  let value :=
    if 0x30 ≤ n && n ≤ 0x39 then n - 0x30
    else if 0x61 ≤ n && n ≤ 0x66 then n - 0x61 + 10
    else if 0x41 ≤ n && n ≤ 0x46 then n - 0x41 + 10
    else base
  if value < base then some value else none

/-- The character with a code point, if there is one. -/
def scalar (n : Nat) : Option Char :=
  if n.isValidChar then some (Char.ofNat n) else none

/-- What the next character of an interpreted literal belongs to. -/
inductive Mode where
  | plain
  | escape
  | digits (base left value : Nat)

/-- The escapes of one character after the backslash. -/
def simpleEscape : Char → Option Char
  | 'a' => some '\x07'
  | 'b' => some '\x08'
  | 'f' => some '\x0c'
  | 'n' => some '\n'
  | 'r' => some '\r'
  | 't' => some '\t'
  | 'v' => some '\x0b'
  | '\\' => some '\\'
  | '"' => some '"'
  | _ => none

/-- The escapes that announce digits: the mode in which their digits are read. -/
def numericEscape (c : Char) : Option Mode :=
  if c == 'x' then some (.digits 16 2 0)
  else if c == 'u' then some (.digits 16 4 0)
  else if c == 'U' then some (.digits 16 8 0)
  else (digitValue 8 c).map (.digits 8 2)

/-- The character that a finished number stands for; an octal one ends at 255. -/
def numbered (base value : Nat) : Option Char :=
  if base == 8 && 255 < value then none else scalar value

/-- Decode the inside of an interpreted literal. -/
def decode : Mode → List Char → Option (List Char)
  | .plain, [] => some []
  | .plain, c :: rest =>
    if c == '"' || c == '\n' then none
    else if c == '\\' then decode .escape rest
    else (decode .plain rest).map (c :: ·)
  | .escape, [] => none
  | .escape, c :: rest =>
    match simpleEscape c with
    | some d => (decode .plain rest).map (d :: ·)
    | none =>
      match numericEscape c with
      | some mode => decode mode rest
      | none => none
  | .digits _ _ _, [] => none
  | .digits base left value, c :: rest =>
    match digitValue base c with
    | none => none
    | some d =>
      if left ≤ 1 then
        match numbered base (value * base + d) with
        | none => none
        | some e => (decode .plain rest).map (e :: ·)
      else decode (.digits base (left - 1) (value * base + d)) rest

/-- The inside of a text that begins and ends with the same quote, which it has twice. -/
def between (quote : Char) : List Char → Option (List Char)
  | [] => none
  | c :: rest =>
    if c == quote && rest.getLast? == some quote then some rest.dropLast else none

/-- The text that the characters of a literal stand for. -/
def unquoteChars (cs : List Char) : Option (List Char) :=
  match between '\x60' cs with
  | some raw => some (raw.filter (· != '\r'))
  | none =>
    match between '"' cs with
    | some body => decode .plain body
    | none => none

/-- The text that a string literal stands for, or nothing if the text is no literal. -/
def unquote (literal : String) : Option String :=
  (unquoteChars literal.toList).map String.ofList

end FluentBuilder.Go

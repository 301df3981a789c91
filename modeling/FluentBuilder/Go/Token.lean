import FluentBuilder.Go.Literal
import FluentBuilder.Text.Identifier

/-!
# Tokens — gaps, words and literals at the front of a text

Each reader of this file takes characters from the front of a text and gives back what it took
and what is left, or nothing where the text does not start with such a token. A reader takes as
much as it can. `takeGap` takes white space and comments; a comment that does not end is no
comment, and neither is white space other than that of ASCII.
-/

namespace FluentBuilder.Go

/-- A reader of one token: what it took from the front of a text, and the rest. -/
abbrev Scan := List Char → Option (List Char × List Char)

/-! ## Gaps -/

/-- Decide whether a character separates tokens. -/
def isSpace (c : Char) : Bool :=
  c == ' ' || c == '\t' || c == '\n' || c == '\r' || c == '\x0c' || c == '\x0b'

/-- The rest of a comment behind its opening mark, up to the first closing mark. -/
def blockComment : Scan
  | [] => none
  | '*' :: '/' :: rest => some (['*', '/'], rest)
  | c :: rest => (blockComment rest).map fun (taken, left) => (c :: taken, left)

/-- A comment at the front of a text. -/
def comment : Scan
  | '/' :: '/' :: rest =>
    some ('/' :: '/' :: rest.takeWhile (· != '\n'), rest.dropWhile (· != '\n'))
  | '/' :: '*' :: rest =>
    (blockComment rest).map fun (taken, left) => ('/' :: '*' :: taken, left)
  | _ => none

/-- Take white space that satisfies a test, and comments; at most one piece for each character of
`bound`. -/
def takeGapWith (test : Char → Bool) (bound : List Char) (s : List Char) :
    List Char × List Char :=
  match bound, s with
  | _ :: bound, c :: rest =>
    if test c then
      let (taken, left) := takeGapWith test bound rest
      (c :: taken, left)
    else match comment (c :: rest) with
      | none => ([], c :: rest)
      | some (text, after) =>
        let (taken, left) := takeGapWith test bound after
        (text ++ taken, left)
  | _, s => ([], s)

/-- Take all white space and comments. -/
def takeGap (s : List Char) : List Char × List Char := takeGapWith isSpace s s

/-- Take white space and comments up to the next line break outside of comments. -/
def takeLineGap (s : List Char) : List Char × List Char :=
  takeGapWith (fun c => isSpace c && c != '\n') s s

/-- Decide whether a line break stands before the next token. -/
def breakAhead (s : List Char) : Bool := (takeLineGap s).2.head? == some '\n'

/-! ## Words and marks -/

/-- An identifier or a keyword. -/
def word : Scan
  | [] => none
  | c :: rest =>
    if Text.isIdentStart c then
      some (c :: rest.takeWhile Text.isIdentPart, rest.dropWhile Text.isIdentPart)
    else none

/-- What is left of a text behind the characters that it has to start with. -/
def dropExact : List Char → List Char → Option (List Char)
  | [], s => some s
  | _ :: _, [] => none
  | c :: cs, d :: s => if c == d then dropExact cs s else none

/-- A mark: exactly the given characters. -/
def mark (text : List Char) : Scan := fun s => (dropExact text s).map fun rest => (text, rest)

/-- The longest of several marks at the front of a text. -/
def longest : List (List Char) → Scan
  | [], _ => none
  | text :: others, s =>
    match mark text s, longest others s with
    | none, best => best
    | some found, none => some found
    | some found, some best =>
      if best.1.length < found.1.length then some found else some best

/-! ## Numbers -/

/-- One scan behind the other. -/
def Scan.seq (first second : Scan) : Scan := fun s =>
  match first s with
  | none => none
  | some (a, rest) => (second rest).map fun (b, left) => (a ++ b, left)

/-- A scan or, where it fails, nothing at all. -/
def Scan.opt (scan : Scan) : Scan := fun s => some ((scan s).getD ([], s))

/-- The longer result of two scans. -/
def Scan.longer (first second : Scan) : Scan := fun s =>
  match first s, second s with
  | none, other => other
  | one, none => one
  | some a, some b => if a.1.length < b.1.length then some b else some a

/-- One character of a set. -/
def oneOf (test : Char → Bool) : Scan
  | [] => none
  | c :: rest => if test c then some ([c], rest) else none

/-- Go on with digits, each of them behind at most one underscore. -/
def moreDigits (base : Nat) : List Char → List Char × List Char
  | [] => ([], [])
  | '_' :: c :: rest =>
    if (digitValue base c).isSome then
      let (taken, left) := moreDigits base rest
      ('_' :: c :: taken, left)
    else ([], '_' :: c :: rest)
  | c :: rest =>
    if (digitValue base c).isSome then
      let (taken, left) := moreDigits base rest
      (c :: taken, left)
    else ([], c :: rest)

/-- Digits of a number system with single underscores between them. -/
def digits (base : Nat) : Scan
  | [] => none
  | c :: rest =>
    if (digitValue base c).isSome then
      let (taken, left) := moreDigits base rest
      some (c :: taken, left)
    else none

/-- Digits behind a prefix such as `0x`, with an underscore allowed in front of them. -/
def prefixedDigits (letters : List Char) (base : Nat) : Scan :=
  ((mark ['0']).seq (oneOf letters.contains)).seq ((mark ['_']).opt.seq (digits base))

/-- An integer: in the decimal system without a leading zero, or with a prefix. -/
def intLiteral : Scan :=
  let decimal : Scan := fun s =>
    match s with
    | '0' :: rest => some (['0'], rest)
    | _ => digits 10 s
  let octal : Scan := (mark ['0']).seq ((mark ['_']).opt.seq (digits 8))
  ((prefixedDigits ['b', 'B'] 2).longer (prefixedDigits ['o', 'O'] 8)).longer
    (((prefixedDigits ['x', 'X'] 16).longer octal).longer decimal)

/-- An exponent with one of two letters. -/
def exponent (letters : List Char) : Scan :=
  (oneOf letters.contains).seq ((oneOf ['+', '-'].contains).opt.seq (digits 10))

/-- A number with a fraction or an exponent. -/
def floatLiteral : Scan :=
  let e := exponent ['e', 'E']
  let decimal : Scan :=
    (((digits 10).seq (mark ['.'])).seq ((digits 10).opt.seq e.opt)).longer
      (((digits 10).seq e).longer ((mark ['.']).seq ((digits 10).seq e.opt)))
  let whole : Scan := (mark ['_']).opt.seq (digits 16)
  let mantissa : Scan :=
    ((whole.seq (mark ['.'])).seq (digits 16).opt).longer
      (whole.longer ((mark ['.']).seq (digits 16)))
  let hexadecimal : Scan :=
    ((mark ['0']).seq (oneOf ['x', 'X'].contains)).seq (mantissa.seq (exponent ['p', 'P']))
  decimal.longer hexadecimal

/-- An imaginary number: digits, an integer or a float and an `i`. -/
def imaginaryLiteral : Scan :=
  ((digits 10).seq (mark ['i'])).longer
    ((intLiteral.seq (mark ['i'])).longer (floatLiteral.seq (mark ['i'])))

/-! ## Texts -/

/-- Exactly so many hexadecimal digits; with `more`, any number behind them as well. -/
def hexDigits (count : Nat) (more : Bool) : Scan := fun s =>
  let isHex := fun c => (digitValue 16 c).isSome
  if ((s.take count).filter isHex).length == count then
    if more then some (s.takeWhile isHex, s.dropWhile isHex)
    else some (s.take count, s.drop count)
  else none

/-- What a backslash in an interpreted literal escapes. -/
def stringEscape : Scan
  | [] => none
  | c :: rest =>
    if c == 'x' then (hexDigits 2 true rest).map fun (taken, left) => (c :: taken, left)
    else if c == 'u' then (hexDigits 4 false rest).map fun (taken, left) => (c :: taken, left)
    else if c == 'U' then (hexDigits 8 false rest).map fun (taken, left) => (c :: taken, left)
    else some ([c], rest)

/-- The rest of an interpreted literal behind its opening quote; at most one piece for each
character of `bound`. -/
def stringBody (bound : List Char) (s : List Char) : Option (List Char × List Char) :=
  match bound, s with
  | _ :: bound, c :: rest =>
    if c == '"' then some ([c], rest)
    else if c == '\n' then none
    else if c == '\\' then
      match stringEscape rest with
      | none => none
      | some (escape, after) =>
        (stringBody bound after).map fun (taken, left) => (c :: (escape ++ taken), left)
    else (stringBody bound rest).map fun (taken, left) => (c :: taken, left)
  | _, _ => none

/-- A string between double quotes. -/
def interpretedString : Scan
  | '"' :: rest => (stringBody rest rest).map fun (taken, left) => ('"' :: taken, left)
  | _ => none

/-- A string between back quotes. -/
def rawString : Scan
  | '\x60' :: rest =>
    match rest.dropWhile (· != '\x60') with
    | [] => none
    | quote :: left => some ('\x60' :: (rest.takeWhile (· != '\x60') ++ [quote]), left)
  | _ => none

/-- What a backslash in a rune escapes. -/
def runeEscape : Scan
  | [] => none
  | c :: rest =>
    if c == 'x' then (hexDigits 2 false rest).map fun (taken, left) => (c :: taken, left)
    else if c == 'u' then (hexDigits 4 false rest).map fun (taken, left) => (c :: taken, left)
    else if c == 'U' then (hexDigits 8 false rest).map fun (taken, left) => (c :: taken, left)
    else if ['a', 'b', 'f', 'n', 'r', 't', 'v', '\\', '\'', '"'].contains c then some ([c], rest)
    else
      let three := (c :: rest).take 3
      if three.length == 3 && three.all (fun d => (digitValue 8 d).isSome) then
        some (three, (c :: rest).drop 3)
      else none

/-- One character between single quotes. -/
def runeLiteral : Scan
  | '\'' :: '\\' :: rest =>
    match runeEscape rest with
    | some (escape, '\'' :: left) => some ('\'' :: '\\' :: (escape ++ ['\'']), left)
    | _ => none
  | '\'' :: c :: '\'' :: left => if c == '\'' then none else some (['\'', c, '\''], left)
  | _ => none

end FluentBuilder.Go

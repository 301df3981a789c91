import FluentBuilder.Text.Casing
import FluentBuilder.Text.LetterCase

/-!
# Names in generated code — exported names and the identifiers made from them

A setter has the exported name of its field and a parameter whose name is `unexported` of it.
That identifier starts with a small letter or `_`, and an `_` keeps it apart from the words that
Go reserves and from a name that was not exported to begin with.
-/

namespace FluentBuilder

/-- The keywords, predeclared types and constants and built-in functions of Go, sorted. -/
def reservedWords : Array String :=
  #["any", "append", "bool", "break", "byte", "cap", "case",
   "chan", "close", "comparable", "complex", "complex128", "complex64", "const",
   "continue", "copy", "default", "defer", "delete", "else", "error",
   "fallthrough", "false", "float32", "float64", "for", "func", "go",
   "goto", "if", "imag", "import", "int", "int16", "int32",
   "int64", "int8", "interface", "iota", "len", "make", "map",
   "new", "nil", "package", "panic", "print", "println", "range",
   "real", "recover", "return", "rune", "select", "string", "switch",
   "true", "type", "uint", "uint16", "uint32", "uint64", "uint8",
   "uintptr", "var"]

/-- Decide whether a text comes before another one, character by character. -/
def precedes : List Char → List Char → Bool
  | _, [] => false
  | [], _ :: _ => true
  | a :: as, b :: bs => a.toNat < b.toNat || (a == b && precedes as bs)

/-- Search a word in a sorted table between two positions, halving the distance in each of at
most `steps` steps. -/
def bisect (table : Array String) (word : List Char) : Nat → Nat → Nat → Bool
  | 0, _, _ => false
  | steps + 1, low, high =>
    if high ≤ low then false
    else
      let middle := low + (high - low) / 2
      match table[middle]? with
      | none => false
      | some entry =>
        if entry.toList == word then true
        else if precedes entry.toList word then bisect table word steps (middle + 1) high
        else bisect table word steps low middle

/-- Decide whether Go reserves a word. -/
def isReserved (word : String) : Bool :=
  bisect reservedWords word.toList reservedWords.size 0 reservedWords.size

/-- Decide whether a name is exported: its first letter is an upper case one. -/
def isExported (name : String) : Bool :=
  match name.toList with
  | [] => false
  | c :: _ => Text.isUpper c

/-- Put an underscore in front of a name. -/
def escape (name : String) : String := String.ofList ('_' :: name.toList)

/-- Lower the case of a name: all of it if it has no small letter, else its first letter. -/
def lowered : List Char → List Char
  | [] => []
  | c :: rest =>
    if Text.upperText (c :: rest) == c :: rest then Text.lowerText (c :: rest)
    else Text.lowerChar c ++ rest

/-- The identifier for an exported name. -/
def unexported (name : String) : String :=
  if name.toList == [] then ""
  else
    let cased := String.ofList (lowered name.toList)
    if isReserved cased || cased == name then escape cased else cased

end FluentBuilder

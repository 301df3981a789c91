import FluentBuilder.Go.Literal

/-!
# Struct tags — pairs of a key and a quoted value

A tag is read as pairs `name:"value"` separated by spaces. `Tag.lookup` gives the value of the
first pair with a name; the first text that is no pair ends the search.
-/

namespace FluentBuilder.Go.Tag

/-- Decide whether a character may stand in the name of a pair. -/
def isNameChar (c : Char) : Bool :=
  !(c.toNat ≤ 0x20 || c == ':' || c == '"' || c.toNat == 0x7f)

/-- Cut a text behind its first quote that no backslash escapes; the quote stays in front. -/
def cutQuote : List Char → Option (List Char × List Char)
  | [] => none
  | ['\\'] => none
  | '\\' :: c :: rest => (cutQuote rest).map fun (body, after) => ('\\' :: c :: body, after)
  | c :: rest =>
    if c == '"' then some ([c], rest)
    else (cutQuote rest).map fun (body, after) => (c :: body, after)

/-- A pair at the front of a tag: its name, its quoted value and what follows. -/
structure Pair where
  name   : List Char
  quoted : List Char
  rest   : List Char

/-- Read a pair from the front of a tag. -/
def firstPair (tag : List Char) : Option Pair :=
  match tag.takeWhile isNameChar, tag.dropWhile isNameChar with
  | [], _ => none
  | name, ':' :: '"' :: after =>
    (cutQuote after).map fun (body, rest) => ⟨name, '"' :: body, rest⟩
  | _, _ => none

/-- Search the pairs of a tag, at most `limit` of them. -/
def search (key : List Char) : Nat → List Char → Option (List Char)
  | 0, _ => none
  | limit + 1, tag =>
    match firstPair (tag.dropWhile (· == ' ')) with
    | none => none
    | some pair =>
      if pair.name == key then unquoteChars pair.quoted else search key limit pair.rest

/-- The value of the first pair with a name; a tag has fewer pairs than characters. -/
def lookup (tag key : String) : Option String :=
  (search key.toList tag.toList.length tag.toList).map String.ofList

end FluentBuilder.Go.Tag

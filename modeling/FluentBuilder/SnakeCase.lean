import FluentBuilder.Text.CaseMap
import FluentBuilder.Text.LetterCase
import FluentBuilder.Text.Numeric

/-!
# Snake case — cutting a name into words

`snakeCase` puts an underscore between the words of a name and lowers its case. A word begins at
an upper case letter or a number: behind a lower case letter, or as the last one of a run of
such characters that something else follows, so that `IDNumber` becomes `id_number`.
-/

namespace FluentBuilder

/-- Decide whether a character can begin a word: it has upper case or is a number. -/
def isWordHead (c : Char) : Bool := Text.isUpper c || Text.isNumeric c

/-- Decide whether a word begins with `c`, between `before`, read backwards, and `after`. -/
def beginsWord (before : List Char) (c : Char) (after : List Char) : Bool :=
  isWordHead c &&
    match before with
    | [] => false
    | previous :: earlier =>
      Text.isLower previous ||
        match earlier, after with
        | _ :: _, next :: _ => isWordHead previous && !isWordHead next
        | _, _ => false

/-- The snake case of a text that stands behind `before`, which is given backwards. -/
def snakeFrom (before : List Char) : List Char → List Char
  | [] => []
  | c :: rest =>
    (if beginsWord before c rest then ['_'] else []) ++ Text.lowerChar c ++
      snakeFrom (c :: before) rest

/-- The words of a name in lower case, joined by underscores. -/
def snakeCase (name : String) : String := String.ofList (snakeFrom [] name.toList)

end FluentBuilder

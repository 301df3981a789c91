import FluentBuilder.Text.CaseMap
import FluentBuilder.Text.FinalSigma

/-!
# Case mapping of a text — all characters, a final sigma included

Every character is mapped on its own, but a capital sigma that ends a word has a lower case of
its own.
-/

namespace FluentBuilder.Text

/-- The upper case of a text. -/
def upperText (cs : List Char) : List Char := cs.flatMap upperChar

/-- The lower case of a text that stands behind `before`, which is given backwards. -/
def lowerFrom (before : List Char) : List Char → List Char
  | [] => []
  | c :: rest =>
    let lowered := if c == 'Σ' then (if endsWord before rest then ['ς'] else ['σ']) else lowerChar c
    lowered ++ lowerFrom (c :: before) rest

/-- The lower case of a text. -/
def lowerText (cs : List Char) : List Char := lowerFrom [] cs

end FluentBuilder.Text

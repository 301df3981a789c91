/-!
# Layout — lines of code with their indentation

A program of `Step`s describes a text line by line. `Step.emit` gives the text that a step adds at
a level of indentation and the level behind it. A line is indented even when it is empty, a blank
one never is, and no step goes below level zero.

Steps for each of several items are a `flatMap` over the items, since a page is written step after
step. `Step.each` is kept for the case that is needed: one line for each item.
-/

namespace FluentBuilder.Layout

/-- What a line is indented with, once for each level. -/
inductive Indent where
  | tab
  | spaces (width : Nat)
  deriving DecidableEq, Repr

/-- The characters of one level of indentation. -/
def Indent.chars : Indent → List Char
  | .tab => ['\t']
  | .spaces width => List.replicate width ' '

/-- One step of a layout; `each` holds the line of each item, and a block is indented between its
header and its close. -/
inductive Step where
  | line (text : String)
  | blank
  | comment (text : String)
  | indent
  | dedent
  | each (lines : List String)
  | block (header close : String) (body : List Step)

/-- A text as a line of a level. -/
def lineAt (unit : List Char) (level : Nat) (text : List Char) : List Char :=
  (List.replicate level unit).flatten ++ text ++ ['\n']

mutual

/-- The text that a step adds at a level, and the level behind it. -/
def Step.emit (unit : List Char) : Step → Nat → List Char × Nat
  | .line text, level => (lineAt unit level text.toList, level)
  | .blank, level => (['\n'], level)
  | .comment text, level => (lineAt unit level ('/' :: '/' :: ' ' :: text.toList), level)
  | .indent, level => ([], level + 1)
  | .dedent, level => ([], level - 1)
  | .each lines, level => (lines.flatMap fun text => lineAt unit level text.toList, level)
  | .block header close body, level =>
    let (text, after) := emitAll unit body (level + 1)
    (lineAt unit level header.toList ++ text ++ lineAt unit (after - 1) close.toList, after - 1)

/-- The text that steps add one after the other, and the level behind them. -/
def emitAll (unit : List Char) : List Step → Nat → List Char × Nat
  | [], level => ([], level)
  | step :: rest, level =>
    let (text, after) := step.emit unit level
    let (others, last) := emitAll unit rest after
    (text ++ others, last)

end

/-- A page that is being written: its text so far and the level of its next line. -/
structure Page where
  text  : List Char := []
  level : Nat := 0

/-- Write a step onto a page. -/
def Page.add (indent : Indent) (page : Page) (step : Step) : Page :=
  let (text, level) := step.emit indent.chars page.level
  ⟨page.text ++ text, level⟩

/-- The whole text of a layout. -/
def print (indent : Indent) (steps : List Step) : String :=
  String.ofList (emitAll indent.chars steps 0).1

end FluentBuilder.Layout

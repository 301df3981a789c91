/-!
# Code point tables — spans of code points with a constant step

A table of a character property is a list of spans in ascending order. A span with step 2 holds
every second code point from its first to its last one, which is how the letters of many scripts
alternate between the cases. A `Shift` is a span together with the code point to which its first
member is mapped.
-/

namespace FluentBuilder.Text

/-- Every `step`-th code point from `first` to `last`. -/
structure Span where
  first : Nat
  last  : Nat
  step  : Nat

/-- Decide whether an ascending table of spans holds a code point. -/
def inSpans : List Span → Nat → Bool
  | [], _ => false
  | s :: rest, n =>
    if n < s.first then false
    else if s.last < n then inSpans rest n
    else (n - s.first) % s.step == 0

/-- A span whose first member is mapped to `target` and the others at the same distance. -/
structure Shift where
  first  : Nat
  last   : Nat
  step   : Nat
  target : Nat

/-- The image of a code point under an ascending table of shifts: itself where no shift has it. -/
def shifted : List Shift → Nat → Nat
  | [], n => n
  | s :: rest, n =>
    if n < s.first then n
    else if s.last < n then shifted rest n
    else if (n - s.first) % s.step == 0 then s.target + (n - s.first)
    else n

end FluentBuilder.Text

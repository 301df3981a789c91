import FluentBuilder.Go.Type

/-!
# Type signatures — a type expression as Go text

`TypeExpr.signature` prints a type the way a formatter would. A type that cannot be written
without its inner names, such as a struct with fields, has no signature: nothing is approximated.
-/

namespace FluentBuilder

/-- Why a type has no signature. -/
inductive SignatureError where
  | unsupported (kind : String)
  | malformedQualifier
  deriving DecidableEq, Repr

/-- What a type without a signature is reported as. -/
def SignatureError.message : SignatureError → String
  | .unsupported kind => s!"unsupported {kind}"
  | .malformedQualifier => "qualifier of selector type is not a plain name"

/-- The word in front of the element type of a channel. -/
def Go.Direction.word : Go.Direction → List Char
  | .both => ['c', 'h', 'a', 'n', ' ']
  | .send => ['c', 'h', 'a', 'n', '<', '-', ' ']
  | .receive => ['<', '-', 'c', 'h', 'a', 'n', ' ']

/-- Decide whether a channel type needs brackets around its element: `chan <-chan T` would be
read as a channel to send to. -/
def needsBrackets : Go.Direction → Go.TypeExpr → Bool
  | .both, .chan .receive _ => true
  | _, _ => false

/-- Put texts behind each other with a comma and a blank between them. -/
def commaSeparated : List (List Char) → List Char
  | [] => []
  | [s] => s
  | s :: rest => s ++ ',' :: ' ' :: commaSeparated rest

/-- What stands behind the parameters of a function type. -/
def resultText : List (Bool × List Char) → List Char
  | [] => []
  | [(false, s)] => ' ' :: s
  | results => ' ' :: '(' :: commaSeparated (results.map (·.2)) ++ [')']

mutual

/-- The characters of the signature of a type. -/
def signatureChars : Go.TypeExpr → Except SignatureError (List Char)
  | .named name => .ok name.toList
  | .qualified (.named package) name => .ok (package.toList ++ '.' :: name.toList)
  | .qualified _ _ => .error .malformedQualifier
  | .array length elem => do
    let e ← signatureChars elem
    return '[' :: (length.getD "").toList ++ ']' :: e
  | .pointer elem => do return '*' :: (← signatureChars elem)
  | .map key value => do
    let k ← signatureChars key
    let v ← signatureChars value
    return 'm' :: 'a' :: 'p' :: '[' :: k ++ ']' :: v
  | .chan direction value => do
    let v ← signatureChars value
    return direction.word ++ (if needsBrackets direction value then '(' :: v ++ [')'] else v)
  | .generic base args => do
    let b ← signatureChars base
    let as ← signaturesOf args
    return b ++ '[' :: commaSeparated as ++ [']']
  | .paren elem => do return '(' :: (← signatureChars elem) ++ [')']
  | .func params results => do
    let ps ← paramSignatures params
    let rs ← paramSignatures results
    return ['f', 'u', 'n', 'c', '('] ++ commaSeparated (ps.map (·.2)) ++ ')' :: resultText rs
  | .struct none => .ok "struct\x7b\x7d".toList
  | .struct (some []) => .ok "struct\x7b\x7d".toList
  | .struct (some (_ :: _)) => .error (.unsupported "struct type")
  | .interface 0 => .ok "interface\x7b\x7d".toList
  | .interface (_ + 1) => .error (.unsupported "interface type")
  | .other kind => .error (.unsupported (Go.TypeExpr.other kind).describe)

/-- The signatures of types, the first error being reported. -/
def signaturesOf : List Go.TypeExpr → Except SignatureError (List (List Char))
  | [] => .ok []
  | t :: rest => do
    let s ← signatureChars t
    let ss ← signaturesOf rest
    return s :: ss

/-- The signatures of parameters, three dots in front of a variadic one. -/
def paramSignatures : List Go.Param → Except SignatureError (List (Bool × List Char))
  | [] => .ok []
  | ⟨t, variadic⟩ :: rest => do
    let s ← signatureChars t
    let ss ← paramSignatures rest
    return (variadic, if variadic then '.' :: '.' :: '.' :: s else s) :: ss

end

/-- The signature of a type, for instance `map[string][]*User`. -/
def Go.TypeExpr.signature (t : Go.TypeExpr) : Except SignatureError String :=
  (signatureChars t).map String.ofList

end FluentBuilder

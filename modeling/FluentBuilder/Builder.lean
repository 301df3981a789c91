import FluentBuilder.Blueprint
import FluentBuilder.Layout

/-!
# Builders — the Go text generated for a blueprint

* **`Plan`** — the identifiers of one builder: one for each member and the name of the receiver.
  A plan exists unless two names would clash, and `Conflict` says which.
* **`Plan.layout`** — the builder as a layout: its struct type, a constructor, a setter for each
  member and the method that builds the value.
* **`Blueprint.render`** — the text of a builder.
-/

namespace FluentBuilder

/-- Which names of a builder would clash. -/
inductive Conflict where
  | buildMethod
  | sameIdentifier (previous name ident : String)
  | noReceiver
  deriving DecidableEq, Repr

/-- The method that ends a chain of setters. -/
def buildName : String := "Build"

/-- The names of a receiver, in the order in which they are tried. -/
def receiverNames : List String := ["b", "bldr", "builder"]

/-- What a clash is reported as. -/
def Conflict.message : Conflict → String
  | .buildMethod => s!"field {buildName} conflicts with the {buildName} method"
  | .sameIdentifier previous name ident =>
    s!"fields {previous} and {name} both map to identifier '{ident}'"
  | .noReceiver =>
    let names := ", ".intercalate receiverNames
    s!"every receiver name ({names}) is taken by a field"

/-- A member of a builder together with its identifier. -/
structure Slot where
  member : Member
  ident  : String

/-- The identifiers of one builder. -/
structure Plan where
  slots    : List Slot
  receiver : String

/-- Give identifiers to members, keeping them apart from those already given. -/
def assignIdents (given : List Slot) : List Member → Except Conflict (List Slot)
  | [] => .ok []
  | member :: rest =>
    if member.name == buildName then .error .buildMethod
    else
      let ident := unexported member.name
      match given.find? (·.ident == ident) with
      | some previous => .error (.sameIdentifier previous.member.name member.name ident)
      | none => do
        let slots ← assignIdents (⟨member, ident⟩ :: given) rest
        return ⟨member, ident⟩ :: slots

/-- Choose the identifiers of a builder: the receiver is the first name no member has. -/
def Plan.of (members : List Member) : Except Conflict Plan := do
  let slots ← assignIdents [] members
  match receiverNames.find? (fun name => !slots.any (·.ident == name)) with
  | some receiver => return ⟨slots, receiver⟩
  | none => throw .noReceiver

/-- A text filled up with blanks to a width. -/
def padRight (width : Nat) (text : String) : String :=
  String.ofList (text.toList ++ List.replicate (width - text.toList.length) ' ')

/-- The greatest length of texts. -/
def widest (texts : List String) : Nat :=
  texts.foldl (fun width text => max width text.toList.length) 0

namespace Plan

open Layout (Step)

/-- First line of every generated file. -/
def header : String := "Code generated by gobble. DO NOT EDIT."

/-- The struct type of a builder: one field for each member, the types in one column. -/
def typeLayout (plan : Plan) (builder : String) : Step :=
  if plan.slots.isEmpty then .line s!"type {builder} struct\x7b\x7d"
  else
    let width := widest (plan.slots.map (·.ident))
    .block s!"type {builder} struct \x7b" "\x7d"
      [.each (plan.slots.map fun slot =>
        s!"{padRight width slot.ident} {slot.member.signature}")]

/-- The constructor of a builder. -/
def newLayout (builder : String) : Step :=
  .block s!"func New{builder}() *{builder} \x7b" "\x7d" [.line s!"return &{builder}\x7b\x7d"]

/-- The setter of a member: it stores its argument and returns the builder. -/
def setterLayout (plan : Plan) (builder : String) (slot : Slot) : List Step :=
  let receiver := plan.receiver
  let ident := slot.ident
  let name := slot.member.name
  let type := slot.member.signature
  [.blank,
    .block s!"func ({receiver} *{builder}) {name}({ident} {type}) *{builder} \x7b" "\x7d"
      [.line s!"{receiver}.{ident} = {ident}", .line s!"return {receiver}"]]

/-- The returned value: one key for each member, the values in one column. -/
def resultLayout (plan : Plan) (target : String) : Step :=
  if plan.slots.isEmpty then .line s!"return {target}\x7b\x7d"
  else
    let width := widest (plan.slots.map (·.member.name)) + 1
    let receiver := plan.receiver
    .block s!"return {target}\x7b" "\x7d"
      [.each (plan.slots.map fun slot =>
        let key := padRight width (slot.member.name ++ ":")
        s!"{key} {receiver}.{slot.ident},")]

/-- The method that builds the value. -/
def buildLayout (plan : Plan) (builder target : String) : Step :=
  .block s!"func ({plan.receiver} *{builder}) {buildName}() {target} \x7b" "\x7d"
    [plan.resultLayout target]

/-- A whole builder. -/
def layout (plan : Plan) (package target : String) : List Step :=
  let builder := target ++ "Builder"
  [.comment header, .blank, .line s!"package {package}", .blank, plan.typeLayout builder,
    .blank, newLayout builder] ++
  plan.slots.flatMap (plan.setterLayout builder) ++
  [.blank, plan.buildLayout builder target]

end Plan

/-- The text of the builder for a blueprint. -/
def Blueprint.render (blueprint : Blueprint) : Except Conflict String :=
  match Plan.of blueprint.members with
  | .error e => .error e
  | .ok plan => .ok (Layout.print .tab (plan.layout blueprint.package blueprint.target))

/-- Why there is no builder for a struct. -/
inductive GenerateError where
  | blueprint (cause : BlueprintError)
  | conflict (target : String) (cause : Conflict)
  deriving DecidableEq, Repr

namespace GenerateError

/-- What is reported. -/
def message : GenerateError → String
  | .blueprint cause => cause.message
  | .conflict target cause => s!"failed to render builder for struct {target}: {cause.message}"

/-- What is reported, followed by its causes. -/
def chain : GenerateError → List String
  | .blueprint cause => cause.chain
  | .conflict target cause => [message (.conflict target cause)]

/-- The name of the kind of report. -/
def code : GenerateError → String
  | .blueprint cause => cause.code
  | .conflict _ _ => "gobble::render"

/-- What to do about it. -/
def help : GenerateError → Option String
  | .blueprint cause => cause.help
  | .conflict _ _ => none

end GenerateError

/-- The text of the builder for a struct of a file. -/
def Go.SourceFile.generate (file : Go.SourceFile) (target : String) :
    Except GenerateError String :=
  match file.blueprint target with
  | .error e => .error (.blueprint e)
  | .ok blueprint =>
    match blueprint.render with
    | .error e => .error (.conflict target e)
    | .ok text => .ok text

end FluentBuilder

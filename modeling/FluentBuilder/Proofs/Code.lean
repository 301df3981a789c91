import FluentBuilder.Builder

/-!
# Code — the part of Go that builders are written in, and what it means

`Code` is the syntax of a generated file: the struct type of a builder, its constructor and its
methods. `Code.layout` spells it. `Code.run` is the meaning of a chain of calls: a fresh builder,
setters called on it one after the other and the value that its last method returns. A chain has no
meaning if the code breaks a rule of Go: a name is declared twice, or it does not stand for what it
is used as.
-/

namespace FluentBuilder

/-! ## Syntax -/

/-- A member of an object, `object.member`. -/
structure Selector where
  object : String
  member : String

/-- A statement of a setter: `target = value`, or `return name`. -/
inductive Statement where
  | assign (target : Selector) (value : String)
  | giveBack (name : String)

/-- A method with one parameter that returns the builder it is called on. -/
structure Setter where
  receiver  : String
  name      : String
  parameter : String
  type      : String
  body      : List Statement

/-- The method without parameters that returns a struct with the given keys and values. -/
structure Finish where
  receiver : String
  name     : String
  entries  : List (String × Selector)

/-- A generated file; a member of the builder has a name and a type. -/
structure Code where
  package : String
  target  : String
  members : List (String × String)
  setters : List Setter
  finish  : Finish

/-! ## Spelling -/

open Layout (Step)

/-- A statement on a line of its own. -/
def Statement.line : Statement → Step
  | .assign target value => .line s!"{target.object}.{target.member} = {value}"
  | .giveBack name => .line s!"return {name}"

/-- A setter behind a blank line. -/
def Setter.layout (setter : Setter) (builder : String) : List Step :=
  let receiver := setter.receiver
  let parameter := setter.parameter
  [.blank,
    .block s!"func ({receiver} *{builder}) {setter.name}({parameter} {setter.type}) *{builder} \x7b"
      "\x7d" (setter.body.map Statement.line)]

/-- The struct type of a builder, the types of its members in one column. -/
def Code.typeLayout (code : Code) (builder : String) : Step :=
  if code.members.isEmpty then .line s!"type {builder} struct\x7b\x7d"
  else
    let width := widest (code.members.map (·.1))
    .block s!"type {builder} struct \x7b" "\x7d"
      [.each (code.members.map fun (name, type) => s!"{padRight width name} {type}")]

/-- The struct that the last method returns, its values in one column. -/
def Finish.resultLayout (finish : Finish) (target : String) : Step :=
  if finish.entries.isEmpty then .line s!"return {target}\x7b\x7d"
  else
    let width := widest (finish.entries.map (·.1)) + 1
    .block s!"return {target}\x7b" "\x7d"
      [.each (finish.entries.map fun (key, value) =>
        let key := padRight width (key ++ ":")
        s!"{key} {value.object}.{value.member},")]

/-- A whole file. -/
def Code.layout (code : Code) : List Step :=
  let builder := code.target ++ "Builder"
  let finish := code.finish
  [.comment Plan.header, .blank, .line s!"package {code.package}", .blank, code.typeLayout builder,
    .blank, Plan.newLayout builder] ++
  code.setters.flatMap (·.layout builder) ++
  [.blank, .block s!"func ({finish.receiver} *{builder}) {finish.name}() {code.target} \x7b" "\x7d"
    [finish.resultLayout code.target]]

/-! ## Meaning -/

section

variable {V : Type}

/-- What a name in a method stands for: the builder that the method is called on, or a value. -/
inductive Denotation (V : Type) where
  | builder
  | value (v : V)

/-- The names of a method and what they stand for. -/
abbrev Scope (V : Type) := List (String × Denotation V)

/-- The members of a builder with their values, or the fields of a struct. -/
abbrev Store (V : Type) := List (String × V)

/-- Change the value of a member, if there is one with the name. -/
def Store.set? (store : Store V) (name : String) (v : V) : Option (Store V) :=
  if store.any (·.1 == name) then
    some (store.map fun entry => if entry.1 == name then (entry.1, v) else entry)
  else none

/-- Run statements up to the one that returns the builder. -/
def runBody (scope : Scope V) : List Statement → Store V → Option (Store V)
  | [], _ => none
  | .assign target value :: rest, store =>
    match scope.lookup target.object, scope.lookup value with
    | some .builder, some (.value v) => (store.set? target.member v).bind (runBody scope rest)
    | _, _ => none
  | .giveBack name :: _, store =>
    match scope.lookup name with
    | some .builder => some store
    | _ => none

/-- Call a setter with an argument; its receiver and its parameter need different names. -/
def Setter.call (setter : Setter) (store : Store V) (v : V) : Option (Store V) :=
  if setter.receiver = setter.parameter then none
  else runBody [(setter.receiver, .builder), (setter.parameter, .value v)] setter.body store

/-- The value of a member of the builder. -/
def Selector.value? (selector : Selector) (scope : Scope V) (store : Store V) : Option V :=
  match scope.lookup selector.object with
  | some .builder => store.lookup selector.member
  | _ => none

/-- Call the last method: the struct that it returns. -/
def Finish.call (finish : Finish) (store : Store V) : Option (Store V) :=
  finish.entries.mapM fun (key, value) =>
    (value.value? [(finish.receiver, .builder)] store).map fun v => (key, v)

/-- Decide whether no member, no method and no key is declared twice. -/
def Code.declaresOnce (code : Code) : Bool :=
  decide (code.members.map (·.1)).Nodup &&
  decide (code.finish.name :: code.setters.map (·.name)).Nodup &&
  decide (code.finish.entries.map (·.1)).Nodup

/-- A fresh builder: every member has the zero value of its type. -/
def Code.new (code : Code) (zero : String → V) : Store V :=
  code.members.map fun (name, type) => (name, zero type)

/-- Call the setter with a name. -/
def Code.call (code : Code) (store : Store V) (call : String × V) : Option (Store V) :=
  (code.setters.find? (·.name == call.1)).bind fun setter => setter.call store call.2

/-- Make a builder, call setters on it one after the other and then the last method. -/
def Code.run (code : Code) (zero : String → V) (calls : List (String × V)) : Option (Store V) :=
  if code.declaresOnce then
    (calls.foldlM code.call (code.new zero)).bind code.finish.call
  else none

end

end FluentBuilder

import FluentBuilder.Proofs.Casing
import FluentBuilder.Proofs.Lines
import FluentBuilder.Proofs.Meaning
import FluentBuilder.Proofs.Words

/-!
# Recovery — the text of a builder says what it was generated from

The lines of a builder stand in an order that hangs only on the number of its members, and this
number can be told from the number of lines. So line by line the text gives back the package, the
struct and the members.

* **`Plan.layout_lines`** — the lines of a builder.
* **`Plan.eq_of_lines`** — what two builders with the same lines have in common.
* **`Blueprint.render_injective`** — blueprints with the same text are the same.
-/

namespace FluentBuilder

open Layout

namespace Plan

/-! ## The lines of a builder -/

/-- The lines above the struct type. -/
def topLines (package : String) : List Line :=
  [.text 0 ('/' :: '/' :: ' ' :: header.toList), .blank, .text 0 s!"package {package}".toList,
    .blank]

/-- The lines of the constructor. -/
def newLines (builder : String) : List Line :=
  [.blank, .text 0 s!"func New{builder}() *{builder} \x7b".toList,
    .text 1 s!"return &{builder}\x7b\x7d".toList, .text 0 ['}']]

/-- The first line of a setter. -/
def setterHead (receiver builder name ident type : String) : String :=
  s!"func ({receiver} *{builder}) {name}({ident} {type}) *{builder} \x7b"

/-- The lines of a setter. -/
def setterLines (plan : Plan) (builder : String) (slot : Slot) : List Line :=
  let head := setterHead plan.receiver builder slot.member.name slot.ident slot.member.signature
  [.blank, .text 0 head.toList,
    .text 1 s!"{plan.receiver}.{slot.ident} = {slot.ident}".toList,
    .text 1 s!"return {plan.receiver}".toList, .text 0 ['}']]

/-- The first line of the method that builds the value. -/
def buildHead (plan : Plan) (builder target : String) : String :=
  s!"func ({plan.receiver} *{builder}) {buildName}() {target} \x7b"

/-- The lines of the method that builds the value. -/
def buildLines (plan : Plan) (builder target : String) : List Line :=
  [.blank, .text 0 (plan.buildHead builder target).toList] ++
    ((plan.resultLayout target).lines 1).1 ++ [.text 0 ['}']]

/-- The lines of a whole builder. -/
def lines (plan : Plan) (package target : String) : List Line :=
  let builder := target ++ "Builder"
  topLines package ++ ((plan.typeLayout builder).lines 0).1 ++ newLines builder ++
    plan.slots.flatMap (plan.setterLines builder) ++ plan.buildLines builder target

/-- The struct type of a builder ends on the level where it begins. -/
theorem typeLayout_level (plan : Plan) (builder : String) (level : Nat) :
    ((plan.typeLayout builder).lines level).2 = level := by
  unfold typeLayout
  split <;> rfl

/-- The returned value ends on the level where it begins. -/
theorem resultLayout_level (plan : Plan) (target : String) (level : Nat) :
    ((plan.resultLayout target).lines level).2 = level := by
  unfold resultLayout
  split <;> rfl

/-- **The lines of a builder.** -/
theorem layout_lines (plan : Plan) (package target : String) :
    linesAll (plan.layout package target) 0 = (plan.lines package target, 0) := by
  have htop : linesAll [.comment header, .blank, .line s!"package {package}", .blank,
      plan.typeLayout (target ++ "Builder"), .blank, newLayout (target ++ "Builder")] 0 =
        (topLines package ++ ((plan.typeLayout (target ++ "Builder")).lines 0).1 ++
          newLines (target ++ "Builder"), 0) := by
    simp only [linesAll, Step.lines, typeLayout_level, newLayout, topLines, newLines,
      List.cons_append, List.nil_append, List.append_nil]
    rfl
  have hsetter : ∀ slot, linesAll (plan.setterLayout (target ++ "Builder") slot) 0 =
      (plan.setterLines (target ++ "Builder") slot, 0) := by
    intro slot
    rfl
  have hbuild : linesAll [.blank, plan.buildLayout (target ++ "Builder") target] 0 =
      (plan.buildLines (target ++ "Builder") target, 0) := by
    simp only [linesAll, Step.lines, resultLayout_level, buildLayout, buildLines, buildHead,
      List.cons_append, List.nil_append, List.append_nil]
    rfl
  exact linesAll_append (linesAll_append htop (linesAll_flatMap hsetter plan.slots)) hbuild

/-! ## The number of lines -/

/-- The lines of a column with an opening and a closing line, or the one line of an empty one. -/
def height (members : Nat) : Nat := if members = 0 then 1 else members + 2

/-- The struct type has a line for each member. -/
theorem length_typeLayout (plan : Plan) (builder : String) (level : Nat) :
    ((plan.typeLayout builder).lines level).1.length = height plan.slots.length := by
  unfold typeLayout height
  cases plan.slots <;> simp [Step.lines, linesAll]

/-- The returned value has a line for each member. -/
theorem length_resultLayout (plan : Plan) (target : String) (level : Nat) :
    ((plan.resultLayout target).lines level).1.length = height plan.slots.length := by
  unfold resultLayout height
  cases plan.slots <;> simp [Step.lines, linesAll]

/-- A setter has five lines. -/
theorem length_setterLines (plan : Plan) (builder : String) (slot : Slot) :
    (plan.setterLines builder slot).length = 5 := rfl

/-- So the setters have five lines for each member. -/
theorem length_setters (plan : Plan) (builder : String) :
    (plan.slots.flatMap (plan.setterLines builder)).length = 5 * plan.slots.length := by
  rw [List.length_flatMap]
  simp only [length_setterLines, List.map_const', List.sum_replicate_nat, Nat.mul_comm]

/-- The number of lines of a builder. -/
theorem length_lines (plan : Plan) (package target : String) :
    (plan.lines package target).length =
      11 + 5 * plan.slots.length + 2 * height plan.slots.length := by
  have htop : (topLines package).length = 4 := rfl
  have hnew : (newLines (target ++ "Builder")).length = 4 := rfl
  simp only [lines, buildLines, List.length_append, length_typeLayout, length_setters,
    length_resultLayout, htop, hnew, List.length_cons, List.length_nil]
  omega

/-! ## What the lines say -/

/-- A text stands for itself in a text. -/
theorem toString_eq (text : String) : toString text = text := rfl

/-- The characters of lines, indented with tabs. -/
abbrev shown (lines : List Line) : List (List Char) := lines.map (Line.chars ['\t'])

/-- The top of a file says what its package is. -/
theorem package_of_topLines {package package' : String}
    (h : shown (topLines package) = shown (topLines package')) : package = package' := by
  simp only [shown, topLines, List.map_cons, Line.chars, List.cons.injEq, List.append_cancel_left_eq,
    String.toList_inj, true_and, and_true] at h
  simpa only [toString_eq, String.append_right_inj] using h

/-- A constructor says what it makes. -/
theorem builder_of_newLines {builder builder' : String}
    (h : shown (newLines builder) = shown (newLines builder')) : builder = builder' := by
  simp only [shown, newLines, List.map_cons, Line.chars, List.cons.injEq, List.append_cancel_left_eq,
    String.toList_inj, true_and, and_true] at h
  simpa only [toString_eq, String.append_left_inj, String.append_right_inj] using h.2

/-- The method that builds the value says what its receiver is. -/
theorem receiver_of_buildLines {plan plan' : Plan} {builder target : String}
    (h : shown (plan.buildLines builder target) = shown (plan'.buildLines builder target)) :
    plan.receiver = plan'.receiver := by
  simp only [shown, buildLines, List.map_cons, List.cons_append, Line.chars, List.cons.injEq,
    List.append_cancel_left_eq, String.toList_inj, true_and] at h
  simpa only [buildHead, toString_eq, String.append_left_inj, String.append_right_inj] using h.1

/-- The first line of a setter says what its member is. -/
theorem name_of_setterHead {receiver builder name name' ident ident' type type' : String}
    (hname : '(' ∉ name.toList) (hname' : '(' ∉ name'.toList)
    (h : setterHead receiver builder name ident type =
      setterHead receiver builder name' ident' type') :
    name = name' ∧ (ident = ident' → type = type') := by
  delta setterHead at h
  simp only [toString_eq] at h
  have hchars := congrArg String.toList h
  simp only [String.toList_append, List.append_assoc, List.append_cancel_left_eq] at hchars
  rw [show "(".toList = ['('] from rfl] at hchars
  obtain rfl : name = name' := String.toList_inj.mp (append_cons_cancel hname hname' hchars).1
  refine ⟨rfl, ?_⟩
  rintro rfl
  simpa only [String.append_left_inj, String.append_right_inj] using h

/-- The identifier of a slot is the one for the name of its member, and this name can be told from
    the parameters behind it. -/
structure Readable (slot : Slot) : Prop where
  ident : slot.ident = unexported slot.member.name
  name  : '(' ∉ slot.member.name.toList

/-- The setters say what the members are. -/
theorem members_of_setters {plan plan' : Plan} {builder : String} {slots slots' : List Slot}
    (hreceiver : plan.receiver = plan'.receiver) (hlength : slots.length = slots'.length)
    (hslots : ∀ slot ∈ slots, Readable slot) (hslots' : ∀ slot ∈ slots', Readable slot)
    (h : shown (slots.flatMap (plan.setterLines builder)) =
      shown (slots'.flatMap (plan'.setterLines builder))) :
    slots.map (·.member) = slots'.map (·.member) := by
  induction slots generalizing slots' with
  | nil =>
      rw [List.length_nil, eq_comm, List.length_eq_zero_iff] at hlength
      rw [hlength]
  | cons slot rest ih =>
      cases slots' with
      | nil => cases hlength
      | cons slot' rest' =>
          rw [List.forall_mem_cons] at hslots hslots'
          rw [List.flatMap_cons, List.flatMap_cons, shown, shown, List.map_append,
            List.map_append] at h
          obtain ⟨hfirst, hrest⟩ := List.append_inj h (by
            rw [List.length_map, List.length_map, length_setterLines, length_setterLines])
          have hmember : slot.member = slot'.member := by
            simp only [setterLines, List.map_cons, Line.chars, List.cons.injEq,
              List.append_cancel_left_eq, String.toList_inj, hreceiver] at hfirst
            obtain ⟨hname, htype⟩ := name_of_setterHead hslots.1.name hslots'.1.name hfirst.2.1
            have hident : slot.ident = slot'.ident := by
              rw [hslots.1.ident, hslots'.1.ident, hname]
            exact congrArg₂ Member.mk hname (htype hident)
          rw [List.map_cons, List.map_cons, hmember,
            ih (Nat.succ.inj hlength) hslots.2 hslots'.2 hrest]

/-- **What two builders with the same lines have in common.** -/
theorem eq_of_lines {plan plan' : Plan} {package package' target target' : String}
    (hslots : ∀ slot ∈ plan.slots, Readable slot) (hslots' : ∀ slot ∈ plan'.slots, Readable slot)
    (h : shown (plan.lines package target) = shown (plan'.lines package' target')) :
    package = package' ∧ target = target' ∧
      plan.slots.map (·.member) = plan'.slots.map (·.member) := by
  -- the number of lines gives the number of members, and with it where each part begins
  have hlength : plan.slots.length = plan'.slots.length := by
    have hlines := congrArg List.length h
    simp only [shown, List.length_map, length_lines, height] at hlines
    split at hlines <;> split at hlines <;> omega
  simp only [shown, lines, List.map_append] at h
  obtain ⟨h, hbuild⟩ := List.append_inj' h (by
    simp only [List.length_map, buildLines, List.length_append, length_resultLayout, hlength,
      List.length_cons, List.length_nil])
  obtain ⟨h, hsetters⟩ := List.append_inj' h (by
    simp only [List.length_map, length_setters, hlength])
  obtain ⟨h, hnew⟩ := List.append_inj' h rfl
  obtain ⟨htop, -⟩ := List.append_inj h rfl
  have hbuilder := builder_of_newLines hnew
  obtain rfl : target = target' := (String.append_left_inj _).mp hbuilder
  have hreceiver := receiver_of_buildLines hbuild
  exact ⟨package_of_topLines htop, rfl,
    members_of_setters hreceiver hlength hslots hslots' hsetters⟩

/-! ## Line breaks -/

/-- The names and types of a builder hold no line breaks. -/
structure OneLine (plan : Plan) (package target : String) : Prop where
  package  : '\n' ∉ package.toList
  target   : '\n' ∉ target.toList
  receiver : '\n' ∉ plan.receiver.toList
  slots    : ∀ slot ∈ plan.slots, '\n' ∉ slot.ident.toList ∧ '\n' ∉ slot.member.name.toList ∧
    '\n' ∉ slot.member.signature.toList

namespace OneLine

/-- Blanks that fill up a text are no line breaks. -/
theorem padRight {text : String} (h : '\n' ∉ text.toList) (width : Nat) :
    '\n' ∉ (padRight width text).toList := by
  simp [FluentBuilder.padRight, h]

variable {plan : Plan} {package target : String}

/-- Nor does the struct type hold any. -/
theorem typeLayout (h : plan.OneLine package target) :
    (plan.typeLayout (target ++ "Builder")).OneLine := by
  unfold Plan.typeLayout
  split
  · simp [Step.OneLine, toString_eq, h.target]
  · refine ⟨by simp [toString_eq, h.target], by simp, ?_, trivial⟩
    intro content hcontent
    obtain ⟨slot, hslot, rfl⟩ := List.mem_map.mp hcontent
    obtain ⟨hident, -, htype⟩ := h.slots slot hslot
    simp [toString_eq, padRight hident, htype]

/-- Nor does the returned value. -/
theorem resultLayout (h : plan.OneLine package target) : (plan.resultLayout target).OneLine := by
  unfold Plan.resultLayout
  split
  · simp [Step.OneLine, toString_eq, h.target]
  · refine ⟨by simp [toString_eq, h.target], by simp, ?_, trivial⟩
    intro content hcontent
    obtain ⟨slot, hslot, rfl⟩ := List.mem_map.mp hcontent
    obtain ⟨hident, hname, -⟩ := h.slots slot hslot
    have hkey : '\n' ∉ (slot.member.name ++ ":").toList := by simp [hname]
    simp [toString_eq, padRight hkey, hident, h.receiver]

/-- Nor does a setter. -/
theorem setterLayout (h : plan.OneLine package target) {slot : Slot} (hslot : slot ∈ plan.slots) :
    ∀ step ∈ plan.setterLayout (target ++ "Builder") slot, step.OneLine := by
  obtain ⟨hident, hname, htype⟩ := h.slots slot hslot
  simp [Plan.setterLayout, Step.OneLine, OneLineAll, toString_eq, hident, hname, htype, h.target,
    h.receiver]

/-- **Nor does any other step of a builder.** -/
theorem layout (h : plan.OneLine package target) : OneLineAll (plan.layout package target) := by
  rw [oneLineAll_iff, Plan.layout]
  simp only [List.forall_mem_append, List.forall_mem_cons, List.mem_flatMap]
  refine ⟨⟨⟨?_, trivial, ?_, trivial, h.typeLayout, trivial, ?_, List.forall_mem_nil _⟩, ?_⟩,
    trivial, ?_, List.forall_mem_nil _⟩
  · simp [Step.OneLine, header]
  · simp [Step.OneLine, toString_eq, h.package]
  · simp [newLayout, Step.OneLine, OneLineAll, toString_eq, h.target]
  · rintro step ⟨slot, hslot, hstep⟩
    exact h.setterLayout hslot step hstep
  · exact ⟨by simp [toString_eq, h.target, h.receiver, buildName], by simp, h.resultLayout, trivial⟩

/-- No line of a builder holds a line break. -/
theorem lines (h : plan.OneLine package target) :
    ∀ line ∈ shown (plan.lines package target), '\n' ∉ line := by
  intro line hline
  obtain ⟨whole, hwhole, rfl⟩ := List.mem_map.mp hline
  have hall := h.layout.whole 0
  rw [layout_lines] at hall
  exact (hall whole hwhole).chars (by decide)

end OneLine

end Plan

/-! ## Blueprints -/

/-- The names of a blueprint are words, and its types stand on one line each. -/
structure Blueprint.Spelled (blueprint : Blueprint) : Prop where
  package    : Go.IsWord blueprint.package.toList
  target     : Go.IsWord blueprint.target.toList
  names      : ∀ member ∈ blueprint.members, Go.IsWord member.name.toList
  signatures : ∀ member ∈ blueprint.members, '\n' ∉ member.signature.toList

/-- The plan for names that are words has no line breaks. -/
theorem Blueprint.Spelled.oneLine {blueprint : Blueprint} (h : blueprint.Spelled) {plan : Plan}
    (hplan : Plan.of blueprint.members = .ok plan) :
    plan.OneLine blueprint.package blueprint.target := by
  have hbreak : Text.isIdentPart '\n' = false := by decide
  have hsound := Plan.of_sound hplan
  refine ⟨h.package.not_mem hbreak, h.target.not_mem hbreak, ?_, fun slot hslot => ?_⟩
  · have hnames : ∀ name ∈ receiverNames, '\n' ∉ name.toList := by decide
    exact hnames _ (Plan.receiver_mem hplan)
  · have hmember : slot.member ∈ blueprint.members :=
      hsound.members ▸ List.mem_map_of_mem hslot
    have hname := (h.names _ hmember).not_mem hbreak
    refine ⟨fun hident => hname ?_, hname, h.signatures _ hmember⟩
    rw [hsound.named slot hslot] at hident
    exact mem_of_mem_unexported (.of_lt (by decide) (by decide)) (by decide) hident

/-- The text of a blueprint is the lines of its plan. -/
theorem Blueprint.plan_of_render {blueprint : Blueprint} {text : String}
    (hrender : blueprint.render = .ok text) :
    ∃ plan : Plan, Plan.of blueprint.members = .ok plan ∧
      text.toList = unlines (Plan.shown (plan.lines blueprint.package blueprint.target)) := by
  obtain ⟨plan, hplan, rfl⟩ := Blueprint.render_eq_ok_iff.mp hrender
  refine ⟨plan, hplan, ?_⟩
  rw [print_eq, Plan.layout_lines, String.toList_ofList]
  rfl

/-- The lines of the text of a blueprint. -/
theorem Blueprint.lines_of_render {blueprint : Blueprint} {text : String}
    (h : blueprint.Spelled) (hrender : blueprint.render = .ok text) :
    ∃ plan : Plan, plan.slots.map (·.member) = blueprint.members ∧
      (∀ slot ∈ plan.slots, Plan.Readable slot) ∧
      (∀ line ∈ Plan.shown (plan.lines blueprint.package blueprint.target), '\n' ∉ line) ∧
      text.toList = unlines (Plan.shown (plan.lines blueprint.package blueprint.target)) := by
  obtain ⟨plan, hplan, htext⟩ := plan_of_render hrender
  have hsound := Plan.of_sound hplan
  have hparen : Text.isIdentPart '(' = false := by decide
  refine ⟨plan, hsound.members, fun slot hslot => ⟨hsound.named slot hslot, ?_⟩,
    (h.oneLine hplan).lines, htext⟩
  exact (h.names _ (hsound.members ▸ List.mem_map_of_mem hslot)).not_mem hparen

/-- **Blueprints with the same text are the same**: if their names are words and their types stand
    on one line each, they have the same package, the same struct and the same members with the
    same types in the same order. -/
theorem Blueprint.render_injective {a b : Blueprint} {text : String} (ha : a.Spelled)
    (hb : b.Spelled) (hrender : a.render = .ok text) (hrender' : b.render = .ok text) : a = b := by
  obtain ⟨plan, hmembers, hslots, hwhole, hlines⟩ := a.lines_of_render ha hrender
  obtain ⟨plan', hmembers', hslots', hwhole', hlines'⟩ := b.lines_of_render hb hrender'
  obtain ⟨hpackage, htarget, hsame⟩ := Plan.eq_of_lines hslots hslots'
    (unlines_injective hwhole hwhole' (hlines.symm.trans hlines'))
  obtain ⟨package, target, members⟩ := a
  obtain ⟨package', target', members'⟩ := b
  simp only [Blueprint.mk.injEq]
  exact ⟨hpackage, htarget, hmembers.symm.trans (hsame.trans hmembers')⟩

/-- The hypotheses of `render_injective` are met by a struct with two fields. -/
theorem Blueprint.render_injective_pair :
    let blueprint : Blueprint := ⟨"models", "User", [⟨"ID", "func(a, b) int"⟩, ⟨"Name", "string"⟩]⟩
    blueprint.Spelled ∧ ∃ text, blueprint.render = .ok text ∧
      ∀ other : Blueprint, other.Spelled → other.render = .ok text → blueprint = other := by
  intro blueprint
  have hspelled : blueprint.Spelled :=
    ⟨by decide, by decide, by decide, by decide⟩
  have hok : blueprint.render.isOk = true := by decide
  cases htext : blueprint.render with
  | error e => rw [htext] at hok; cases hok
  | ok text =>
      exact ⟨hspelled, text, rfl, fun other hother hrender =>
        Blueprint.render_injective hspelled hother htext hrender⟩

end FluentBuilder

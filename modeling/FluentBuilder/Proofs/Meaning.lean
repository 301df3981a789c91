import FluentBuilder.Proofs.Code
import FluentBuilder.Proofs.Conflicts

/-!
# Meaning — what a generated builder builds

`Plan.code` is the syntax of the builder of a plan, and `Plan.layout_eq` says that the generated
text spells it. A plan keeps the identifiers of its members and the name of the receiver apart
(`Plan.Sound`), so each setter changes one member of the builder and no other.

* **`Plan.call_stored`** — what one call of a setter does to a builder.
* **`Plan.calls_stored`** — what a chain of calls does, by induction on the chain.
* **`Blueprint.render_meaning`** — the value that is built has for each member the argument of the
  last call of its setter, or the zero value.
-/

namespace FluentBuilder

/-! ## The identifiers of a plan -/

/-- What the identifiers of a plan for members are like. -/
structure Plan.Sound (plan : Plan) (members : List Member) : Prop where
  members  : plan.slots.map (·.member) = members
  named    : ∀ slot ∈ plan.slots, slot.ident = unexported slot.member.name
  distinct : (plan.slots.map (·.ident)).Nodup
  notBuild : ∀ slot ∈ plan.slots, slot.member.name ≠ buildName
  receiver : ∀ slot ∈ plan.slots, slot.ident ≠ plan.receiver

/-- **A plan keeps its names apart.** -/
theorem Plan.of_sound {members : List Member} {plan : Plan} (h : Plan.of members = .ok plan) :
    plan.Sound members := by
  obtain ⟨hclashless, hslots, hfree⟩ := Plan.of_eq_ok_iff.mp h
  have hreceiver := (freeReceiver?_eq_some.mp hfree).1
  constructor <;> rw [hslots]
  case members =>
    rw [List.map_map]
    exact List.map_id members
  case named => exact List.forall_mem_map.mpr fun _ _ => rfl
  case distinct =>
    rw [List.map_map]
    exact hclashless.distinct
  case notBuild => exact List.forall_mem_map.mpr hclashless.notBuild
  case receiver =>
    refine List.forall_mem_map.mpr fun member hmember heq => hreceiver ?_
    exact List.mem_map.mpr ⟨member, hmember, heq⟩

namespace Plan

/-- The identifiers of a plan are those of its members. -/
theorem Sound.idents {plan : Plan} {members : List Member} (h : plan.Sound members) :
    plan.slots.map (·.ident) = members.map (unexported ·.name) := by
  rw [← h.members, List.map_map]
  exact List.map_congr_left h.named

/-- The names of a plan are those of its members. -/
theorem Sound.names {plan : Plan} {members : List Member} (h : plan.Sound members) :
    plan.slots.map (·.member.name) = members.map (·.name) := by
  rw [← h.members, List.map_map]
  rfl

/-- Members with one name have one identifier, and the other way round. -/
theorem Sound.ident_eq_iff {plan : Plan} {members : List Member} (h : plan.Sound members)
    {a b : Slot} (ha : a ∈ plan.slots) (hb : b ∈ plan.slots) :
    a.ident = b.ident ↔ a.member.name = b.member.name := by
  constructor
  · intro heq
    rw [List.inj_on_of_nodup_map h.distinct ha hb heq]
  · intro heq
    rw [h.named a ha, h.named b hb, heq]

/-- The names of the members of a plan are pairwise different. -/
theorem Sound.names_nodup {plan : Plan} {members : List Member} (h : plan.Sound members) :
    (plan.slots.map (·.member.name)).Nodup := by
  have hidents : plan.slots.map (·.ident) = (plan.slots.map (·.member.name)).map unexported := by
    rw [List.map_map]
    exact List.map_congr_left h.named
  exact List.Nodup.of_map unexported (hidents ▸ h.distinct)

/-- No member of a plan is named like the last method. -/
theorem Sound.buildName_notMem {plan : Plan} {members : List Member} (h : plan.Sound members) :
    buildName ∉ plan.slots.map (·.member.name) := by
  intro hmem
  obtain ⟨slot, hslot, heq⟩ := List.mem_map.mp hmem
  exact h.notBuild slot hslot heq

/-! ## The code of a plan -/

/-- The setter of a member. -/
def setter (plan : Plan) (slot : Slot) : Setter where
  receiver := plan.receiver
  name := slot.member.name
  parameter := slot.ident
  type := slot.member.signature
  body := [.assign ⟨plan.receiver, slot.ident⟩ slot.ident, .giveBack plan.receiver]

/-- The builder of a plan. -/
def code (plan : Plan) (package target : String) : Code where
  package := package
  target := target
  members := plan.slots.map fun slot => (slot.ident, slot.member.signature)
  setters := plan.slots.map plan.setter
  finish :=
    { receiver := plan.receiver
      name := buildName
      entries := plan.slots.map fun slot => (slot.member.name, ⟨plan.receiver, slot.ident⟩) }

/-- **The text of a builder spells its code.** -/
theorem layout_eq (plan : Plan) (package target : String) :
    plan.layout package target = (plan.code package target).layout := by
  simp only [layout, Code.layout, code, typeLayout, Code.typeLayout, buildLayout, resultLayout,
    Finish.resultLayout, List.map_map, List.flatMap_map, List.isEmpty_map, Function.comp_def]
  rfl

/-! ## One call -/

section

variable {V : Type}

/-- A builder of a plan whose members have given values. -/
def store (plan : Plan) (values : Slot → V) : Store V :=
  plan.slots.map fun slot => (slot.ident, values slot)

/-- The value of one of several members with different identifiers. -/
theorem lookup_slots {slots : List Slot} (h : (slots.map (·.ident)).Nodup) (values : Slot → V)
    {slot : Slot} (hslot : slot ∈ slots) :
    (slots.map fun slot => (slot.ident, values slot)).lookup slot.ident = some (values slot) := by
  induction slots with
  | nil => cases hslot
  | cons first rest ih =>
      rw [List.map_cons, List.nodup_cons] at h
      rw [List.map_cons, List.lookup_cons]
      rcases List.mem_cons.mp hslot with rfl | hrest
      · rw [beq_self_eq_true]
      · have hne : slot.ident ≠ first.ident := fun heq => h.1 (heq ▸ List.mem_map_of_mem hrest)
        rw [beq_false_of_ne hne]
        exact ih h.2 hrest

/-- Changing the value of a member leaves the others as they are. -/
theorem Sound.set_store {plan : Plan} {members : List Member} (h : plan.Sound members)
    (values : Slot → V) {slot : Slot} (hslot : slot ∈ plan.slots) (v : V) :
    (plan.store values).set? slot.ident v = some (plan.store fun other =>
      if other.member.name = slot.member.name then v else values other) := by
  have hany : (plan.store values).any (·.1 == slot.ident) = true :=
    List.any_eq_true.mpr
      ⟨(slot.ident, values slot), List.mem_map_of_mem hslot, beq_self_eq_true _⟩
  rw [Store.set?, if_pos hany, store, store, List.map_map]
  congr 1
  refine List.map_congr_left fun other hother => ?_
  have hiff := h.ident_eq_iff hother hslot
  by_cases hname : other.member.name = slot.member.name
  · simp [hname, hiff.mpr hname]
  · simp [hname, hiff]

/-- **A setter stores its argument in its member and leaves the others as they are.** -/
theorem Sound.setter_call {plan : Plan} {members : List Member} (h : plan.Sound members)
    (values : Slot → V) {slot : Slot} (hslot : slot ∈ plan.slots) (v : V) :
    (plan.setter slot).call (plan.store values) v = some (plan.store fun other =>
      if other.member.name = slot.member.name then v else values other) := by
  -- The parameter does not hide the receiver.
  have hne : plan.receiver ≠ slot.ident := (h.receiver slot hslot).symm
  have hargument : ([(plan.receiver, .builder), (slot.ident, .value v)] : Scope V).lookup
      slot.ident = some (.value v) := by
    rw [List.lookup_cons, beq_false_of_ne hne.symm]
    exact List.lookup_cons_self
  simp only [Setter.call, setter, if_neg hne, runBody, List.lookup_cons_self, hargument,
    h.set_store values hslot v, Option.bind_some]

/-- The arguments of calls that were made: the last one that a setter got, or a zero value. -/
def lastOr (zero : String → V) (calls : List (String × V)) (slot : Slot) : V :=
  (calls.reverse.lookup slot.member.name).getD (zero slot.member.signature)

/-- **One more call** of a setter changes the member that it is named after. -/
theorem Sound.call_stored {plan : Plan} {members : List Member} (h : plan.Sound members)
    (package target : String) (zero : String → V) (calls : List (String × V)) {call : String × V}
    (hcall : ∃ member ∈ members, member.name = call.1) :
    (plan.code package target).call (plan.store (lastOr zero calls)) call =
      some (plan.store (lastOr zero (calls ++ [call]))) := by
  have hfound : (plan.slots.find? (·.member.name == call.1)).isSome = true := by
    obtain ⟨member, hmember, hname⟩ := hcall
    rw [← h.members] at hmember
    obtain ⟨slot, hslot, rfl⟩ := List.mem_map.mp hmember
    exact List.find?_isSome.mpr ⟨slot, hslot, beq_iff_eq.mpr hname⟩
  obtain ⟨slot, hslot⟩ := Option.isSome_iff_exists.mp hfound
  have hname : slot.member.name = call.1 := by simpa using List.find?_some hslot
  have hfind : (plan.code package target).setters.find? (·.name == call.1) =
      some (plan.setter slot) := by
    simp only [code, List.find?_map, Function.comp_def]
    exact congrArg (Option.map plan.setter) hslot
  rw [Code.call, hfind, Option.bind_some, h.setter_call _ (List.mem_of_find?_eq_some hslot), hname]
  congr 2
  funext other
  obtain ⟨name, v⟩ := call
  rw [lastOr, lastOr, List.reverse_append, List.reverse_singleton, List.singleton_append,
    List.lookup_cons]
  by_cases heq : other.member.name = name
  · simp [heq]
  · rw [if_neg heq, beq_false_of_ne heq]

/-! ## A chain of calls -/

/-- **A chain of calls** stores the last argument of each setter. -/
theorem Sound.calls_stored {plan : Plan} {members : List Member} (h : plan.Sound members)
    (package target : String) (zero : String → V) {calls : List (String × V)}
    (hcalls : ∀ call ∈ calls, ∃ member ∈ members, member.name = call.1) :
    calls.foldlM (plan.code package target).call ((plan.code package target).new zero) =
      some (plan.store (lastOr zero calls)) := by
  -- The calls are taken off the end, since the last one decides.
  induction calls using List.reverseRecOn with
  | nil =>
      simp [Code.new, code, store, lastOr, Function.comp_def]
  | append_singleton calls call ih =>
      rw [List.foldlM_append, ih fun c hc => hcalls c (List.mem_append_left _ hc)]
      have hlast := h.call_stored package target zero calls (hcalls call (by simp))
      simp [hlast]

/-- The entries of a struct with a value each. -/
theorem mapM_slots {slots : List Slot} {entry : Slot → Option (String × V)}
    {value : Slot → String × V} (h : ∀ slot ∈ slots, entry slot = some (value slot)) :
    slots.mapM entry = some (slots.map value) := by
  induction slots with
  | nil => rfl
  | cons slot rest ih =>
      rw [List.forall_mem_cons] at h
      rw [List.mapM_cons, h.1, ih h.2]
      rfl

/-- The last method reads each member. -/
theorem Sound.finish_call {plan : Plan} {members : List Member} (h : plan.Sound members)
    (package target : String) (values : Slot → V) :
    (plan.code package target).finish.call (plan.store values) =
      some (plan.slots.map fun slot => (slot.member.name, values slot)) := by
  simp only [Finish.call, code, List.mapM_map, Function.comp_def]
  refine mapM_slots fun slot hslot => ?_
  simp only [Selector.value?, List.lookup_cons_self, store, lookup_slots h.distinct values hslot,
    Option.map_some]

/-- A builder breaks no rule about names. -/
theorem Sound.declaresOnce {plan : Plan} {members : List Member} (h : plan.Sound members)
    (package target : String) : (plan.code package target).declaresOnce = true := by
  simp only [Code.declaresOnce, code, List.map_map, Function.comp_def, Bool.and_eq_true,
    decide_eq_true_eq, List.nodup_cons]
  exact ⟨⟨h.distinct, h.buildName_notMem, h.names_nodup⟩, h.names_nodup⟩

end

end Plan

/-- **What a generated builder builds.** The text of a builder spells code for which, whatever
    setters are called in whatever order and with whatever arguments, the built struct has one
    entry for each member, in order: the argument of the last call of the setter of the member, or
    the zero value of its type if its setter was never called. -/
theorem Blueprint.render_meaning {blueprint : Blueprint} {text : String}
    (h : blueprint.render = .ok text) :
    ∃ plan, Plan.of blueprint.members = .ok plan ∧
      text = Layout.print .tab (plan.code blueprint.package blueprint.target).layout ∧
      ∀ {V : Type} (zero : String → V) (calls : List (String × V)),
        (∀ call ∈ calls, ∃ member ∈ blueprint.members, member.name = call.1) →
        (plan.code blueprint.package blueprint.target).run zero calls =
          some (blueprint.members.map fun member =>
            (member.name, (calls.reverse.lookup member.name).getD (zero member.signature))) := by
  unfold Blueprint.render at h
  cases hplan : Plan.of blueprint.members with
  | error e => rw [hplan] at h; cases h
  | ok plan =>
      rw [hplan] at h
      cases h
      have hsound := Plan.of_sound hplan
      refine ⟨plan, rfl, by rw [plan.layout_eq], fun zero calls hcalls => ?_⟩
      rw [Code.run, if_pos (hsound.declaresOnce _ _), hsound.calls_stored _ _ zero hcalls,
        Option.bind_some, hsound.finish_call, ← hsound.members, List.map_map]
      rfl

/-- The hypothesis of `render_meaning` is met by a struct with two fields, one of which is set
    twice. -/
theorem Blueprint.render_meaning_twice :
    ∃ text, (Blueprint.mk "models" "User" [⟨"Name", "string"⟩, ⟨"Type", "int"⟩]).render = .ok text ∧
      ∃ plan, Plan.of [⟨"Name", "string"⟩, ⟨"Type", "int"⟩] = .ok plan ∧
        (plan.code "models" "User").run (fun _ => 0) [("Name", 1), ("Type", 2), ("Name", 3)] =
          some [("Name", 3), ("Type", 2)] := by
  let blueprint : Blueprint := ⟨"models", "User", [⟨"Name", "string"⟩, ⟨"Type", "int"⟩]⟩
  have hok : blueprint.render.isOk = true := by decide
  cases htext : blueprint.render with
  | error e => rw [htext] at hok; cases hok
  | ok text =>
      obtain ⟨plan, hplan, -, hrun⟩ := Blueprint.render_meaning htext
      refine ⟨text, rfl, plan, hplan, (hrun (fun _ => 0) _ ?_).trans (by decide)⟩
      simp [blueprint]

end FluentBuilder

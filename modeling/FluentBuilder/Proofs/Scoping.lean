import FluentBuilder.Proofs.Meaning

/-!
# Scoping — the names that a generated method declares itself

A method declares its receiver, and a setter its parameter as well. In the body these names hide
each other and every type of the same spelling. A receiver keeps away from the identifiers of all
members, but nobody compares it with the name of the struct that is built.

* **`Blueprint.receiver_apart`** — what the receiver hides and what it does not.
-/

namespace FluentBuilder

/-- The names that a setter declares. -/
def Setter.locals (setter : Setter) : List String := [setter.receiver, setter.parameter]

/-- The names that the last method declares. -/
def Finish.locals (finish : Finish) : List String := [finish.receiver]

/-- **What a receiver hides.** The receiver of a builder is the first of the candidates that no
    member has as its identifier, so in no setter the parameter hides it. It hides the struct in
    the body of the last method exactly if the struct has the name of that candidate, which no
    struct has whose name is not among the candidates. -/
theorem Blueprint.receiver_apart {blueprint : Blueprint} {text : String}
    (h : blueprint.render = .ok text) :
    ∃ plan, Plan.of blueprint.members = .ok plan ∧
      text = Layout.print .tab (plan.code blueprint.package blueprint.target).layout ∧
      freeReceiver? blueprint.members = some plan.receiver ∧
      (∀ slot ∈ plan.slots, slot.ident ≠ plan.receiver) ∧
      (∀ setter ∈ (plan.code blueprint.package blueprint.target).setters,
        setter.receiver = plan.receiver ∧ setter.locals.Nodup) ∧
      (blueprint.target ∈ (plan.code blueprint.package blueprint.target).finish.locals ↔
        freeReceiver? blueprint.members = some blueprint.target) ∧
      (blueprint.target ∉ receiverNames →
        blueprint.target ∉ (plan.code blueprint.package blueprint.target).finish.locals) := by
  unfold Blueprint.render at h
  cases hplan : Plan.of blueprint.members with
  | error e => rw [hplan] at h; cases h
  | ok plan =>
      rw [hplan] at h
      cases h
      have hsound := Plan.of_sound hplan
      have hfree := Plan.of_receiver hplan
      have hlocal : blueprint.target ∈ (plan.code blueprint.package blueprint.target).finish.locals ↔
          blueprint.target = plan.receiver := List.mem_singleton
      refine ⟨plan, rfl, by rw [plan.layout_eq], hfree, hsound.receiver, ?_, ?_, ?_⟩
      · intro setter hsetter
        obtain ⟨slot, hslot, rfl⟩ := List.mem_map.mp hsetter
        have hne := hsound.receiver slot hslot
        exact ⟨rfl, by simpa [Setter.locals, Plan.setter] using hne.symm⟩
      · rw [hlocal, hfree, Option.some.injEq, eq_comm]
      · rw [hlocal]
        intro hother htarget
        exact hother (htarget ▸ List.mem_of_find?_eq_some hfree)

/-- The hypothesis of `receiver_apart` is met by a struct `b` with a field whose identifier is `b`
    as well. -/
theorem Blueprint.receiver_apart_taken :
    ∃ text, (Blueprint.mk "models" "b" [⟨"B", "int"⟩]).render = .ok text ∧
      ∃ plan, Plan.of [⟨"B", "int"⟩] = .ok plan ∧ plan.receiver = "bldr" ∧
        "b" ∉ (plan.code "models" "b").finish.locals := by
  have hok : (Blueprint.mk "models" "b" [⟨"B", "int"⟩]).render.isOk = true := by decide
  cases htext : (Blueprint.mk "models" "b" [⟨"B", "int"⟩]).render with
  | error e => rw [htext] at hok; cases hok
  | ok text =>
      obtain ⟨plan, hplan, -, hreceiver, -, -, hhidden, -⟩ := Blueprint.receiver_apart htext
      have hfree : freeReceiver? [⟨"B", "int"⟩] = some "bldr" := by decide
      have hname : plan.receiver = "bldr" := Option.some.inj (hreceiver.symm.trans hfree)
      refine ⟨text, rfl, plan, hplan, hname, fun hmem => ?_⟩
      have hsame := hfree.symm.trans (hhidden.mp hmem)
      simp at hsame

/-- **A receiver can hide the struct.** In the last method of the builder for a struct `b` without
    fields, `b` is the receiver. -/
theorem Blueprint.receiver_hides_target :
    ¬ ∀ (blueprint : Blueprint) (text : String) (plan : Plan), blueprint.render = .ok text →
      Plan.of blueprint.members = .ok plan →
        (∀ slot ∈ plan.slots, slot.ident ≠ plan.receiver) ∧ blueprint.target ≠ plan.receiver := by
  intro h
  exact (h ⟨"p", "b", []⟩ _ ⟨[], "b"⟩ rfl rfl).2 rfl

end FluentBuilder

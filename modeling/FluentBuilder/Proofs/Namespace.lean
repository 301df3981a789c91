import FluentBuilder.Proofs.Casing
import FluentBuilder.Proofs.Meaning

/-!
# Namespace — the names that are declared on a builder

In Go the members and the methods of a type share one namespace. A plan compares only some of these
names: the identifiers of its members with each other, and the name of each setter with that of the
last method. The others differ because of their case: a setter has the name of a field, and an
identifier has lost the capital in front of it, whether it was escaped or not.

* **`beginsCapital_unexported`** — no identifier begins like the name that it stands for.
* **`Blueprint.declared_nodup`** — all names declared on a builder are different.
-/

namespace FluentBuilder

/-- Decide whether a name begins with a capital letter of ASCII. -/
def beginsCapital (name : String) : Bool := name.toList.head?.any Char.isUpper

/-- Lowering the case of a name lowers its first letter. -/
theorem lowered_of_isUpper {c : Char} (h : c.isUpper = true) (rest : List Char) :
    ∃ others, lowered (c :: rest) = c.toLower :: others := by
  obtain ⟨others, hothers⟩ := lowered_eq_append c rest
  rw [(Text.lowerChar_of_isUpper h).1, List.singleton_append] at hothers
  exact ⟨others, hothers⟩

/-- **The identifier for a name with a capital in front has none.** -/
theorem beginsCapital_unexported {name : String} (h : beginsCapital name = true) :
    beginsCapital (unexported name) = false := by
  unfold beginsCapital at h
  cases hname : name.toList with
  | nil => rw [hname] at h; cases h
  | cons c rest =>
      have hempty : name ≠ "" := by
        rintro rfl
        cases hname
      rw [hname] at h
      obtain ⟨others, hlowered⟩ := lowered_of_isUpper h rest
      rcases unexported_cases hempty with ⟨hident, -⟩ | ⟨hident, -⟩
      · rw [hident, beginsCapital, escape, String.toList_ofList]
        rfl
      · rw [hident, beginsCapital, String.toList_ofList, hname, hlowered]
        exact (Text.lowerChar_of_isUpper h).2

/-- The names declared on a builder: its members, its setters and its last method. -/
def Code.declared (code : Code) : List String :=
  code.members.map (·.1) ++ code.setters.map (·.name) ++ [code.finish.name]

/-- The names declared on the builder of a plan. -/
theorem Plan.Sound.declared {plan : Plan} {members : List Member} (h : plan.Sound members)
    (package target : String) :
    (plan.code package target).declared =
      members.map (unexported ·.name) ++ members.map (·.name) ++ [buildName] := by
  rw [← h.idents, ← h.names]
  simp only [Code.declared, Plan.code, Plan.setter, List.map_map, Function.comp_def]

/-- The names declared on the builder of a plan are different if every member has a name with a
    capital in front. -/
theorem Plan.Sound.nodup_declared {plan : Plan} {members : List Member} (h : plan.Sound members)
    (hcapital : ∀ member ∈ members, beginsCapital member.name = true) :
    (members.map (unexported ·.name) ++ members.map (·.name) ++ [buildName]).Nodup := by
  have hcapitals : ∀ name ∈ members.map (·.name) ++ [buildName], beginsCapital name = true := by
    rw [List.forall_mem_append, List.forall_mem_map, List.forall_mem_singleton]
    exact ⟨hcapital, by decide⟩
  have hidents : (members.map (unexported ·.name)).Nodup := h.idents ▸ h.distinct
  have hnames : (members.map (·.name) ++ [buildName]).Nodup := by
    rw [← List.concat_eq_append, ← h.names]
    exact h.names_nodup.concat h.buildName_notMem
  rw [List.append_assoc, List.nodup_append]
  refine ⟨hidents, hnames, fun ident hident name hname heq => ?_⟩
  obtain ⟨member, hmember, rfl⟩ := List.mem_map.mp hident
  have hsmall := beginsCapital_unexported (hcapital member hmember)
  rw [heq, hcapitals name hname] at hsmall
  cases hsmall

/-- **The names declared on a builder are different.** If every field has a name that begins with a
    capital letter, a builder for `n` fields declares an identifier and a setter for each of them
    and its last method, which are `2 * n + 1` different names. -/
theorem Blueprint.declared_nodup {blueprint : Blueprint} {text : String}
    (h : blueprint.render = .ok text)
    (hcapital : ∀ member ∈ blueprint.members, beginsCapital member.name = true) :
    ∃ plan, Plan.of blueprint.members = .ok plan ∧
      text = Layout.print .tab (plan.code blueprint.package blueprint.target).layout ∧
      let names := (plan.code blueprint.package blueprint.target).declared
      names = blueprint.members.map (unexported ·.name) ++ blueprint.members.map (·.name) ++
        [buildName] ∧
      names.Nodup ∧ names.length = 2 * blueprint.members.length + 1 := by
  unfold Blueprint.render at h
  cases hplan : Plan.of blueprint.members with
  | error e => rw [hplan] at h; cases h
  | ok plan =>
      rw [hplan] at h
      cases h
      have hsound := Plan.of_sound hplan
      refine ⟨plan, rfl, by rw [plan.layout_eq], ?_⟩
      simp only [hsound.declared, true_and]
      refine ⟨hsound.nodup_declared hcapital, ?_⟩
      simp only [List.length_append, List.length_map, List.length_singleton]
      omega

/-- The hypotheses of `declared_nodup` are met by a struct whose fields have an acronym, a reserved
    word, digits, an underscore and letters that are not of ASCII in their names. -/
theorem Blueprint.declared_nodup_cases :
    let blueprint : Blueprint := ⟨"models", "User",
      [⟨"ID", "int"⟩, ⟨"Type", "string"⟩, ⟨"X_1", "bool"⟩, ⟨"Größe", "int"⟩]⟩
    ∃ text, blueprint.render = .ok text ∧
      (["id", "_type", "x_1", "größe", "ID", "Type", "X_1", "Größe", "Build"] : List String).Nodup := by
  intro blueprint
  have hok : blueprint.render.isOk = true := by decide
  cases htext : blueprint.render with
  | error e => rw [htext] at hok; cases hok
  | ok text =>
      obtain ⟨plan, -, -, hnames, hnodup, -⟩ := Blueprint.declared_nodup htext (by decide)
      refine ⟨text, rfl, ?_⟩
      rw [hnames] at hnodup
      have hidents : blueprint.members.map (unexported ·.name) = ["id", "_type", "x_1", "größe"] := by
        decide
      rwa [hidents] at hnodup

end FluentBuilder

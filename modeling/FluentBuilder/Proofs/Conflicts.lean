import Mathlib.Data.List.Induction
import Mathlib.Data.List.Nodup
import FluentBuilder.Builder

/-!
# Conflicts — which builders are refused, and what for

Members get their identifiers one after the other. What has been given when a member is reached are
the identifiers of the members in front of it, so the first member that clashes with the last method
or with an earlier member ends the loop, and the names of receivers are tried only if there is none.

* **`assignIdents_append`** — what the loop has done when it passed members that do not clash.
* **`assignIdents_clash`** — what the loop does at a member that clashes.
* **`Plan.of_eq_error_iff`**, **`Plan.of_eq_ok_iff`** — why there is no plan, and what a plan is.
* **`Blueprint.render_refused_iff`** — which builders are refused, why, and the receiver of the
  others.
-/

namespace FluentBuilder

/-! ## Clashes -/

/-- Members whose names clash neither with the last method nor with each other. -/
structure Clashless (members : List Member) : Prop where
  notBuild : ∀ member ∈ members, member.name ≠ buildName
  distinct : (members.map (unexported ·.name)).Nodup

/-- Why a member clashes behind earlier ones: it is named like the last method, or else just one of
    the earlier members has its identifier. -/
inductive Clash (earlier : List Member) (member : Member) : Conflict → Prop where
  | build (hname : member.name = buildName) : Clash earlier member .buildMethod
  | repeated {previous : Member} (hname : member.name ≠ buildName) (hprevious : previous ∈ earlier)
      (hident : unexported previous.name = unexported member.name)
      (hsole : ∀ other ∈ earlier, unexported other.name = unexported member.name →
        other = previous) :
      Clash earlier member (.sameIdentifier previous.name member.name (unexported member.name))

/-- The clash of the first member that has one. -/
def FirstClash (members : List Member) (conflict : Conflict) : Prop :=
  ∃ earlier member later, members = earlier ++ member :: later ∧ Clashless earlier ∧
    Clash earlier member conflict

theorem Clashless.nil : Clashless [] := ⟨nofun, .nil⟩

/-- Members that do not clash do so without the last ones. -/
theorem Clashless.left {members others : List Member} (h : Clashless (members ++ others)) :
    Clashless members := by
  refine ⟨fun member hmember => h.notBuild member (List.mem_append_left _ hmember), ?_⟩
  have hdistinct := h.distinct
  rw [List.map_append] at hdistinct
  exact hdistinct.of_append_left

/-- One more member does not clash if its name and its identifier are new. -/
theorem clashless_append_singleton {members : List Member} {member : Member} :
    Clashless (members ++ [member]) ↔
      Clashless members ∧ member.name ≠ buildName ∧
        unexported member.name ∉ members.map (unexported ·.name) := by
  constructor
  · intro h
    have hdistinct := h.distinct
    rw [List.map_append, List.map_singleton, List.nodup_append'] at hdistinct
    exact ⟨h.left, h.notBuild member (by simp), List.disjoint_singleton.mp hdistinct.2.2⟩
  · rintro ⟨h, hname, hident⟩
    refine ⟨?_, ?_⟩
    · rw [List.forall_mem_append, List.forall_mem_singleton]
      exact ⟨h.notBuild, hname⟩
    · rw [List.map_append, List.map_singleton, ← List.concat_eq_append]
      exact h.distinct.concat hident

/-- **Members clash or they do not**: if they do, there is a first one that clashes. -/
theorem clashless_or_firstClash (members : List Member) :
    Clashless members ∨ ∃ conflict, FirstClash members conflict := by
  -- The members are taken off the end, since each is compared with those in front of it.
  induction members using List.reverseRecOn with
  | nil => exact .inl .nil
  | append_singleton members member ih =>
      rcases ih with h | ⟨conflict, earlier, first, later, rfl, hearlier, hclash⟩
      · by_cases hname : member.name = buildName
        · exact .inr ⟨_, members, member, [], rfl, h, .build hname⟩
        · by_cases hident : unexported member.name ∈ members.map (unexported ·.name)
          · obtain ⟨previous, hprevious, heq⟩ := List.mem_map.mp hident
            refine .inr ⟨_, members, member, [], rfl, h, .repeated hname hprevious heq ?_⟩
            intro other hother hsame
            exact List.inj_on_of_nodup_map h.distinct hother hprevious (hsame.trans heq.symm)
          · exact .inl (clashless_append_singleton.mpr ⟨h, hname, hident⟩)
      · exact .inr ⟨conflict, earlier, first, later ++ [member], by simp, hearlier, hclash⟩

/-- Members with a first clash do not stand without one. -/
theorem FirstClash.not_clashless {members : List Member} {conflict : Conflict}
    (h : FirstClash members conflict) : ¬ Clashless members := by
  obtain ⟨earlier, member, later, rfl, -, hclash⟩ := h
  intro hclashless
  rw [← List.singleton_append, ← List.append_assoc] at hclashless
  obtain ⟨-, hname, hident⟩ := clashless_append_singleton.mp hclashless.left
  cases hclash with
  | build heq => exact hname heq
  | repeated _ hprevious heq _ => exact hident (List.mem_map.mpr ⟨_, hprevious, heq⟩)

theorem clashless_iff_not_firstClash {members : List Member} :
    Clashless members ↔ ¬ ∃ conflict, FirstClash members conflict :=
  ⟨fun h ⟨_, hfirst⟩ => hfirst.not_clashless h, (clashless_or_firstClash members).resolve_right⟩

/-- Members have a first clash if a name or an identifier clashes. -/
theorem exists_firstClash_iff {members : List Member} :
    (∃ conflict, FirstClash members conflict) ↔
      (∃ member ∈ members, member.name = buildName) ∨
        ¬ (members.map (unexported ·.name)).Nodup := by
  rw [← not_not (a := ∃ conflict, _), ← clashless_iff_not_firstClash]
  constructor
  · intro h
    by_contra hnone
    rw [not_or, not_not] at hnone
    exact h ⟨fun member hmember hname => hnone.1 ⟨member, hmember, hname⟩, hnone.2⟩
  · rintro (⟨member, hmember, hname⟩ | hrepeated) hclashless
    · exact hclashless.notBuild member hmember hname
    · exact hrepeated hclashless.distinct

/-! ## The loop over the members -/

/-- A member with its identifier. -/
def Member.slot (member : Member) : Slot := ⟨member, unexported member.name⟩

/-- What has been given to members, the last one first. -/
def given (members : List Member) : List Slot := (members.map Member.slot).reverse

theorem given_append_singleton (members : List Member) (member : Member) :
    given (members ++ [member]) = member.slot :: given members := by
  simp [given]

/-- What has been given are the slots of the members. -/
theorem mem_given {members : List Member} {slot : Slot} :
    slot ∈ given members ↔ ∃ member ∈ members, member.slot = slot := by
  rw [given, List.mem_reverse, List.mem_map]

/-- **One step**: the loop passes a member that does not clash. -/
theorem assignIdents_cons {earlier : List Member} {member : Member}
    (h : Clashless (earlier ++ [member])) (rest : List Member) :
    assignIdents (given earlier) (member :: rest) =
      (assignIdents (given (earlier ++ [member])) rest).map (member.slot :: ·) := by
  obtain ⟨-, hname, hident⟩ := clashless_append_singleton.mp h
  have hfresh : (given earlier).find? (·.ident == unexported member.name) = none := by
    rw [List.find?_eq_none]
    intro slot hslot heq
    obtain ⟨previous, hprevious, rfl⟩ := mem_given.mp hslot
    exact hident (List.mem_map.mpr ⟨previous, hprevious, beq_iff_eq.mp heq⟩)
  simp only [assignIdents, beq_false_of_ne hname, Bool.false_eq_true, if_false, hfresh]
  rw [given_append_singleton, Member.slot]
  cases assignIdents (⟨member, unexported member.name⟩ :: given earlier) rest <;> rfl

/-- **One step**: the loop ends at a member that clashes. -/
theorem assignIdents_clash {earlier : List Member} {member : Member} {conflict : Conflict}
    (h : Clash earlier member conflict) (rest : List Member) :
    assignIdents (given earlier) (member :: rest) = .error conflict := by
  cases h with
  | build hname => rw [assignIdents, if_pos (beq_iff_eq.mpr hname)]
  | @repeated previous hname hprevious hident hsole =>
      -- The loop looks from the last slot back, but only one slot has the identifier.
      have hfound : (given earlier).find? (·.ident == unexported member.name) =
          some previous.slot := by
        cases hfind : (given earlier).find? (·.ident == unexported member.name) with
        | none =>
            exact absurd (beq_iff_eq.mpr hident)
              (List.find?_eq_none.mp hfind _ (mem_given.mpr ⟨previous, hprevious, rfl⟩))
        | some slot =>
            obtain ⟨other, hother, rfl⟩ := mem_given.mp (List.mem_of_find?_eq_some hfind)
            have hsame := List.find?_some hfind
            rw [hsole other hother (beq_iff_eq.mp hsame)]
      simp only [assignIdents, beq_false_of_ne hname, Bool.false_eq_true, if_false, hfound]
      rfl

/-- **A run of the loop** over members that do not clash gives all of them their identifiers. -/
theorem assignIdents_append {earlier members : List Member}
    (h : Clashless (earlier ++ members)) (rest : List Member) :
    assignIdents (given earlier) (members ++ rest) =
      (assignIdents (given (earlier ++ members)) rest).map (members.map Member.slot ++ ·) := by
  -- What has been given grows by one slot a step, that of the member that was passed.
  induction members generalizing earlier with
  | nil =>
      rw [List.nil_append, List.append_nil]
      cases assignIdents (given earlier) rest <;> rfl
  | cons member members ih =>
      rw [← List.singleton_append, ← List.append_assoc] at h
      rw [List.cons_append, assignIdents_cons h.left, ih h, List.append_assoc,
        List.singleton_append]
      cases assignIdents (given (earlier ++ member :: members)) rest <;> rfl

/-- Members that do not clash get their identifiers. -/
theorem assignIdents_of_clashless {members : List Member} (h : Clashless members) :
    assignIdents [] members = .ok (members.map Member.slot) := by
  have hall : Clashless ([] ++ members) := h
  have hrun := assignIdents_append hall []
  rw [List.append_nil, assignIdents, Except.map, List.append_nil] at hrun
  exact hrun

/-- Members with a first clash do not get theirs. -/
theorem assignIdents_of_firstClash {members : List Member} {conflict : Conflict}
    (h : FirstClash members conflict) : assignIdents [] members = .error conflict := by
  obtain ⟨earlier, member, later, rfl, hearlier, hclash⟩ := h
  have hpassed : Clashless ([] ++ earlier) := hearlier
  have hrun := assignIdents_append hpassed (member :: later)
  rw [List.nil_append, assignIdents_clash hclash] at hrun
  exact hrun

/-! ## The receiver -/

/-- The first name of a receiver that is no identifier of a member. -/
def freeReceiver? (members : List Member) : Option String :=
  receiverNames.find? fun name => !(members.map (unexported ·.name)).contains name

/-- No receiver is free if each name is taken. -/
theorem freeReceiver?_eq_none {members : List Member} :
    freeReceiver? members = none ↔
      ∀ name ∈ receiverNames, name ∈ members.map (unexported ·.name) := by
  simp only [freeReceiver?, List.find?_eq_none, Bool.not_eq_true', Bool.not_eq_false,
    List.contains_iff_mem]

/-- The receiver that is free is the first one that is not taken. -/
theorem freeReceiver?_eq_some {members : List Member} {receiver : String} :
    freeReceiver? members = some receiver ↔
      receiver ∉ members.map (unexported ·.name) ∧
        ∃ taken others, receiverNames = taken ++ receiver :: others ∧
          ∀ name ∈ taken, name ∈ members.map (unexported ·.name) := by
  simp only [freeReceiver?, List.find?_eq_some_iff_append, Bool.not_eq_true',
    Bool.not_not, List.contains_iff_mem, ← Bool.not_eq_true]

/-- A plan for members that do not clash takes the receiver that is free. -/
theorem Plan.of_clashless {members : List Member} (h : Clashless members) :
    Plan.of members =
      match freeReceiver? members with
      | some receiver => .ok ⟨members.map Member.slot, receiver⟩
      | none => .error .noReceiver := by
  have hfree : (receiverNames.find? fun name =>
      !(members.map Member.slot).any (·.ident == name)) = freeReceiver? members := by
    simp only [freeReceiver?, List.contains_eq_any_beq, List.any_map, Function.comp_def,
      Member.slot, Bool.beq_comm]
  unfold Plan.of
  rw [assignIdents_of_clashless h]
  simp only [bind, Except.bind, hfree]
  cases freeReceiver? members <;> rfl

/-- There is no plan for members with a first clash. -/
theorem Plan.of_firstClash {members : List Member} {conflict : Conflict}
    (h : FirstClash members conflict) : Plan.of members = .error conflict := by
  unfold Plan.of
  rw [assignIdents_of_firstClash h]
  rfl

/-- **What a plan is**: a slot for each of members that do not clash, and the receiver that is
    free. -/
theorem Plan.of_eq_ok_iff {members : List Member} {plan : Plan} :
    Plan.of members = .ok plan ↔
      Clashless members ∧ plan.slots = members.map Member.slot ∧
        freeReceiver? members = some plan.receiver := by
  rcases clashless_or_firstClash members with hclashless | ⟨first, hfirst⟩
  · rw [Plan.of_clashless hclashless]
    cases hfree : freeReceiver? members with
    | none => exact ⟨nofun, nofun⟩
    | some receiver =>
        constructor
        · intro h
          cases h
          exact ⟨hclashless, rfl, rfl⟩
        · rintro ⟨-, hslots, hreceiver⟩
          rw [← hslots, Option.some.inj hreceiver]
  · rw [Plan.of_firstClash hfirst]
    exact ⟨nofun, fun h => absurd h.1 hfirst.not_clashless⟩

/-- **Why there is no plan**: the first clash, or else that each receiver is taken. -/
theorem Plan.of_eq_error_iff {members : List Member} {conflict : Conflict} :
    Plan.of members = .error conflict ↔
      FirstClash members conflict ∨
        conflict = .noReceiver ∧ Clashless members ∧ freeReceiver? members = none := by
  rcases clashless_or_firstClash members with hclashless | ⟨first, hfirst⟩
  · rw [Plan.of_clashless hclashless]
    have hnone : ¬ FirstClash members conflict := fun h => h.not_clashless hclashless
    cases hfree : freeReceiver? members with
    | none =>
        constructor
        · intro h
          cases h
          exact .inr ⟨rfl, hclashless, rfl⟩
        · rintro (h | ⟨rfl, -⟩)
          · exact absurd h hnone
          · rfl
    | some receiver =>
        refine ⟨nofun, ?_⟩
        rintro (h | ⟨-, -, h⟩)
        · exact absurd h hnone
        · cases h
  · rw [Plan.of_firstClash hfirst]
    constructor
    · intro h
      cases h
      exact .inl hfirst
    · rintro (h | ⟨-, hclashless, -⟩)
      · exact (Plan.of_firstClash hfirst).symm.trans (Plan.of_firstClash h)
      · exact absurd hclashless hfirst.not_clashless

/-- **The receiver of a plan** is the first candidate that is free. -/
theorem Plan.of_receiver {members : List Member} {plan : Plan} (h : Plan.of members = .ok plan) :
    freeReceiver? members = some plan.receiver :=
  (Plan.of_eq_ok_iff.mp h).2.2

theorem Plan.receiver_mem {members : List Member} {plan : Plan} (h : Plan.of members = .ok plan) :
    plan.receiver ∈ receiverNames :=
  List.mem_of_find?_eq_some (Plan.of_receiver h)

/-! ## Builders -/

/-- A builder is refused for the reason that there is no plan. -/
theorem Blueprint.render_eq_error_iff {blueprint : Blueprint} {conflict : Conflict} :
    blueprint.render = .error conflict ↔ Plan.of blueprint.members = .error conflict := by
  unfold Blueprint.render
  cases Plan.of blueprint.members <;> simp

/-- The text of a builder prints its plan. -/
theorem Blueprint.render_eq_ok_iff {blueprint : Blueprint} {text : String} :
    blueprint.render = .ok text ↔ ∃ plan, Plan.of blueprint.members = .ok plan ∧
      text = Layout.print .tab (plan.layout blueprint.package blueprint.target) := by
  unfold Blueprint.render
  cases Plan.of blueprint.members <;> simp [eq_comm]

/-- **Which builders are refused.** A builder is refused if a field is named like the last method,
    if two fields have one identifier or if the fields take every receiver. The reason is the clash
    of the first field that has one, and a missing receiver only if there is no such field. Any
    other builder has the receiver that is the first one not taken. -/
theorem Blueprint.render_refused_iff (blueprint : Blueprint) :
    let idents := blueprint.members.map (unexported ·.name)
    ((∃ conflict, blueprint.render = .error conflict) ↔
      (∃ member ∈ blueprint.members, member.name = buildName) ∨ ¬ idents.Nodup ∨
        ∀ name ∈ receiverNames, name ∈ idents) ∧
    (∀ conflict, blueprint.render = .error conflict ↔
      FirstClash blueprint.members conflict ∨
        conflict = .noReceiver ∧ (∀ name ∈ receiverNames, name ∈ idents) ∧
          ¬ ∃ clash, FirstClash blueprint.members clash) ∧
    (∀ text, blueprint.render = .ok text ↔
      ∃ plan : Plan, text = Layout.print .tab (plan.layout blueprint.package blueprint.target) ∧
        plan.slots = blueprint.members.map Member.slot ∧ Clashless blueprint.members ∧
        plan.receiver ∉ idents ∧
        ∃ taken others, receiverNames = taken ++ plan.receiver :: others ∧
          ∀ name ∈ taken, name ∈ idents) := by
  intro idents
  have hreason : ∀ conflict, blueprint.render = .error conflict ↔
      FirstClash blueprint.members conflict ∨
        conflict = .noReceiver ∧ (∀ name ∈ receiverNames, name ∈ idents) ∧
          ¬ ∃ clash, FirstClash blueprint.members clash := by
    intro conflict
    rw [Blueprint.render_eq_error_iff, Plan.of_eq_error_iff, freeReceiver?_eq_none,
      clashless_iff_not_firstClash, and_comm (a := ¬ _)]
  refine ⟨?_, hreason, fun text => ?_⟩
  · rw [← or_assoc, ← exists_firstClash_iff]
    constructor
    · rintro ⟨conflict, h⟩
      rcases (hreason conflict).mp h with hfirst | ⟨-, htaken, -⟩
      · exact .inl ⟨conflict, hfirst⟩
      · exact .inr htaken
    · intro h
      by_cases hfirst : ∃ conflict, FirstClash blueprint.members conflict
      · obtain ⟨conflict, hfirst⟩ := hfirst
        exact ⟨conflict, (hreason conflict).mpr (.inl hfirst)⟩
      · exact ⟨_, (hreason _).mpr (.inr ⟨rfl, h.resolve_left hfirst, hfirst⟩)⟩
  · rw [Blueprint.render_eq_ok_iff]
    simp only [Plan.of_eq_ok_iff, freeReceiver?_eq_some]
    constructor
    · rintro ⟨plan, ⟨hclashless, hslots, hfree, htaken⟩, htext⟩
      exact ⟨plan, htext, hslots, hclashless, hfree, htaken⟩
    · rintro ⟨plan, htext, hslots, hclashless, hfree, htaken⟩
      exact ⟨plan, ⟨hclashless, hslots, hfree, htaken⟩, htext⟩

example : (Blueprint.mk "models" "User"
    [⟨"URL", "string"⟩, ⟨"Url", "string"⟩, ⟨"Build", "int"⟩]).render =
      .error (.sameIdentifier "URL" "Url" "url") := by
  decide

end FluentBuilder

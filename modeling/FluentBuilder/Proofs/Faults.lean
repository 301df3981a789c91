import FluentBuilder.Proofs.Walk
import FluentBuilder.Signature

/-!
# Faults — which types have no signature, and why

Some types cannot be written, whatever they are made of and wherever they stand: a struct with
fields, an interface with elements, what is no type, and a name behind something that is no
package. A type has a signature unless one of these is met in it. Printing and walking enter the
parts of a type in the same order, so the error of a type is that of the first one that is met.

* **`failure_signatureChars`** — printing fails with the first fault of the pre-order list.
* **`Go.TypeExpr.signature_first_fault`** — the same for the nodes that a walk meets.
-/

namespace FluentBuilder

open Go (TypeExpr Param Node Flow)

/-! ## Faults -/

/-- Decide whether a type cannot be written, whatever it is made of. -/
def Go.TypeExpr.isFaulty : TypeExpr → Bool
  | .struct (some (_ :: _)) => true
  | .interface (_ + 1) => true
  | .other _ => true
  | .qualified (.named _) _ => false
  | .qualified _ _ => true
  | _ => false

/-- What a type that cannot be written is reported as. -/
def Go.TypeExpr.fault : TypeExpr → SignatureError
  | .qualified _ _ => .malformedQualifier
  | t => .unsupported t.describe

/-- The fault of a node; only types have one. -/
def Go.Node.fault? : Node → Option SignatureError
  | .type t => if t.isFaulty then some t.fault else none
  | _ => none

/-- The first fault among nodes. -/
def firstFault (nodes : List Node) : Option SignatureError := nodes.findSome? Node.fault?

theorem firstFault_append (ns ms : List Node) :
    firstFault (ns ++ ms) = (firstFault ns).or (firstFault ms) := List.findSome?_append

/-- A type without a fault can be left out. -/
theorem firstFault_cons {t : TypeExpr} (h : t.isFaulty = false) (ns : List Node) :
    firstFault (.type t :: ns) = firstFault ns := by
  rw [firstFault, List.findSome?_cons, Node.fault?, h]
  rfl

/-- What is below a type with a fault does not matter. -/
theorem firstFault_cons_faulty {t : TypeExpr} (h : t.isFaulty = true) (ns : List Node) :
    firstFault (.type t :: ns) = some t.fault := by
  rw [firstFault, List.findSome?_cons, Node.fault?, h]
  rfl

/-! ## Printing -/

/-- What a computation fails with. -/
def failure {ε α : Type} : Except ε α → Option ε
  | .ok _ => none
  | .error e => some e

section

variable {ε α β : Type}

/-- A computation fails with what its first step fails with, or else its second one. -/
theorem failure_bind (x : Except ε α) {f : α → Except ε β} {later : Option ε}
    (h : ∀ a, failure (f a) = later) : failure (x >>= f) = (failure x).or later := by
  cases x with
  | error e => rfl
  | ok a => exact h a

/-- The last step of a computation that puts its result together does not fail. -/
theorem failure_map (x : Except ε α) (f : α → β) :
    failure (x >>= fun a => pure (f a)) = failure x := by
  cases x <;> rfl

end

mutual

/-- **Printing a type fails with its first fault**, in the order of the nodes. -/
theorem failure_signatureChars : ∀ t, failure (signatureChars t) = firstFault t.nodes
  | .named name => rfl
  | .array length elem => by
      rw [signatureChars, failure_map, failure_signatureChars elem, TypeExpr.nodes,
        firstFault_cons rfl]
  | .pointer elem => by
      rw [signatureChars, failure_map, failure_signatureChars elem, TypeExpr.nodes,
        firstFault_cons rfl]
  | .paren elem => by
      rw [signatureChars, failure_map, failure_signatureChars elem, TypeExpr.nodes,
        firstFault_cons rfl]
  | .chan direction value => by
      rw [signatureChars, failure_map, failure_signatureChars value, TypeExpr.nodes,
        firstFault_cons rfl]
  | .map key value => by
      rw [signatureChars, failure_bind _ fun k => failure_map _ _, failure_signatureChars key,
        failure_signatureChars value, TypeExpr.nodes, firstFault_cons rfl, firstFault_append]
  | .generic base args => by
      rw [signatureChars, failure_bind _ fun b => failure_map _ _, failure_signatureChars base,
        failure_signaturesOf args, TypeExpr.nodes, firstFault_cons rfl, firstFault_append]
  | .func params results => by
      rw [signatureChars, failure_bind _ fun ps => failure_map _ _, failure_paramSignatures params,
        failure_paramSignatures results, TypeExpr.nodes, firstFault_cons rfl, firstFault_append]
  | .struct none => rfl
  | .struct (some []) => rfl
  | .interface 0 => rfl
  -- The others have a fault themselves, and nothing below them is printed.
  | .struct (some (field :: fields)) => by
      rw [TypeExpr.nodes, firstFault_cons_faulty rfl]
      rfl
  | .interface (n + 1) => rfl
  | .other kind => rfl
  | .qualified package name => by
      cases package with
      | named package => rfl
      | _ =>
          rw [TypeExpr.nodes, firstFault_cons_faulty rfl]
          rfl

/-- Printing types fails with the first fault of them. -/
theorem failure_signaturesOf : ∀ ts, failure (signaturesOf ts) = firstFault (Go.typesNodes ts)
  | [] => rfl
  | t :: rest => by
      rw [signaturesOf, failure_bind _ fun s => failure_map _ _, failure_signatureChars t,
        failure_signaturesOf rest, Go.typesNodes, firstFault_append]

/-- Printing parameters fails with the first fault of their types. -/
theorem failure_paramSignatures :
    ∀ ps, failure (paramSignatures ps) = firstFault (Go.paramsNodes ps)
  | [] => rfl
  | ⟨t, variadic⟩ :: rest => by
      rw [paramSignatures, failure_bind _ fun s => failure_map _ _, failure_signatureChars t,
        failure_paramSignatures rest, Go.paramsNodes, firstFault_append]

end

theorem failure_eq_some_iff {ε α : Type} {x : Except ε α} {e : ε} :
    failure x = some e ↔ x = .error e := by
  cases x with
  | error e' => rw [failure, Option.some.injEq, Except.error.injEq]
  | ok a => exact ⟨nofun, nofun⟩

/-- A signature fails with the first fault of its type. -/
theorem signature_eq_error_iff {t : TypeExpr} {e : SignatureError} :
    t.signature = .error e ↔ firstFault t.nodes = some e := by
  rw [← failure_signatureChars, failure_eq_some_iff, TypeExpr.signature]
  cases signatureChars t with
  | error e' => rw [Except.map, Except.error.injEq, Except.error.injEq]
  | ok text => exact ⟨nofun, nofun⟩

/-! ## The nodes that a walk meets -/

theorem fault?_eq_some_iff {node : Node} {e : SignatureError} :
    node.fault? = some e ↔ ∃ t, node = .type t ∧ t.isFaulty = true ∧ e = t.fault := by
  cases node with
  | type t =>
      rw [Node.fault?]
      constructor
      · intro h
        obtain ⟨hfaulty, hfault⟩ := Option.ite_some_none_eq_some.mp h
        exact ⟨t, rfl, hfaulty, hfault.symm⟩
      · rintro ⟨_, ⟨⟩, hfaulty, rfl⟩
        rw [if_pos hfaulty]
  | _ => exact ⟨nofun, fun ⟨_, h, _⟩ => nomatch h⟩

theorem fault?_eq_none_iff {node : Node} :
    node.fault? = none ↔ ∀ t, node = .type t → t.isFaulty = false := by
  cases node with
  | type t =>
      rw [Node.fault?]
      constructor
      · rintro h _ ⟨⟩
        cases hfaulty : t.isFaulty with
        | true =>
            rw [if_pos hfaulty] at h
            cases h
        | false => rfl
      · intro h
        rw [h t rfl]
        rfl
  | _ => exact ⟨nofun, fun _ => rfl⟩

/-- The first fault among nodes is that of the first type with a fault. -/
theorem firstFault_eq_some_iff {nodes : List Node} {e : SignatureError} :
    firstFault nodes = some e ↔
      ∃ before t after, nodes = before ++ .type t :: after ∧
        (∀ u, .type u ∈ before → u.isFaulty = false) ∧ t.isFaulty = true ∧ e = t.fault := by
  rw [firstFault, List.findSome?_eq_some_iff]
  constructor
  · rintro ⟨before, node, after, rfl, hnode, hbefore⟩
    obtain ⟨t, rfl, hfaulty, hfault⟩ := fault?_eq_some_iff.mp hnode
    exact ⟨before, t, after, rfl, fun u hu => fault?_eq_none_iff.mp (hbefore _ hu) u rfl, hfaulty,
      hfault⟩
  · rintro ⟨before, t, after, rfl, hbefore, hfaulty, hfault⟩
    refine ⟨before, .type t, after, rfl, fault?_eq_some_iff.mpr ⟨t, rfl, hfaulty, hfault⟩, ?_⟩
    intro node hnode
    refine fault?_eq_none_iff.mpr ?_
    rintro u rfl
    exact hbefore u hnode

/-- A visitor that goes on everywhere and keeps the nodes that it is shown. -/
def collectNodes (node : Node) (met : List Node) : Flow (List Node) := .next (met ++ [node])

/-- The nodes that a walk over a type meets. -/
theorem walk_collectNodes (t : TypeExpr) : Go.walk collectNodes (.type t) [] = .next t.nodes := by
  rw [Go.walk_eq_visitAll]
  have h := Go.visitAll_gather (fun node => [node]) t.nodes []
  rwa [List.nil_append, List.flatMap_singleton'] at h

/-- **A type has a signature unless a walk over it meets a type with a fault**, and the error is
    that of the first one that it meets: a qualifier that is no name, or else what this type is
    called. -/
theorem Go.TypeExpr.signature_first_fault (t : TypeExpr) :
    ∃ met, Go.walk collectNodes (.type t) [] = .next met ∧
      ((∃ e, t.signature = .error e) ↔ ∃ u, .type u ∈ met ∧ u.isFaulty = true) ∧
      ∀ e, t.signature = .error e ↔
        ∃ before u after, met = before ++ .type u :: after ∧
          (∀ v, .type v ∈ before → v.isFaulty = false) ∧ u.isFaulty = true ∧ e = u.fault := by
  refine ⟨t.nodes, walk_collectNodes t, ?_, fun e => ?_⟩
  · constructor
    · rintro ⟨e, he⟩
      obtain ⟨before, u, after, hnodes, -, hfaulty, -⟩ :=
        firstFault_eq_some_iff.mp (signature_eq_error_iff.mp he)
      exact ⟨u, hnodes ▸ by simp, hfaulty⟩
    · rintro ⟨u, hu, hfaulty⟩
      cases hfirst : firstFault t.nodes with
      | some e => exact ⟨e, signature_eq_error_iff.mpr hfirst⟩
      | none =>
          have hnone := List.findSome?_eq_none_iff.mp hfirst _ hu
          rw [fault?_eq_none_iff.mp hnone u rfl] at hfaulty
          cases hfaulty
  · rw [signature_eq_error_iff, firstFault_eq_some_iff]

end FluentBuilder

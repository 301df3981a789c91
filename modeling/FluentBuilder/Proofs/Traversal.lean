import FluentBuilder.Proofs.Walk

/-!
# Traversal — a walk is a left fold that may stop

A walk folds a visitor over the pre-order list of a node and stops behind the first node at which
the visitor stops. What a visitor is shown cannot be told from its answers alone, so a second
visitor keeps a record of it and answers as the first one does.

* **`shown`** — the part of a list of nodes that a visitor is shown.
* **`visitAll_recording`** — the record of a visitor holds just these nodes, in order.
* **`stopped_iff_of_shown`** — a visitor stops at the last node that it is shown or at none.
* **`walk_fold`** — the law of a walk, for every visitor and from every node.
-/

namespace FluentBuilder.Go

/-- Change the state in an answer of a visitor. -/
def Flow.map {σ τ : Type} (f : σ → τ) : Flow σ → Flow τ
  | .next s => .next (f s)
  | .stop s => .stop (f s)

section

variable {σ : Type} (visit : Node → σ → Flow σ)

/-- A visitor that keeps a record of the nodes it is shown and answers as another one does. -/
def recording (node : Node) : List Node × σ → Flow (List Node × σ)
  | (record, s) => (visit node s).map fun s => (record ++ [node], s)

/-- The state of a visitor that is shown nodes whether it stops or not. -/
def folded (nodes : List Node) (s : σ) : σ := nodes.foldl (fun s node => (visit node s).state) s

/-- The nodes that a visitor is shown: all up to the first one that it stops at. -/
def shown : List Node → σ → List Node
  | [], _ => []
  | node :: rest, s =>
    match visit node s with
    | .next s => node :: shown rest s
    | .stop _ => [node]

/-! ## A list of nodes -/

/-- What is shown is the beginning of the list. -/
theorem shown_prefix (nodes : List Node) (s : σ) : shown visit nodes s <+: nodes := by
  induction nodes generalizing s with
  | nil => exact List.prefix_refl []
  | cons node rest ih =>
      rw [shown]
      cases visit node s with
      | next s' => exact (List.prefix_cons_inj node).mpr (ih s')
      | stop s' => exact (List.prefix_cons_inj node).mpr List.nil_prefix

/-- A visitor that never stops is shown the whole list. -/
theorem shown_eq_self {nodes : List Node} {s : σ}
    (h : (visitAll visit nodes s).stopped = false) : shown visit nodes s = nodes := by
  induction nodes generalizing s with
  | nil => rfl
  | cons node rest ih =>
      rw [visitAll] at h
      rw [shown]
      cases hanswer : visit node s with
      | next s' =>
          rw [hanswer] at h
          exact congrArg _ (ih h)
      | stop s' =>
          rw [hanswer] at h
          cases h

/-- A visitor that stops is shown a node. -/
theorem shown_ne_nil {nodes : List Node} {s : σ}
    (h : (visitAll visit nodes s).stopped = true) : shown visit nodes s ≠ [] := by
  cases nodes with
  | nil => cases h
  | cons node rest =>
      rw [shown]
      cases visit node s with
      | next s' => exact List.cons_ne_nil node _
      | stop s' => exact List.cons_ne_nil node []

/-- **The state at the end** is that of the fold over the nodes that were shown. -/
theorem visitAll_state (nodes : List Node) (s : σ) :
    (visitAll visit nodes s).state = folded visit (shown visit nodes s) s := by
  induction nodes generalizing s with
  | nil => rfl
  | cons node rest ih =>
      rw [visitAll, shown]
      cases hanswer : visit node s with
      | next s' =>
          rw [folded, List.foldl_cons, hanswer]
          exact ih s'
      | stop s' =>
          rw [folded, List.foldl_cons, hanswer]
          rfl

/-- **The record of a visitor** holds the nodes that were shown, in order and each once. -/
theorem visitAll_recording (nodes record : List Node) (s : σ) :
    visitAll (recording visit) nodes (record, s) =
      (visitAll visit nodes s).map fun s' => (record ++ shown visit nodes s, s') := by
  -- The record grows at its end, so what stands on it at the beginning is arbitrary.
  induction nodes generalizing record s with
  | nil => rw [visitAll, visitAll, shown, List.append_nil, Flow.map]
  | cons node rest ih =>
      rw [visitAll, visitAll, shown, recording]
      cases visit node s with
      | next s' =>
          rw [Flow.map, Flow.andThen, Flow.andThen, ih (record ++ [node]) s', List.append_assoc,
            List.singleton_append]
      | stop s' => rfl

/-- **A visitor stops at the last node** that it is shown, if the walk is stopped, and at none of
    the others. -/
theorem stopped_iff_of_shown {nodes before after : List Node} {node : Node} {s : σ}
    (h : shown visit nodes s = before ++ node :: after) :
    (visit node (folded visit before s)).stopped = true ↔
      after = [] ∧ (visitAll visit nodes s).stopped = true := by
  -- The node is the first one of the list, which is always shown, or it is shown behind that.
  induction nodes generalizing before s with
  | nil => simp [shown] at h
  | cons first rest ih =>
      rw [shown] at h
      rw [visitAll]
      cases hanswer : visit first s with
      | stop s' =>
          rw [hanswer] at h
          cases before with
          | nil =>
              obtain ⟨rfl, rfl⟩ := List.cons.inj h
              rw [folded, List.foldl_nil, hanswer]
              exact (and_iff_right rfl).symm
          | cons other before =>
              obtain ⟨-, hnone⟩ := List.cons.inj h
              exact absurd hnone.symm (by simp)
      | next s' =>
          rw [hanswer] at h
          cases before with
          | nil =>
              obtain ⟨rfl, hafter⟩ := List.cons.inj h
              rw [folded, List.foldl_nil, hanswer]
              constructor
              · intro hstop
                cases hstop
              · rintro ⟨hnone, hstop⟩
                exact absurd (hafter.trans hnone) (shown_ne_nil visit hstop)
          | cons other before =>
              obtain ⟨rfl, hrest⟩ := List.cons.inj h
              rw [folded, List.foldl_cons, hanswer]
              exact ih hrest

/-! ## A walk -/

/-- **The law of a walk.** Whatever the visitor, its state and the node, the visitor is shown a
    beginning of the pre-order list, each node once and in order, and its state at the end is the
    left fold over these nodes. The walk is stopped if the visitor stops at one of them; that is the
    last one then, and otherwise nothing of the list is left out. -/
theorem walk_fold (n : Node) (s : σ) :
    ∃ seen rest, n.descendants = seen ++ rest ∧
      walk (recording visit) n ([], s) = (walk visit n s).map (fun s' => (seen, s')) ∧
      (walk visit n s).state = folded visit seen s ∧
      ((walk visit n s).stopped = true ↔
        ∃ before node after, seen = before ++ node :: after ∧
          (visit node (folded visit before s)).stopped = true) ∧
      (∀ before node after, seen = before ++ node :: after →
        (visit node (folded visit before s)).stopped = true → after = []) ∧
      ((walk visit n s).stopped = false → rest = []) := by
  obtain ⟨rest, hlist⟩ := shown_prefix visit n.descendants s
  rw [walk_eq_visitAll, walk_eq_visitAll]
  refine ⟨shown visit n.descendants s, rest, hlist.symm, ?_, visitAll_state visit _ s, ?_, ?_, ?_⟩
  · rw [visitAll_recording, List.nil_append]
  · constructor
    · intro hstop
      obtain ⟨before, node, hseen⟩ :=
        (List.eq_nil_or_concat _).resolve_left (shown_ne_nil visit hstop)
      rw [List.concat_eq_append] at hseen
      exact ⟨before, node, [], hseen, (stopped_iff_of_shown visit hseen).mpr ⟨rfl, hstop⟩⟩
    · rintro ⟨before, node, after, hseen, hstop⟩
      exact ((stopped_iff_of_shown visit hseen).mp hstop).2
  · intro before node after hseen hstop
    exact ((stopped_iff_of_shown visit hseen).mp hstop).1
  · intro hgoes
    have hall := shown_eq_self visit hgoes
    rw [hall] at hlist
    exact List.append_right_eq_self.mp hlist

end

end FluentBuilder.Go

import FluentBuilder.Proofs.Expressions

/-!
# Reading operations — operators and their operands

A binary operator goes on with the operand in front of it as far as the level of the operator
reaches: the right operand takes the operations that bind more, and leaves the others to the
expression around it. `Operations` are signs with an operand behind each; what the reading leaves of
them are operations again.

* **`longest_sign`** — a sign is read as the longest operator.
* **`Operations.extends`** — operations are read as far as their level reaches.
-/

namespace FluentBuilder.Go

open Grammar

/-! ## The text of a tree -/

/-- The text of leaves with the gaps in front of them. -/
def leavesText (leaves : List (List Char × List Char)) : List Char :=
  leaves.flatMap fun leaf => leaf.1 ++ leaf.2

/-- A tree has a text behind a gap. -/
def Tree.HasText (t : Tree) (gap text : List Char) : Prop :=
  ∃ first more, t.leaves = (gap, first) :: more ∧ first ++ leavesText more = text

section

variable {t : Tree} {gap u : List Char} {role : Option Role}

theorem leavesText_append (a b : List (List Char × List Char)) :
    leavesText (a ++ b) = leavesText a ++ leavesText b := List.flatMap_append

namespace Tree.HasText

theorem leaf (kind : Kind) (gap u : List Char) : (Tree.leaf kind gap u).HasText gap u :=
  ⟨u, [], rfl, List.append_nil u⟩

theorem token (gap u : List Char) : (Tree.token gap u).HasText gap u :=
  ⟨u, [], rfl, List.append_nil u⟩

theorem leavesText (h : t.HasText gap u) : Go.leavesText t.leaves = gap ++ u := by
  obtain ⟨first, more, hleaves, rfl⟩ := h
  rw [hleaves, ← List.append_assoc]
  rfl

/-- The first child of a node has its gap. -/
theorem node (h : t.HasText gap u) (kind : Kind) (role : Option Role) (parts : List Part) :
    (Tree.node kind (⟨role, t⟩ :: parts)).HasText gap
      (u ++ Go.leavesText (partsLeaves parts)) := by
  obtain ⟨first, more, hleaves, rfl⟩ := h
  refine ⟨first, more ++ partsLeaves parts, ?_, ?_⟩
  · rw [Tree.leaves, partsLeaves, hleaves, List.cons_append]
  · rw [leavesText_append, List.append_assoc]

theorem chars (h : t.HasText gap u) : t.chars = u := by
  obtain ⟨first, more, hleaves, rfl⟩ := h
  rw [Tree.chars, hleaves]
  rfl

end Tree.HasText

theorem leavesText_cons (h : t.HasText gap u) (parts : List Part) :
    leavesText (partsLeaves (⟨role, t⟩ :: parts)) =
      gap ++ (u ++ leavesText (partsLeaves parts)) := by
  rw [partsLeaves, leavesText_append, h.leavesText, List.append_assoc]

theorem leavesText_nil : leavesText (partsLeaves []) = [] := rfl

theorem partsLeaves_append (a b : List Part) :
    partsLeaves (a ++ b) = partsLeaves a ++ partsLeaves b := by
  induction a with
  | nil => rfl
  | cons part a ih =>
      obtain ⟨role, tree⟩ := part
      rw [List.cons_append, partsLeaves, partsLeaves, ih, List.append_assoc]

end

/-! ## What ends a part of an expression -/

/-- The next token of a text begins with one of some marks. -/
structure EndsAt (marks rest : List Char) : Prop where
  stops : StopsWord rest
  front : ∃ gap c more, takeGap rest = (gap, c :: more) ∧ c ∈ marks

/-- The marks behind an expression in brackets. -/
def exprEnds : List Char := [')', ']', ',']

/-- The characters of the signs of operators. -/
def signChars : List Char := ['|', '&', '=', '!', '<', '>', '+', '-', '*', '/', '%', '^']

/-- The marks behind an operand with everything that goes on with it. -/
def operandEnds : List Char := exprEnds ++ signChars

/-- The marks behind a name. -/
def nameEnds : List Char := ['.', '('] ++ operandEnds

section

variable {marks others gap rest s v : List Char} {c : Char} {text : String}

theorem takeGap_behindGap (hgap : IsGap gap) (h : takeGap s = ([], s)) :
    takeGap (gap ++ s) = (gap, s) := by
  have hspace : ∀ c ∈ gap, isSpace c = true := by
    rcases hgap with rfl | rfl
    · exact nofun
    · decide
  rw [takeGap_spaces hspace, h, List.append_nil]

namespace EndsAt

theorem subset (h : EndsAt marks rest) (hsub : marks ⊆ others) : EndsAt others rest := by
  obtain ⟨gap, c, more, hfront, hc⟩ := h.front
  exact ⟨h.stops, gap, c, more, hfront, hsub hc⟩

theorem token (h : EndsAt marks rest)
    (htext : text.toList ≠ [] ∧ ∀ c ∈ marks, text.toList.head? ≠ some c) :
    (Rule.token text).Fails rest := by
  obtain ⟨gap, c, more, hfront, hc⟩ := h.front
  exact .token hfront (htext.2 c hc) htext.1

/-- A mark behind a gap. -/
theorem of_gap (hgap : IsGap gap) (h : takeGap (c :: rest) = ([], c :: rest))
    (hpart : Text.isIdentPart c = false) (hc : c ∈ marks) : EndsAt marks (gap ++ c :: rest) := by
  refine ⟨?_, gap, c, rest, takeGap_behindGap hgap h, hc⟩
  rcases hgap with rfl | rfl
  · exact stopsWord_cons hpart rest
  · exact stopsWord_cons (by decide) _

/-- No mark of a suffix stands behind an operand. -/
theorem noSuffix (h : EndsAt operandEnds rest) (ends : Bool) : NoMarks suffixMarks ends rest := by
  have hmarks : ∀ text ∈ suffixMarks, text.toList ≠ [] ∧
      ∀ c ∈ operandEnds, text.toList.head? ≠ some c := by
    decide
  exact fun _ text htext => h.token (hmarks text htext)

/-- What ends an expression in brackets closes it. -/
theorem closes (h : EndsAt exprEnds rest) : ExprCloses .inside rest := by
  obtain ⟨gap, c, more, hfront, hc⟩ := h.front
  have hplain : ∀ c ∈ exprEnds, c ∈ closingMarks ∧ c ≠ '\x7b' ∧
      ∀ text ∈ allOperators ++ marksBehind Place.inside.slot, text.toList.head? ≠ some c ∧
        text.toList ≠ [] := by
    decide
  obtain ⟨hclosing, hbrace, hmarks⟩ := hplain c hc
  exact .of_front hfront h.stops hclosing hbrace hmarks

end EndsAt

/-! ## Signs -/

/-- A mark that does not go on behind a text with this character is dropped from the text itself. -/
theorem dropExact_append_cons {text : List Char} (h : ¬ s ++ [c] <+: text) (rest : List Char) :
    dropExact text (s ++ c :: rest) = (dropExact text s).map (· ++ c :: rest) := by
  induction text generalizing s with
  | nil => rfl
  | cons d text ih =>
      cases s with
      | nil =>
          refine dropExact_of_head fun hhead => h ?_
          rw [Option.some.inj hhead]
          exact List.prefix_append [d] text
      | cons e s =>
          rw [List.cons_append, dropExact, dropExact]
          split
          case isTrue heq =>
            refine ih fun hprefix => h ?_
            rw [beq_iff_eq.mp heq, List.cons_append]
            exact List.cons_prefix_cons.mpr ⟨rfl, hprefix⟩
          case isFalse => rfl

/-- **The longest operator** at a sign is the sign if it goes no further. -/
theorem longest_sign {sign : String} (hsign : sign ∈ allOperators) (hc : SignEnds sign c)
    (rest : List Char) : longest (allOperators.map String.toList) (sign.toList ++ c :: rest) =
      some (sign.toList, c :: rest) := by
  have hsigns : ∀ sign ∈ allOperators,
      longest (allOperators.map String.toList) sign.toList = some (sign.toList, []) := by
    decide
  have hmark : ∀ text ∈ allOperators.map String.toList, mark text (sign.toList ++ c :: rest) =
      (mark text sign.toList).map fun found => (found.1, found.2 ++ c :: rest) := by
    intro text htext
    obtain ⟨other, hother, rfl⟩ := List.mem_map.mp htext
    rw [mark, mark, dropExact_append_cons (hc.1 other hother), Option.map_map, Option.map_map]
    rfl
  have hlongest := Scan.Follows.longest (f := (· ++ c :: rest)) hmark
  rw [hsigns sign hsign] at hlongest
  exact hlongest

theorem takeGap_sign {sign : String} (hsign : sign ∈ allOperators) (hc : SignEnds sign c)
    (rest : List Char) :
    takeGap (sign.toList ++ c :: rest) = ([], sign.toList ++ c :: rest) := by
  have hsigns : ∀ sign ∈ allOperators, sign = "/" ∨ (sign.toList ≠ [] ∧
      ∀ d ∈ sign.toList, isSpace d = false ∧ d ≠ '/') := by
    decide
  rcases hsigns sign hsign with rfl | ⟨hne, hplain⟩
  · have hcomment := comment_of_second (hc.2 rfl) rest
    have hspace : isSpace '/' = false := rfl
    simp [takeGap, takeGapWith, hspace, hcomment]
  · obtain ⟨d, ds, heq⟩ := List.exists_cons_of_ne_nil hne
    rw [heq]
    exact takeGap_stop (hplain d (heq ▸ .head ds)).1 (hplain d (heq ▸ .head ds)).2 _

/-- Every sign has one level. -/
theorem exists_level {sign : String} (hsign : sign ∈ allOperators) :
    ∃ level ∈ [5, 4, 3, 2, 1], sign ∈ Grammar.operators level ∧
      ∀ other ∈ [5, 4, 3, 2, 1], other ≠ level → sign ∉ Grammar.operators other :=
  (by decide : ∀ sign ∈ allOperators, ∃ level ∈ [5, 4, 3, 2, 1], sign ∈ Grammar.operators level ∧
    ∀ other ∈ [5, 4, 3, 2, 1], other ≠ level → sign ∉ Grammar.operators other) sign hsign

end

/-! ## Operations -/

/-- The first of several rules that follows the text, if no other one does. -/
theorem Rule.Reads.firstOfMap {α : Type} {make : α → Rule} {items : List α} {x : α}
    {s rest : List Char} {parts : List Part} (hx : x ∈ items) (h : (make x).Reads s parts rest)
    (hothers : ∀ y ∈ items, y ≠ x → (make y).Fails s) :
    (firstOf (items.map make)).Reads s parts rest := by
  induction items with
  | nil => cases hx
  | cons y items ih =>
      by_cases hy : y = x
      · exact hy ▸ .left h
      · exact .right (hothers y (.head _) hy)
          (ih ((List.mem_cons.mp hx).resolve_left (Ne.symm hy)) fun z hz => hothers z (.tail _ hz))

/-- The text of an operand: it is read as one in front of what ends it. -/
structure ReadsAsOperand (u : List Char) : Prop where
  front : ∃ c cs, u = c :: cs ∧ BeginsExpr c
  reads (depth : Nat) {s gap rest : List Char} (hdepth : u.length ≤ depth + 1)
    (h : takeGap s = (gap, u ++ rest)) (hrest : EndsAt operandEnds rest) :
    ∃ tree, ((grammar depth).unaryRule .inside).Reads s [⟨none, tree⟩] rest ∧ tree.HasText gap u

theorem ReadsAsOperand.gapless {u : List Char} (h : ReadsAsOperand u) (rest : List Char) :
    takeGap (u ++ rest) = ([], u ++ rest) := by
  obtain ⟨c, cs, rfl, hc⟩ := h.front
  exact takeGap_stop hc.plain.1 hc.plain.2.2.1 _

theorem ReadsAsOperand.length_pos {u : List Char} (h : ReadsAsOperand u) : 1 ≤ u.length := by
  obtain ⟨c, cs, rfl, -⟩ := h.front
  exact Nat.succ_pos _

/-- Signs, each with the operand behind it. -/
inductive Operations : List Char → Prop
  | nil : Operations []
  | cons {gap : List Char} {sign : String} {gap' u v : List Char} (hgap : IsGap gap)
      (hsign : sign ∈ allOperators) (hgap' : IsGap gap') (hu : ReadsAsOperand u)
      (happart : gap' = [] → ∀ c ∈ u.head?, SignEnds sign c) (hv : Operations v) :
      Operations (gap ++ (sign.toList ++ (gap' ++ (u ++ v))))

/-- How an expression goes on whose operators bind at least as much as a level. -/
def binaryStep (g : Grammar) (least : Nat) (left : List Part) : Rule :=
  .onLine false ++
    .node .binaryExpression
      (.yield left ++
        firstOf (([5, 4, 3, 2, 1].filter (least ≤ ·)).map (g.operation .inside)))

section

variable {gap gap' u v rest : List Char} {sign : String} {depth least : Nat}

/-- A sign goes no further than to what stands behind it. -/
theorem exists_behindSign (hsign : sign ∈ allOperators) (hgap' : IsGap gap') (hu : ∃ c cs, u = c :: cs ∧ BeginsExpr c)
    (happart : gap' = [] → ∀ c ∈ u.head?, SignEnds sign c) (rest : List Char) :
    ∃ c more, gap' ++ (u ++ rest) = c :: more ∧ SignEnds sign c := by
  obtain ⟨c, cs, rfl, hc⟩ := hu
  rcases hgap' with rfl | rfl
  · exact ⟨c, cs ++ rest, rfl, happart rfl c rfl⟩
  · exact ⟨' ', c :: cs ++ rest, rfl, signEnds_blank hsign⟩

/-- A sign, read with its gap. -/
theorem takeGap_operation (hgap : IsGap gap) (hsign : sign ∈ allOperators) {c : Char}
    (hc : SignEnds sign c) (rest : List Char) :
    takeGap (gap ++ (sign.toList ++ c :: rest)) = (gap, sign.toList ++ c :: rest) :=
  takeGap_behindGap hgap (takeGap_sign hsign hc rest)

theorem Operations.ends (hv : Operations v) (hrest : EndsAt exprEnds rest) :
    EndsAt operandEnds (v ++ rest) := by
  cases hv with
  | nil => exact hrest.subset (List.subset_append_left _ _)
  | @cons gap sign gap' u v hgap hsign hgap' hu happart hv =>
      obtain ⟨c, more, heq, hc⟩ := exists_behindSign hsign hgap' hu.front happart (v ++ rest)
      have hsigns : ∀ sign ∈ allOperators, sign.toList ≠ [] ∧
          ∀ c ∈ sign.toList, c ∈ operandEnds ∧ Text.isIdentPart c = false := by
        decide
      obtain ⟨d, ds, hd⟩ := List.exists_cons_of_ne_nil (hsigns sign hsign).1
      obtain ⟨hends, hpart⟩ := (hsigns sign hsign).2 d (hd ▸ .head ds)
      have hfront := takeGap_sign hsign hc more
      simp only [List.append_assoc, heq]
      rw [hd] at hfront ⊢
      exact .of_gap hgap hfront hpart hends

/-- The sign of an operation is an operator of its own level only. -/
theorem tokenOf_sign (hgap : IsGap gap) (hsign : sign ∈ allOperators) {c : Char}
    (hc : SignEnds sign c) (rest : List Char) (level : Nat) :
    (sign ∈ Grammar.operators level →
      (Rule.tokenOf (allOperators ++ marksBehind Place.inside.slot) (Grammar.operators level)).Reads
        (gap ++ (sign.toList ++ c :: rest)) [⟨none, .token gap sign.toList⟩] (c :: rest)) ∧
    (sign ∉ Grammar.operators level →
      (Rule.tokenOf (allOperators ++ marksBehind Place.inside.slot) (Grammar.operators level)).Fails
        (gap ++ (sign.toList ++ c :: rest))) := by
  have hfront := takeGap_operation hgap hsign hc rest
  have hlongest := longest_sign hsign hc rest
  have hmarks : allOperators ++ marksBehind Place.inside.slot = allOperators := rfl
  have hmem : ((Grammar.operators level).map String.toList).contains sign.toList = true ↔
      sign ∈ Grammar.operators level := by
    rw [List.contains_iff_mem, List.mem_map]
    exact ⟨fun ⟨other, hother, heq⟩ => String.toList_inj.mp heq ▸ hother, fun h => ⟨sign, h, rfl⟩⟩
  rw [hmarks]
  constructor
  · intro hlevel
    refine .scanToken (congrArg Prod.fst hfront) ?_
    simp only [hfront, hlongest, hmem.mpr hlevel, if_true]
  · intro hlevel
    refine .scanToken ?_
    simp only [hfront, hlongest]
    exact if_neg (mt hmem.mp hlevel)

/-- An operation whose sign binds less than the level does not go on with it. -/
theorem binaryStep_fails (hgap : IsGap gap) (hsign : sign ∈ allOperators) {c : Char}
    (hc : SignEnds sign c) (hlevel : ∀ level ∈ [5, 4, 3, 2, 1], least ≤ level →
      sign ∉ Grammar.operators level) (g : Grammar) (left : List Part) :
    (binaryStep g least left).Fails (gap ++ (sign.toList ++ c :: rest)) := by
  refine .onLineAppend (.node (.behind .yield (.firstOfMap fun level hmem => .append ?_)))
  obtain ⟨hmem, hle⟩ := List.mem_filter.mp hmem
  exact (tokenOf_sign hgap hsign hc rest level).2 (hlevel level hmem (by simpa using hle))

/-- Any other operation goes on with it, up to the end of its right operand. -/
theorem reads_binaryStep {level : Nat} {g : Grammar} {tree right : Tree} {c : Char}
    {more : List Char} (hgap : IsGap gap) (hsign : sign ∈ allOperators) (hc : SignEnds sign c)
    (hlevel : level ∈ [5, 4, 3, 2, 1]) (hle : least ≤ level)
    (hoperator : sign ∈ Grammar.operators level)
    (hothers : ∀ other ∈ [5, 4, 3, 2, 1], other ≠ level → sign ∉ Grammar.operators other)
    (hread : (g.binary .inside (level + 1)).Reads (c :: more) [⟨none, right⟩] rest) :
    (binaryStep g least [⟨none, tree⟩]).Reads (gap ++ (sign.toList ++ c :: more))
      [⟨none, .node .binaryExpression
        [⟨none, tree⟩, ⟨none, .token gap sign.toList⟩, ⟨none, right⟩]⟩] rest := by
  refine .append (.onLine (.inl rfl)) (.node (.append .yield (.firstOfMap
    (List.mem_filter.mpr ⟨hlevel, by simpa using hle⟩)
    (.append ((tokenOf_sign hgap hsign hc more level).1 hoperator) hread)
    fun other hmem hne => .append ?_)))
  exact (tokenOf_sign hgap hsign hc more other).2
    (hothers other (List.mem_filter.mp hmem).1 hne)

/-- The text of an operation is that of its operands and its sign. -/
theorem hasText_binary {tree right : Tree} {gap₁ gap₂ gap₃ u₁ u₂ : List Char}
    (htree : tree.HasText gap₁ u₁) (hright : right.HasText gap₃ u₂) (sign : List Char) :
    (Tree.node .binaryExpression
      [⟨none, tree⟩, ⟨none, .token gap₂ sign⟩, ⟨none, right⟩]).HasText gap₁
        (u₁ ++ (gap₂ ++ (sign ++ (gap₃ ++ u₂)))) := by
  have hnode := htree.node .binaryExpression none [⟨none, .token gap₂ sign⟩, ⟨none, right⟩]
  rwa [leavesText_cons (.token _ _), leavesText_cons hright, leavesText_nil, List.append_nil]
    at hnode

/-- **Operations are read as far as the level reaches.** What is left binds less. -/
theorem Operations.extends (hv : Operations v) (hrest : EndsAt exprEnds rest) (depth : Nat)
    (hdepth : v.length ≤ depth) (least : Nat) {tree : Tree} (htree : tree.HasText gap u) :
    ∃ front behind tree', v = front ++ behind ∧ Operations behind ∧ (least ≤ 1 → behind = []) ∧
      Rule.Extends (binaryStep (grammar depth) least) [⟨none, tree⟩] (v ++ rest) [⟨none, tree'⟩]
        (behind ++ rest) ∧ tree'.HasText gap (u ++ front) := by
  -- the operations behind the right operand are shorter, as are those that it leaves
  induction hlength : v.length using Nat.strong_induction_on
    generalizing v depth least tree gap u with
  | _ n ih =>
  cases hv with
  | nil =>
      exact ⟨[], [], tree, rfl, .nil, fun _ => rfl, .stop (operation_fails _ least hrest.closes),
        by rwa [List.append_nil]⟩
  | @cons gap' sign gap'' w v hgap hsign hgap'' hw happart hv =>
      obtain ⟨c, more, heq, hc⟩ := exists_behindSign hsign hgap'' hw.front happart (v ++ rest)
      obtain ⟨level, hlevel, hoperator, hothers⟩ := exists_level hsign
      have htext : gap' ++ (sign.toList ++ (gap'' ++ (w ++ v))) ++ rest =
          gap' ++ (sign.toList ++ c :: more) := by
        simp only [List.append_assoc, heq]
      rw [htext]
      by_cases hle : least ≤ level
      case neg =>
        refine ⟨[], gap' ++ (sign.toList ++ (gap'' ++ (w ++ v))), tree, rfl,
          .cons hgap hsign hgap'' hw happart hv, fun hone => ?_, ?_, ?_⟩
        · have hpos : ∀ level ∈ [5, 4, 3, 2, 1], 1 ≤ level := by decide
          exact absurd (hone.trans (hpos level hlevel)) hle
        · rw [htext]
          exact .stop (binaryStep_fails hgap hsign hc
            (fun other hother hle' => hothers other hother fun heq => hle (heq ▸ hle')) _ _)
        · rwa [List.append_nil]
      case pos =>
        have hsignLength : 1 ≤ sign.toList.length :=
          (by decide : ∀ sign ∈ allOperators, 1 ≤ sign.toList.length) sign hsign
        have hwLength := hw.length_pos
        simp only [List.length_append] at hdepth hlength
        obtain ⟨depth, rfl⟩ : ∃ d, depth = d + 2 := ⟨depth - 2, by omega⟩
        -- the right operand goes on as far as the next level reaches
        obtain ⟨operand, hread, hoperand⟩ := hw.reads depth (by omega)
          (takeGap_behindGap hgap'' (hw.gapless (v ++ rest))) (hv.ends hrest)
        obtain ⟨front₁, behind₁, right, rfl, hbehind₁, -, hextends₁, hright⟩ :=
          ih v.length (by omega) hv (depth + 1) (by omega) (level + 1) hoperand rfl
        rw [heq] at hread
        have hunary : ((grammar (depth + 1)).unary .inside).Reads (c :: more) _ _ := hread
        have hstep : (binaryStep (grammar (depth + 2)) least [⟨none, tree⟩]).Reads _ _ _ :=
          reads_binaryStep hgap hsign hc hlevel hle hoperator hothers
            (Rule.Extends.extend hunary hextends₁)
        -- then the left one goes on with what the right one leaves
        simp only [List.length_append] at hdepth hlength
        obtain ⟨front₂, behind₂, tree', rfl, hbehind₂, hone, hextends₂, htree'⟩ :=
          ih behind₁.length (by omega) hbehind₁ (depth + 2) (by omega) least
            (hasText_binary htree hright sign.toList) rfl
        refine ⟨gap' ++ (sign.toList ++ (gap'' ++ (w ++ (front₁ ++ front₂)))), behind₂, tree',
          by simp only [List.append_assoc], hbehind₂, hone, .step hstep ?_ hextends₂, ?_⟩
        · have hlengths := congrArg List.length htext
          simp only [List.length_append] at hlengths ⊢
          omega
        · simpa only [List.append_assoc] using htree'

end

end FluentBuilder.Go

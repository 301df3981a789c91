import Mathlib.Data.List.TakeWhile
import FluentBuilder.Layout

/-!
# Lines — the text of a layout, line by line

A layout gives lines with a level each, whatever they are indented with. The text of the layout
is these lines one below the other.

* **`Step.emit_eq`** — what a step emits are its lines.
* **`unlines_injective`** — a text determines its lines if none of them holds a line break.
-/

namespace FluentBuilder.Layout

/-- A line of a layout; a blank one has no level. -/
inductive Line where
  | blank
  | text (level : Nat) (content : List Char)
  deriving DecidableEq, Repr

/-- The characters of a line. -/
def Line.chars (unit : List Char) : Line → List Char
  | .blank => []
  | .text level content => (List.replicate level unit).flatten ++ content

mutual

/-- The lines of a step at a level, and the level behind it. -/
def Step.lines : Step → Nat → List Line × Nat
  | .line content, level => ([.text level content.toList], level)
  | .blank, level => ([.blank], level)
  | .comment content, level => ([.text level ('/' :: '/' :: ' ' :: content.toList)], level)
  | .indent, level => ([], level + 1)
  | .dedent, level => ([], level - 1)
  | .each contents, level => (contents.map fun content => .text level content.toList, level)
  | .block header close body, level =>
    let (inner, after) := linesAll body (level + 1)
    (.text level header.toList :: (inner ++ [.text (after - 1) close.toList]), after - 1)

/-- The lines of steps one after the other, and the level behind them. -/
def linesAll : List Step → Nat → List Line × Nat
  | [], level => ([], level)
  | step :: rest, level =>
    let (lines, after) := step.lines level
    let (others, last) := linesAll rest after
    (lines ++ others, last)

end

/-- Steps that leave the level alone stand one below the other. -/
theorem linesAll_append {a b : List Step} {la lb : List Line} {level : Nat}
    (ha : linesAll a level = (la, level)) (hb : linesAll b level = (lb, level)) :
    linesAll (a ++ b) level = (la ++ lb, level) := by
  have hcut : ∀ (a : List Step) (level : Nat), linesAll (a ++ b) level =
      ((linesAll a level).1 ++ (linesAll b (linesAll a level).2).1,
        (linesAll b (linesAll a level).2).2) := by
    intro a
    induction a with
    | nil => exact fun level => rfl
    | cons step rest ih =>
        intro level
        simp only [List.cons_append, linesAll, ih, List.append_assoc]
  rw [hcut, ha, hb]

/-- So do the steps for each of several items. -/
theorem linesAll_flatMap {α : Type} {steps : α → List Step} {lines : α → List Line}
    {level : Nat} (h : ∀ item, linesAll (steps item) level = (lines item, level))
    (items : List α) : linesAll (items.flatMap steps) level = (items.flatMap lines, level) := by
  induction items with
  | nil => rfl
  | cons item rest ih => exact linesAll_append (h item) ih

/-- Lines one below the other. -/
def unlines (lines : List (List Char)) : List Char := lines.flatMap (· ++ ['\n'])

/-- The text of several lines. -/
theorem unlines_append (a b : List (List Char)) : unlines (a ++ b) = unlines a ++ unlines b :=
  List.flatMap_append

mutual

/-- **What a step emits are its lines.** -/
theorem Step.emit_eq (unit : List Char) : ∀ (step : Step) (level : Nat),
    step.emit unit level =
      (unlines ((step.lines level).1.map (Line.chars unit)), (step.lines level).2)
  | .line content, level => by simp [Step.emit, Step.lines, unlines, Line.chars, lineAt]
  | .blank, level => rfl
  | .comment content, level => by simp [Step.emit, Step.lines, unlines, Line.chars, lineAt]
  | .indent, level => rfl
  | .dedent, level => rfl
  | .each contents, level => by
    simp [Step.emit, Step.lines, unlines, Line.chars, lineAt, List.flatMap_map]
  | .block header close body, level => by
    simp [Step.emit, Step.lines, emitAll_eq unit body (level + 1), unlines, Line.chars, lineAt,
      List.flatMap_append]

/-- What steps emit are their lines. -/
theorem emitAll_eq (unit : List Char) : ∀ (steps : List Step) (level : Nat),
    emitAll unit steps level =
      (unlines ((linesAll steps level).1.map (Line.chars unit)), (linesAll steps level).2)
  | [], level => rfl
  | step :: rest, level => by
    simp [emitAll, linesAll, Step.emit_eq unit step level, emitAll_eq unit rest, unlines_append]

end

/-- The text of a layout is its lines. -/
theorem print_eq (indent : Indent) (steps : List Step) :
    print indent steps =
      String.ofList (unlines ((linesAll steps 0).1.map (Line.chars indent.chars))) := by
  rw [print, emitAll_eq]

/-- The first place of a character cuts a text in one way. -/
theorem append_cons_cancel {c : Char} {front front' rest rest' : List Char} (hfront : c ∉ front)
    (hfront' : c ∉ front') (h : front ++ c :: rest = front' ++ c :: rest') :
    front = front' ∧ rest = rest' := by
  have hcut : ∀ {front rest : List Char}, c ∉ front →
      (front ++ c :: rest).takeWhile (· != c) = front := by
    intro front rest hmem
    have hother : ∀ d ∈ front, (d != c) = true := fun d hd =>
      bne_iff_ne.mpr (ne_of_mem_of_not_mem hd hmem)
    rw [List.takeWhile_append_of_pos hother]
    simp
  have hsame : front = front' := by rw [← hcut hfront, h, hcut hfront']
  subst hsame
  exact ⟨rfl, (List.cons.inj (List.append_cancel_left h)).2⟩

/-- **A text determines its lines.** -/
theorem unlines_injective {a b : List (List Char)} (ha : ∀ line ∈ a, '\n' ∉ line)
    (hb : ∀ line ∈ b, '\n' ∉ line) (h : unlines a = unlines b) : a = b := by
  induction a generalizing b with
  | nil =>
      cases b with
      | nil => rfl
      | cons line others => simp [unlines] at h
  | cons line rest ih =>
      cases b with
      | nil => simp [unlines] at h
      | cons line' rest' =>
          rw [List.forall_mem_cons] at ha hb
          have hcut : line ++ '\n' :: unlines rest = line' ++ '\n' :: unlines rest' := by
            simpa [unlines] using h
          obtain ⟨rfl, hrest⟩ := append_cons_cancel ha.1 hb.1 hcut
          rw [ih ha.2 hb.2 hrest]

/-! ## Texts without line breaks -/

mutual

/-- Decide whether no text of a step holds a line break. -/
def Step.OneLine : Step → Prop
  | .line content | .comment content => '\n' ∉ content.toList
  | .blank | .indent | .dedent => True
  | .each contents => ∀ content ∈ contents, '\n' ∉ content.toList
  | .block header close body =>
    '\n' ∉ header.toList ∧ '\n' ∉ close.toList ∧ OneLineAll body

/-- Decide whether no text of several steps holds a line break. -/
def OneLineAll : List Step → Prop
  | [] => True
  | step :: rest => step.OneLine ∧ OneLineAll rest

end

/-- Several steps hold no line break if none of them does. -/
theorem oneLineAll_iff {steps : List Step} : OneLineAll steps ↔ ∀ step ∈ steps, step.OneLine := by
  induction steps with
  | nil => exact ⟨fun _ => nofun, fun _ => trivial⟩
  | cons step rest ih => rw [List.forall_mem_cons, OneLineAll, ih]

/-- A line without line breaks. -/
def Line.Whole : Line → Prop
  | .blank => True
  | .text _ content => '\n' ∉ content

mutual

/-- The texts of a step stand on one line each. -/
theorem Step.OneLine.whole : ∀ {step : Step} (_ : step.OneLine) (level : Nat),
    ∀ line ∈ (step.lines level).1, line.Whole
  | .line content, h, level => by simpa [Step.lines, Line.Whole, Step.OneLine] using h
  | .blank, _, level => by simp [Step.lines, Line.Whole]
  | .comment content, h, level => by
    simpa [Step.lines, Line.Whole, Step.OneLine] using h
  | .indent, _, level => nofun
  | .dedent, _, level => nofun
  | .each contents, h, level => by simpa [Step.lines, Line.Whole, Step.OneLine] using h
  | .block header close body, h, level => by
    obtain ⟨hheader, hclose, hbody⟩ := h
    have hinner := OneLineAll.whole hbody (level + 1)
    simp only [Step.lines, List.forall_mem_cons, List.forall_mem_append]
    exact ⟨hheader, hinner, hclose, nofun⟩

/-- The texts of steps stand on one line each. -/
theorem OneLineAll.whole : ∀ {steps : List Step} (_ : OneLineAll steps) (level : Nat),
    ∀ line ∈ (linesAll steps level).1, line.Whole
  | [], _, level => nofun
  | step :: rest, h, level => by
    simp only [linesAll, List.forall_mem_append]
    exact ⟨Step.OneLine.whole h.1 level, OneLineAll.whole h.2 _⟩

end

/-- Indentation without line breaks keeps a line whole. -/
theorem Line.Whole.chars {line : Line} (h : line.Whole) {unit : List Char} (hunit : '\n' ∉ unit) :
    '\n' ∉ line.chars unit := by
  cases line with
  | blank => exact nofun
  | text level content =>
      rw [Line.chars, List.mem_append, not_or]
      refine ⟨fun hmem => ?_, h⟩
      obtain ⟨unit', hunit', hmem⟩ := List.mem_flatten.mp hmem
      exact hunit (List.eq_of_mem_replicate hunit' ▸ hmem)

end FluentBuilder.Layout

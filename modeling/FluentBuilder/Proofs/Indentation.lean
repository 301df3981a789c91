import Mathlib.Data.List.Infix
import FluentBuilder.Proofs.Lines

/-!
# Indentation — a program writes the same lines on every level, further to the right

A program of steps comes down to single calls (`Step.calls`): a block is its header, an indent, its
body, a dedent and its close. As long as no dedent goes below the level on which the program began,
the level of each of its lines is the level of the start and what the calls in front of the line add
to it. Calls that went below level zero would stay there, and what follows would stand too far to
the right.

* **`linesAll_eq`** — the lines of steps are those of their calls.
* **`linesOf_deeper`** — the lines of calls on a level that is further to the right.
* **`StaysAbove.block`** — a block around any body that stays above its own start.
* **`write_indented`** — what a program adds to a page.
-/

namespace FluentBuilder.Layout

/-! ## Calls -/

/-- A call that cannot be taken apart. -/
inductive Call where
  | text (content : List Char)
  | blank
  | indent
  | dedent
  deriving DecidableEq, Repr

mutual

/-- The calls of a step. -/
def Step.calls : Step → List Call
  | .line content => [.text content.toList]
  | .blank => [.blank]
  | .comment content => [.text ('/' :: '/' :: ' ' :: content.toList)]
  | .indent => [.indent]
  | .dedent => [.dedent]
  | .each contents => contents.map fun content => .text content.toList
  | .block header close body =>
    .text header.toList :: .indent :: (callsAll body ++ [.dedent, .text close.toList])

/-- The calls of steps one after the other. -/
def callsAll : List Step → List Call
  | [] => []
  | step :: rest => step.calls ++ callsAll rest

end

/-- The lines of calls that begin on a level, and the level behind them. -/
def linesOf : List Call → Nat → List Line × Nat
  | [], level => ([], level)
  | .text content :: rest, level =>
    let (others, last) := linesOf rest level
    (.text level content :: others, last)
  | .blank :: rest, level =>
    let (others, last) := linesOf rest level
    (.blank :: others, last)
  | .indent :: rest, level => linesOf rest (level + 1)
  | .dedent :: rest, level => linesOf rest (level - 1)

theorem linesOf_append (calls more : List Call) (level : Nat) :
    linesOf (calls ++ more) level =
      ((linesOf calls level).1 ++ (linesOf more (linesOf calls level).2).1,
        (linesOf more (linesOf calls level).2).2) := by
  induction calls generalizing level with
  | nil => rfl
  | cons call rest ih => cases call <;> simp [linesOf, ih]

/-- Texts stand one below the other. -/
theorem linesOf_texts (contents : List String) (level : Nat) :
    linesOf (contents.map fun content => .text content.toList) level =
      (contents.map fun content => .text level content.toList, level) := by
  induction contents with
  | nil => rfl
  | cons content rest ih => rw [List.map_cons, List.map_cons, linesOf, ih]

mutual

/-- **The lines of a step** are those of its calls. -/
theorem Step.lines_eq : ∀ (step : Step) (level : Nat), step.lines level = linesOf step.calls level
  | .line _, _ | .blank, _ | .comment _, _ | .indent, _ | .dedent, _ => rfl
  | .each contents, level => (linesOf_texts contents level).symm
  | .block header close body, level => by
    simp [Step.lines, Step.calls, linesAll_eq body (level + 1), linesOf, linesOf_append]

/-- **The lines of steps** are those of their calls. -/
theorem linesAll_eq : ∀ (steps : List Step) (level : Nat),
    linesAll steps level = linesOf (callsAll steps) level
  | [], _ => rfl
  | step :: rest, level => by
    simp [linesAll, callsAll, Step.lines_eq step level, linesAll_eq rest, linesOf_append]

end

/-- What a call writes, whatever its level; a blank line has no text. -/
def Call.content? : Call → Option (Option (List Char))
  | .text content => some (some content)
  | .blank => some none
  | .indent | .dedent => none

/-- The text of a line without its indentation. -/
def Line.content : Line → Option (List Char)
  | .blank => none
  | .text _ content => some content

/-- There is one line for each call that writes one. -/
theorem linesOf_contents (calls : List Call) (level : Nat) :
    (linesOf calls level).1.map Line.content = calls.filterMap Call.content? := by
  induction calls generalizing level with
  | nil => rfl
  | cons call rest ih =>
      cases call with
      | text content => exact congrArg (some content :: ·) (ih level)
      | blank => exact congrArg (none :: ·) (ih level)
      | indent => exact ih (level + 1)
      | dedent => exact ih (level - 1)

/-! ## Levels -/

/-- Calls that begin a number of levels above a floor never go below it. -/
def Above (height : Nat) (calls : List Call) : Prop :=
  ∀ front, front <+: calls → front.count .dedent ≤ height + front.count .indent

section

variable {height : Nat} {call : Call} {calls rest : List Call}

/-- Nothing is below the floor in front of the first call. -/
theorem above_cons :
    Above height (call :: rest) ↔
      ∀ front, front <+: rest →
        (call :: front).count .dedent ≤ height + (call :: front).count .indent := by
  constructor
  · intro h front hfront
    exact h _ ((List.prefix_cons_inj call).mpr hfront)
  · intro h front hfront
    rcases List.prefix_cons_iff.mp hfront with rfl | ⟨behind, rfl, hbehind⟩
    · exact Nat.zero_le _
    · exact h behind hbehind

/-- A call that leaves the level alone. -/
theorem above_still (hindent : call ≠ .indent) (hdedent : call ≠ .dedent) :
    Above height (call :: rest) ↔ Above height rest := by
  rw [above_cons, Above]
  refine forall₂_congr fun front _ => ?_
  rw [List.count_cons_of_ne hindent, List.count_cons_of_ne hdedent]

theorem above_text {content : List Char} :
    Above height (.text content :: rest) ↔ Above height rest :=
  above_still nofun nofun

theorem above_blank : Above height (.blank :: rest) ↔ Above height rest :=
  above_still nofun nofun

theorem above_indent : Above height (.indent :: rest) ↔ Above (height + 1) rest := by
  rw [above_cons, Above]
  refine forall₂_congr fun front _ => ?_
  rw [List.count_cons_self, List.count_cons_of_ne (by decide)]
  omega

/-- A dedent needs a level that it can leave. -/
theorem above_dedent :
    Above height (.dedent :: rest) ↔ 0 < height ∧ Above (height - 1) rest := by
  have hcount : ∀ front : List Call, (.dedent :: front).count .dedent = front.count .dedent + 1 ∧
      (.dedent :: front).count .indent = front.count .indent := fun front =>
    ⟨List.count_cons_self, List.count_cons_of_ne (by decide)⟩
  rw [above_cons]
  constructor
  · intro h
    have hpos := h [] List.nil_prefix
    refine ⟨by simpa [Nat.lt_iff_add_one_le] using hpos, fun front hfront => ?_⟩
    have hfront := h front hfront
    rw [(hcount front).1, (hcount front).2] at hfront
    omega
  · rintro ⟨hpos, h⟩ front hfront
    have hfront := h front hfront
    rw [(hcount front).1, (hcount front).2]
    omega

theorem above_nil : Above height [] := by
  intro front hfront
  rw [List.prefix_nil.mp hfront]
  exact Nat.zero_le _

/-- Calls that stay above a floor stay above a lower one. -/
theorem Above.mono {lower : Nat} (h : Above lower calls) (hle : lower ≤ height) :
    Above height calls := fun front hfront =>
  Nat.le_trans (h front hfront) (Nat.add_le_add_right hle _)

/-- Calls behind others begin where these have led. -/
theorem Above.append {more : List Call} (h : Above height calls)
    (hmore : Above (height + calls.count .indent - calls.count .dedent) more) :
    Above height (calls ++ more) := by
  -- a front ends inside the first calls or behind them
  rintro front ⟨back, hback⟩
  rcases List.append_eq_append_iff.mp hback with ⟨inside, hcalls, -⟩ | ⟨behind, rfl, hbehind⟩
  · exact h front ⟨inside, hcalls.symm⟩
  · have hcalls := h calls (List.prefix_refl calls)
    have hbehind := hmore behind ⟨back, hbehind.symm⟩
    rw [List.count_append, List.count_append]
    omega

end

/-- **The level behind calls** is where they began and what they add to it. -/
theorem linesOf_level {calls : List Call} {height : Nat} (h : Above height calls) :
    (linesOf calls height).2 + calls.count .dedent = height + calls.count .indent := by
  induction calls generalizing height with
  | nil => rfl
  | cons call rest ih =>
      cases call with
      | text content => exact ih (above_text.mp h)
      | blank => exact ih (above_blank.mp h)
      | indent =>
          have hrest := ih (above_indent.mp h)
          rw [linesOf, List.count_cons_self, List.count_cons_of_ne (by decide)]
          omega
      | dedent =>
          obtain ⟨hpos, habove⟩ := above_dedent.mp h
          have hrest := ih habove
          rw [linesOf, List.count_cons_self, List.count_cons_of_ne (by decide)]
          omega

/-- A line with further indentation; a blank one stays as it is. -/
def Line.deeper (level : Nat) : Line → Line
  | .blank => .blank
  | .text inner content => .text (level + inner) content

/-- **The lines of calls further to the right.** -/
theorem linesOf_deeper {calls : List Call} {height : Nat} (h : Above height calls) (level : Nat) :
    linesOf calls (level + height) =
      ((linesOf calls height).1.map (Line.deeper level), level + (linesOf calls height).2) := by
  induction calls generalizing height with
  | nil => rfl
  | cons call rest ih =>
      cases call with
      | text content =>
          rw [linesOf, linesOf, ih (above_text.mp h)]
          rfl
      | blank =>
          rw [linesOf, linesOf, ih (above_blank.mp h)]
          rfl
      | indent => exact ih (above_indent.mp h)
      | dedent =>
          -- only here the start must not have been left behind
          obtain ⟨hpos, habove⟩ := above_dedent.mp h
          rw [linesOf, linesOf, Nat.add_sub_assoc hpos, ih habove]

/-- The characters of a line behind further units of indentation; a blank one stays bare. -/
def Line.behind (unit : List Char) (level : Nat) (line : Line) : List Char :=
  match line with
  | .blank => []
  | .text _ _ => (List.replicate level unit).flatten ++ line.chars unit

theorem Line.chars_deeper (unit : List Char) (level : Nat) (line : Line) :
    (line.deeper level).chars unit = line.behind unit level := by
  cases line with
  | blank => rfl
  | text inner content =>
      rw [deeper, behind, chars, chars, ← List.replicate_append_replicate, List.flatten_append,
        List.append_assoc]

/-! ## Programs -/

/-- Write steps onto a page, one after the other. -/
def Page.write (indent : Indent) (page : Page) (steps : List Step) : Page :=
  steps.foldl (Page.add indent) page

theorem Page.write_eq (indent : Indent) (page : Page) (steps : List Step) :
    page.write indent steps =
      ⟨page.text ++ (emitAll indent.chars steps page.level).1,
        (emitAll indent.chars steps page.level).2⟩ := by
  induction steps generalizing page with
  | nil => simp [write, emitAll]
  | cons step rest ih =>
      have hstep : page.write indent (step :: rest) =
          (page.add indent step).write indent rest := rfl
      rw [hstep, ih]
      simp [add, emitAll]

/-- No dedent goes below the level on which the steps begin, and neither does the end of a block. -/
def StaysAbove (steps : List Step) : Prop := Above 0 (callsAll steps)

/-- How many more indents than dedents there are among steps. -/
def netIndents (steps : List Step) : Int :=
  (callsAll steps).count .indent - (callsAll steps).count .dedent

/-- The calls of a block. -/
theorem callsAll_block (header close : String) (body : List Step) :
    callsAll [.block header close body] =
      .text header.toList :: .indent :: (callsAll body ++ [.dedent, .text close.toList]) := by
  rw [callsAll, callsAll, Step.calls, List.append_nil]

/-- **A block** stays above the level of its header if its body stays above its own start. -/
theorem StaysAbove.block {body : List Step} (h : StaysAbove body) (header close : String) :
    StaysAbove [.block header close body] := by
  -- the indent of the block is what its own dedent takes back
  have hbody : Above 1 (callsAll body) := h.mono (Nat.zero_le 1)
  have hend := h _ (List.prefix_refl (callsAll body))
  rw [StaysAbove, callsAll_block, above_text, above_indent]
  refine hbody.append (above_dedent.mpr ⟨by omega, above_text.mpr above_nil⟩)

/-- A block leads to where its body leads. -/
theorem netIndents_block (header close : String) (body : List Step) :
    netIndents [.block header close body] = netIndents body := by
  have hindent : (callsAll [.block header close body]).count .indent =
      (callsAll body).count .indent + 1 := by
    simp [callsAll_block]
  have hdedent : (callsAll [.block header close body]).count .dedent =
      (callsAll body).count .dedent + 1 := by
    simp [callsAll_block]
  rw [netIndents, netIndents, hindent, hdedent]
  omega

/-- **The level behind a program** is where it began and what it adds to it. -/
theorem Page.write_level {steps : List Step} (h : StaysAbove steps) (indent : Indent)
    (page : Page) : ((page.write indent steps).level : Int) = page.level + netIndents steps := by
  have hlevel := linesOf_level (h.mono (Nat.zero_le page.level))
  rw [Page.write_eq, emitAll_eq, linesAll_eq, netIndents]
  show ((linesOf (callsAll steps) page.level).2 : Int) = _
  omega

/-- **The text of a program** is that of its lines behind further indentation. -/
theorem Page.write_text {steps : List Step} (h : StaysAbove steps) (indent : Indent)
    (page : Page) :
    (page.write indent steps).text = page.text ++
      unlines ((linesAll steps 0).1.map (Line.behind indent.chars page.level)) := by
  have hlines : (linesAll steps page.level).1 =
      (linesAll steps 0).1.map (Line.deeper page.level) := by
    rw [linesAll_eq, linesAll_eq]
    exact congrArg Prod.fst (linesOf_deeper h page.level)
  rw [Page.write_eq, emitAll_eq, hlines, List.map_map]
  refine congrArg (fun lines => page.text ++ unlines lines) (List.map_congr_left fun line _ => ?_)
  exact Line.chars_deeper indent.chars page.level line

/-- **A program writes the same lines on every level.** If no dedent goes below the level on which
    it begins, each text and each comment stands behind as many further units of indentation as
    that level has, a blank line stays bare, and what the page held before stays in front. The
    level behind the program is the level of its start and its net indents. A block around a body
    that stays above its own start is such a program, wherever it stands, and it leaves the level as
    it was if its body does. A program for each of several items, of any steps and not only of the
    single lines that `Step.each` holds, is these programs one after the other. -/
theorem write_indented :
    (∀ (indent : Indent) (steps : List Step), StaysAbove steps → ∀ page : Page,
      ∃ lines : List Line,
        lines.map Line.content = (callsAll steps).filterMap Call.content? ∧
        (Page.write indent {} steps).text = unlines (lines.map (Line.chars indent.chars)) ∧
        (page.write indent steps).text =
          page.text ++ unlines (lines.map (Line.behind indent.chars page.level)) ∧
        ((page.write indent steps).level : Int) = page.level + netIndents steps) ∧
    (∀ body : List Step, StaysAbove body → ∀ header close : String,
      StaysAbove [.block header close body] ∧
        (netIndents body = 0 → ∀ (indent : Indent) (page : Page),
          (page.write indent [.block header close body]).level = page.level)) ∧
    ∀ (α : Type) (items : List α) (body : α → List Step) (indent : Indent) (page : Page),
      page.write indent (items.flatMap body) =
        items.foldl (fun page item => page.write indent (body item)) page := by
  refine ⟨fun indent steps h page => ?program,
    fun body h header close => ⟨h.block header close, fun hnet indent page => ?block⟩,
    fun α items body indent page => List.foldl_flatMap⟩
  case program =>
    refine ⟨(linesAll steps 0).1, ?_, ?_, page.write_text h indent, page.write_level h indent⟩
    · rw [linesAll_eq, linesOf_contents]
    · rw [Page.write_eq, emitAll_eq, List.nil_append]
  case block =>
    have hlevel := page.write_level (h.block header close) indent
    rw [netIndents_block, hnet, Int.add_zero] at hlevel
    exact Int.ofNat_inj.mp hlevel

/-- `write_indented` for a block whose body ends one level further in, written on level two. -/
theorem write_indented_nested :
    ∃ lines : List Line,
      lines.map Line.content =
        [some ['f'], none, some ['x'], some ['y'], some ['\x7d'], some ['z']] ∧
      (Page.write .tab ⟨['p', '\n'], 2⟩
          [.block "f" "\x7d" [.blank, .indent, .each ["x", "y"]], .line "z", .dedent]).text =
        'p' :: '\n' :: unlines (lines.map (Line.behind ['\t'] 2)) ∧
      (Page.write .tab ⟨['p', '\n'], 2⟩
          [.block "f" "\x7d" [.blank, .indent, .each ["x", "y"]], .line "z", .dedent]).level =
        2 := by
  have habove : StaysAbove
      [.block "f" "\x7d" [.blank, .indent, .each ["x", "y"]], .line "z", .dedent] := by
    intro front hfront
    rw [← List.mem_inits] at hfront
    revert front
    decide
  obtain ⟨hprogram, -⟩ := write_indented
  obtain ⟨lines, hcontents, -, htext, hlevel⟩ := hprogram .tab _ habove ⟨['p', '\n'], 2⟩
  exact ⟨lines, hcontents, htext, Int.ofNat_inj.mp hlevel⟩

end FluentBuilder.Layout

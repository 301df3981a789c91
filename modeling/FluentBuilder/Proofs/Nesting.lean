import FluentBuilder.Proofs.Lines
import FluentBuilder.Proofs.Tidiness

/-!
# Nesting — the indentation of a layout follows the curly brackets of its text

A block opens a curly bracket at the end of its header, goes one level in, and closes the bracket
when it is back. If the brackets of all other lines match, the level of a line is the number of
brackets that are open in front of it.

* **`Nested`** — lines that are indented by the brackets which are open in front of each of them.
* **`Nested.leaves`** — which brackets are open behind such lines.
* **`Layout.Step.Braced.settles`** — the lines of a step whose blocks are in curly brackets are
  nested, they end in no white space of their own, and the step leaves the level as it was.
-/

namespace FluentBuilder

open Text (isBlank)

/-! ## Open brackets -/

/-- The curly brackets. -/
def curly : List (Char × Char) := [('\x7b', '\x7d')]

theorem curly_subset : curly ⊆ brackets := by
  decide

/-- Behind `n` open curly brackets, a text leaves `m` of them open. -/
def Leaves (n : Nat) (s : List Char) (m : Nat) : Prop :=
  s.foldlM (readBracket curly) (List.replicate n '\x7d') = some (List.replicate m '\x7d')

/-- A text leaves a number of curly brackets open, and closes none that it has not opened. -/
abbrev Unclosed (s : List Char) (depth : Nat) : Prop := Leaves 0 s depth

namespace Leaves

variable {n m k : Nat} {s s' : List Char}

theorem nil (n : Nat) : Leaves n [] n := rfl

theorem append (h : Leaves n s m) (h' : Leaves m s' k) : Leaves n (s ++ s') k := by
  rw [Leaves, List.foldlM_append, h]
  exact h'

/-- A text whose brackets match leaves those in front of it open. -/
theorem of_matched (h : Matched curly s) (n : Nat) : Leaves n s n := h.read _

theorem opening (n : Nat) : Leaves n ['\x7b'] (n + 1) := by
  have hread := readBracket_open curly_subset (List.mem_singleton_self _) (List.replicate n '\x7d')
  rw [Leaves, List.foldlM_cons, hread]
  rfl

theorem closing (n : Nat) : Leaves (n + 1) ['\x7d'] n := by
  have hread := readBracket_close curly_subset (List.mem_singleton_self _) (List.replicate n '\x7d')
  rw [Leaves, List.foldlM_cons, List.replicate_succ, hread]
  rfl

end Leaves

/-- A character other than a curly bracket matches, however often it is repeated. -/
theorem matched_replicate {c : Char} (hc : '\x7b' ≠ c ∧ '\x7d' ≠ c) (n : Nat) :
    Matched curly (List.replicate n c) := by
  refine .of_noBracket fun d hd => List.forall_mem_singleton.mpr ?_
  rw [List.eq_of_mem_replicate hd]
  exact hc

/-! ## Nested lines -/

/-- A line is indented by a depth: it has a tab for each level, one less if the line is just a
    closing bracket. -/
def IndentedBy (depth : Nat) (line : List Char) : Prop :=
  ∃ tabs content, line = List.replicate tabs '\t' ++ content ∧ content.head? ≠ some '\t' ∧
    tabs + (if content = ['\x7d'] then 1 else 0) = depth

/-- Lines that are indented by the brackets which are open in front of each of them. They stand
    behind `n` open brackets and leave `m` open. -/
inductive Nested : Nat → List (List Char) → Nat → Prop where
  | nil (n : Nat) : Nested n [] n
  | cons {n m k : Nat} {line : List Char} {rest : List (List Char)}
      (hline : line ≠ [] → IndentedBy n line) (hleaves : Leaves n line k)
      (hrest : Nested k rest m) : Nested n (line :: rest) m

namespace Nested

variable {n m k : Nat} {lines others : List (List Char)}

theorem append (h : Nested n lines m) (h' : Nested m others k) : Nested n (lines ++ others) k := by
  induction h with
  | nil => exact h'
  | cons hline hleaves _ ih => exact .cons hline hleaves (ih h')

/-- Nested lines are nested up to any line, and from there on. -/
theorem split (h : Nested n (lines ++ others) m) : ∃ k, Nested n lines k ∧ Nested k others m := by
  induction lines generalizing n with
  | nil => exact ⟨n, .nil n, h⟩
  | cons line rest ih =>
      cases h with
      | cons hline hleaves hrest =>
          obtain ⟨k, hfront, hback⟩ := ih hrest
          exact ⟨k, .cons hline hleaves hfront, hback⟩

/-- **Which brackets are open behind nested lines**: the line breaks change nothing. -/
theorem leaves (h : Nested n lines m) : Leaves n (Layout.unlines lines) m := by
  induction h with
  | nil n => exact .nil n
  | @cons n m k line rest _ hleaves _ ih =>
      have hbreak : Leaves k ['\n'] k := .of_matched (by decide) k
      exact (hleaves.append hbreak).append ih

/-- A line among nested ones is indented by the brackets that are open in front of it. -/
theorem indented {line : List Char} (h : Nested n (lines ++ line :: others) m) (hne : line ≠ []) :
    ∃ depth, Leaves n (Layout.unlines lines) depth ∧ IndentedBy depth line := by
  obtain ⟨depth, hfront, hback⟩ := h.split
  cases hback with
  | cons hline _ _ => exact ⟨depth, hfront.leaves, hline hne⟩

end Nested

/-! ## The content of lines -/

/-- A text that a line can begin with behind its tabs. -/
structure BeginsLine (s : List Char) : Prop where
  ne_nil  : s ≠ []
  matched : Matched curly s
  first   : s.head? ≠ some '\t'

instance (s : List Char) : Decidable (BeginsLine s) :=
  decidable_of_iff (s ≠ [] ∧ Matched curly s ∧ s.head? ≠ some '\t')
    ⟨fun ⟨hne, hmatched, hfirst⟩ => ⟨hne, hmatched, hfirst⟩,
      fun h => ⟨h.ne_nil, h.matched, h.first⟩⟩

/-- A text ends in white space only of some kinds. -/
def Trimmed (mayEnd : Char → Prop) (s : List Char) : Prop :=
  ∀ c ∈ s.getLast?, isBlank c = true → mayEnd c

/-- A text that a line can end with. -/
structure EndsLine (mayEnd : Char → Prop) (s : List Char) : Prop where
  ne_nil  : s ≠ []
  matched : Matched curly s
  trimmed : Trimmed mayEnd s

/-- A text that can be the whole of a line behind its tabs. -/
def FillsLine (mayEnd : Char → Prop) (s : List Char) : Prop := BeginsLine s ∧ EndsLine mayEnd s

section

variable {mayEnd : Char → Prop} {s s' : List Char}

theorem BeginsLine.append (h : BeginsLine s) (h' : Matched curly s') : BeginsLine (s ++ s') where
  ne_nil := List.append_ne_nil_of_left_ne_nil h.ne_nil s'
  matched := h.matched.append h'
  first := by
    rw [List.head?_append_of_ne_nil _ h.ne_nil]
    exact h.first

theorem Trimmed.append (h : Trimmed mayEnd s') (hne : s' ≠ []) (s : List Char) :
    Trimmed mayEnd (s ++ s') := by
  rw [Trimmed, List.getLast?_append_of_ne_nil _ hne]
  exact h

theorem Trimmed.of_last {c : Char} (hlast : s.getLast? = some c) (hc : isBlank c = false) :
    Trimmed mayEnd s := by
  intro d hd hblank
  rw [hlast, Option.mem_some_iff] at hd
  rw [← hd, hc] at hblank
  cases hblank

theorem EndsLine.append (h : Matched curly s) (h' : EndsLine mayEnd s') :
    EndsLine mayEnd (s ++ s') where
  ne_nil := List.append_ne_nil_of_right_ne_nil s h'.ne_nil
  matched := h.append h'.matched
  trimmed := h'.trimmed.append h'.ne_nil s

/-- A text ends a line if its last character is no white space. -/
theorem EndsLine.of_last (hmatched : Matched curly s) {c : Char} (hlast : s.getLast? = some c)
    (hc : isBlank c = false) : EndsLine mayEnd s := by
  refine ⟨?_, hmatched, .of_last hlast hc⟩
  rintro rfl
  cases hlast

/-- Texts whose brackets match can follow what begins a line. -/
theorem BeginsLine.flatten {texts : List (List Char)} (h : BeginsLine s)
    (htexts : ∀ text ∈ texts, Matched curly text) : BeginsLine (s :: texts).flatten := by
  refine h.append ?_
  induction texts with
  | nil => exact .nil
  | cons text rest ih =>
      obtain ⟨htext, hrest⟩ := List.forall_mem_cons.mp htexts
      exact htext.append (ih hrest)

/-- What begins a line and what ends one are a line together. -/
theorem FillsLine.append (h : BeginsLine s) (h' : EndsLine mayEnd s') :
    FillsLine mayEnd (s ++ s') :=
  ⟨h.append h'.matched, .append h.matched h'⟩

/-- The marks of a comment begin a line. -/
theorem EndsLine.comment (h : EndsLine mayEnd s) : FillsLine mayEnd ('/' :: '/' :: ' ' :: s) :=
  .append (s := ['/', '/', ' ']) (by decide) h

namespace IsBare

theorem append (h : IsBare s) (h' : IsBare s') : IsBare (s ++ s') where
  ne_nil := List.append_ne_nil_of_left_ne_nil h.ne_nil s'
  noBlank := List.forall_mem_append.mpr ⟨h.noBlank, h'.noBlank⟩
  noBracket := List.forall_mem_append.mpr ⟨h.noBracket, h'.noBracket⟩

theorem matched (h : IsBare s) : Matched curly s :=
  .of_noBracket fun c hc kind hkind => h.noBracket c hc kind (curly_subset hkind)

theorem beginsLine (h : IsBare s) : BeginsLine s := by
  refine ⟨h.ne_nil, h.matched, fun hfirst => ?_⟩
  exact absurd (h.noBlank _ (List.mem_of_head? hfirst)) (by decide)

theorem endsLine (h : IsBare s) : EndsLine mayEnd s :=
  .of_last h.matched (List.getLast?_eq_some_getLast h.ne_nil)
    (h.noBlank _ (List.getLast_mem h.ne_nil))

end IsBare

end

/-! ## Layouts -/

namespace Layout

section

variable {mayEnd : Char → Prop}

mutual

/-- Decide whether the blocks of a step are in curly brackets and all others match. -/
def Step.Braced (mayEnd : Char → Prop) : Step → Prop
  | .line content => FillsLine mayEnd content.toList
  | .comment content => EndsLine mayEnd content.toList
  | .blank => True
  | .indent | .dedent => False
  | .each contents => ∀ content ∈ contents, FillsLine mayEnd content.toList
  | .block header close body =>
    (∃ front, header.toList = front ++ ['\x7b'] ∧ BeginsLine front) ∧ close = "\x7d" ∧
      BracedAll mayEnd body

/-- Decide so of several steps. -/
def BracedAll (mayEnd : Char → Prop) : List Step → Prop
  | [] => True
  | step :: rest => step.Braced mayEnd ∧ BracedAll mayEnd rest

end

/-- Several steps are in brackets if each of them is. -/
theorem bracedAll_iff {steps : List Step} :
    BracedAll mayEnd steps ↔ ∀ step ∈ steps, step.Braced mayEnd := by
  induction steps with
  | nil => exact ⟨fun _ => nofun, fun _ => trivial⟩
  | cons step rest ih => rw [List.forall_mem_cons, BracedAll, ih]

/-- The characters of a line that is indented with tabs. -/
abbrev Line.tabbed (line : Line) : List Char := line.chars ['\t']

theorem Line.tabbed_text (level : Nat) (content : List Char) :
    (Line.text level content).tabbed = List.replicate level '\t' ++ content := by
  rw [Line.tabbed, Line.chars, List.flatten_replicate_singleton]

/-- Indenting a text does not change the brackets that it leaves open. -/
theorem leaves_tabbed {n m : Nat} {content : List Char} (h : Leaves n content m) (level : Nat) :
    Leaves n (Line.text level content).tabbed m := by
  rw [Line.tabbed_text]
  exact (Leaves.of_matched (matched_replicate (by decide) level) n).append h

/-- A line on the level of the open brackets that begins with no tab is indented by them, unless it
    is a closing bracket. -/
theorem indentedBy_tabbed {level : Nat} {content : List Char} (hfirst : content.head? ≠ some '\t')
    (hclose : content ≠ ['\x7d']) : IndentedBy level (Line.text level content).tabbed := by
  refine ⟨level, content, Line.tabbed_text level content, hfirst, ?_⟩
  rw [if_neg hclose, Nat.add_zero]

/-- A text that fills a line can stand on the level of the open brackets. -/
theorem nested_text {content : List Char} (h : BeginsLine content) (level : Nat) :
    Nested level [(Line.text level content).tabbed] level := by
  have hclose : content ≠ ['\x7d'] := by
    rintro rfl
    exact absurd h.matched (by decide)
  exact .cons (fun _ => indentedBy_tabbed h.first hclose)
    (leaves_tabbed (.of_matched h.matched level) level) (.nil level)

/-- A text in front of an opening bracket stands there, too, and goes one level in. -/
theorem nested_header {front : List Char} (h : BeginsLine front) (level : Nat) :
    Nested level [(Line.text level (front ++ ['\x7b'])).tabbed] (level + 1) := by
  have hfirst : (front ++ ['\x7b']).head? ≠ some '\t' := by
    rw [List.head?_append_of_ne_nil _ h.ne_nil]
    exact h.first
  have hclose : front ++ ['\x7b'] ≠ ['\x7d'] := fun heq =>
    absurd (congrArg List.getLast? heq) (by simp)
  have hopen : Leaves level (front ++ ['\x7b']) (level + 1) :=
    (Leaves.of_matched h.matched level).append (.opening level)
  exact .cons (fun _ => indentedBy_tabbed hfirst hclose) (leaves_tabbed hopen level) (.nil _)

/-- A closing bracket stands one level out. -/
theorem nested_close (level : Nat) :
    Nested (level + 1) [(Line.text level ['\x7d']).tabbed] level :=
  .cons (fun _ => ⟨level, ['\x7d'], Line.tabbed_text level _, by decide, rfl⟩)
    (leaves_tabbed (.closing level) level) (.nil level)

/-- Several texts stand one below the other. -/
theorem nested_each {contents : List String} {level : Nat}
    (h : ∀ content ∈ contents, BeginsLine content.toList) :
    Nested level
      ((contents.map fun content => Line.text level content.toList).map Line.tabbed) level := by
  induction contents with
  | nil => exact .nil level
  | cons content rest ih =>
      obtain ⟨hcontent, hrest⟩ := List.forall_mem_cons.mp h
      exact (nested_text hcontent level).append (ih hrest)

/-- Indenting a text does not change what it ends in. -/
theorem trimmed_tabbed {content : List Char} (hne : content ≠ []) (h : Trimmed mayEnd content)
    (level : Nat) : Trimmed mayEnd (Line.text level content).tabbed := by
  rw [Line.tabbed_text]
  exact h.append hne _

/-- A line that ends in a bracket does not end in white space. -/
theorem trimmed_bracket (front : List Char) {bracket : Char} (hbracket : isBlank bracket = false)
    (level : Nat) : Trimmed mayEnd (Line.text level (front ++ [bracket])).tabbed :=
  trimmed_tabbed (by simp) (.of_last List.getLast?_concat hbracket) level

/-! ### Steps -/

/-- Lines and the level behind them that are as they should be on a level: the level is the same
    again, the lines are nested, and they end in white space only of some kinds. -/
structure Settles (mayEnd : Char → Prop) (level : Nat) (result : List Line × Nat) : Prop where
  back    : result.2 = level
  nested  : Nested level (result.1.map Line.tabbed) level
  trimmed : ∀ line ∈ result.1, Trimmed mayEnd line.tabbed

/-- A text that fills a line is one. -/
theorem settles_text {content : List Char} (h : FillsLine mayEnd content) (level : Nat) :
    Settles mayEnd level ([.text level content], level) where
  back := rfl
  nested := nested_text h.1 level
  trimmed := List.forall_mem_singleton.mpr (trimmed_tabbed h.2.ne_nil h.2.trimmed level)

/-- So are several of them. -/
theorem settles_each {contents : List String}
    (h : ∀ content ∈ contents, FillsLine mayEnd content.toList) (level : Nat) :
    Settles mayEnd level (contents.map fun content => .text level content.toList, level) where
  back := rfl
  nested := nested_each fun content hmem => (h content hmem).1
  trimmed := List.forall_mem_map.mpr fun content hmem =>
    trimmed_tabbed (h content hmem).2.ne_nil (h content hmem).2.trimmed level

mutual

/-- **The lines of a step in brackets are nested** and end in no white space of their own, and the
    step leaves the level as it was. -/
theorem Step.Braced.settles : ∀ {step : Step} (_ : step.Braced mayEnd) (level : Nat),
    Settles mayEnd level (step.lines level)
  | .line content, h, level => settles_text h level
  | .comment content, h, level => settles_text h.comment level
  | .blank, _, level =>
    ⟨rfl, .cons (fun hne => absurd rfl hne) (.nil level) (.nil level),
      List.forall_mem_singleton.mpr nofun⟩
  | .each contents, h, level => settles_each h level
  | .block header close body, h, level => by
    obtain ⟨⟨front, hheader, hfront⟩, rfl, hbody⟩ := h
    -- The body keeps the bracket of the header open, so the close finds it on the way back.
    obtain ⟨hafter, hinner, htrimmed⟩ := BracedAll.settles hbody (level + 1)
    simp only [Step.lines, hafter, hheader, Nat.add_sub_cancel]
    refine ⟨rfl, ?_, ?_⟩
    · simp only [List.map_cons, List.map_append]
      exact (nested_header hfront level).append (hinner.append (nested_close level))
    · rw [List.forall_mem_cons, List.forall_mem_append]
      exact ⟨trimmed_bracket front (by decide) level, htrimmed,
        List.forall_mem_singleton.mpr (trimmed_bracket [] (by decide) level)⟩

/-- So are the lines of several steps. -/
theorem BracedAll.settles : ∀ {steps : List Step} (_ : BracedAll mayEnd steps) (level : Nat),
    Settles mayEnd level (linesAll steps level)
  | [], _, level => ⟨rfl, .nil level, nofun⟩
  | step :: rest, h, level => by
    obtain ⟨hafter, hstep, htrimmed⟩ := Step.Braced.settles h.1 level
    obtain ⟨hlast, hrest, htrimmed'⟩ := BracedAll.settles h.2 level
    simp only [linesAll, hafter]
    refine ⟨hlast, ?_, List.forall_mem_append.mpr ⟨htrimmed, htrimmed'⟩⟩
    rw [List.map_append]
    exact hstep.append hrest

end

end

end Layout

end FluentBuilder

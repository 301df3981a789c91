import FluentBuilder.Proofs.Nesting
import FluentBuilder.Proofs.Recovery
import FluentBuilder.Proofs.Spacing

/-!
# Alignment — the layout of the text of a builder

The blocks of a builder are in curly brackets, and what else stands in its lines are names, marks
and signatures. So if the brackets of the signatures match, the lines are indented by the brackets
that are open in front of them. Names are filled up to the widest one, which puts what stands behind
them into one column.

* **`isBare_unexported`** — the identifier for a bare name is bare.
* **`Plan.Neat.layout`** — the blocks of a builder are in curly brackets.
* **`inColumn_padRight`** — what stands behind texts of one width stands in one column.
* **`Blueprint.render_aligned`** — the text of a builder is aligned.
-/

namespace FluentBuilder

open Layout
open Text (isBlank)

/-! ## Bare names -/

/-- A word is bare. -/
theorem Go.IsWord.isBare {s : List Char} (h : IsWord s) : IsBare s := by
  obtain ⟨c, rest, rfl, hc, hrest⟩ := isWord_iff.mp h
  have hbrackets : ∀ kind ∈ brackets,
      Text.isIdentPart kind.1 = false ∧ Text.isIdentPart kind.2 = false := by
    decide
  have hpart : ∀ d ∈ c :: rest, Text.isIdentPart d = true :=
    List.forall_mem_cons.mpr ⟨by rw [Text.isIdentPart, hc, Bool.true_or], hrest⟩
  refine ⟨List.cons_ne_nil c rest, fun d hd => isBlank_inToken (.inl (hpart d hd)), ?_⟩
  intro d hd kind hkind
  obtain ⟨hopen, hclose⟩ := hbrackets kind hkind
  constructor
  · rintro rfl
    exact h.not_mem hopen hd
  · rintro rfl
    exact h.not_mem hclose hd

/-- The characters that do not stand in bare texts. -/
def IsMark (d : Char) : Prop := isBlank d = true ∨ ∃ kind ∈ brackets, kind.1 = d ∨ kind.2 = d

/-- Lowering the case of other characters makes no marks. -/
theorem IsMark.unmade {d : Char} (h : IsMark d) : Text.Unmade d ∧ d ≠ '_' := by
  let bracketPoints := [0x28, 0x29, 0x5B, 0x5D, 0x7B, 0x7D]
  let letters := ['_', 'i', Char.ofNat 0x307, 'ς', 'σ']
  have hpoints : ∀ n ∈ Go.blankPoints ++ bracketPoints, 0 < n ∧ n ∉ letters.map Char.toNat ∧
      ∀ s ∈ Text.lowerShifts, n < s.target ∨ s.target + (s.last - s.first) < n := by
    decide +kernel
  have hbrackets : ∀ kind ∈ brackets,
      kind.1.toNat ∈ bracketPoints ∧ kind.2.toNat ∈ bracketPoints := by
    decide
  have hpoint : d.toNat ∈ Go.blankPoints ++ bracketPoints := by
    rcases h with hblank | ⟨kind, hkind, rfl | rfl⟩
    · exact List.mem_append_left _ (Go.mem_blankPoints hblank)
    · exact List.mem_append_right _ (hbrackets kind hkind).1
    · exact List.mem_append_right _ (hbrackets kind hkind).2
  obtain ⟨hpos, hother, hunreached⟩ := hpoints _ hpoint
  have hletters : d ∉ letters := fun hmem => hother (List.mem_map_of_mem hmem)
  exact ⟨.of_unreached hpos hunreached fun hmem => hletters (.tail _ hmem),
    fun heq => hletters (heq ▸ .head _)⟩

/-- The lower case of a name is not empty. -/
theorem lowered_ne_nil {cs : List Char} (h : cs ≠ []) : lowered cs ≠ [] := by
  obtain ⟨c, rest, rfl⟩ := List.exists_cons_of_ne_nil h
  obtain ⟨others, hothers⟩ := lowered_eq_append c rest
  rw [hothers]
  rcases Text.lowerChar_cases c with ⟨d, hd⟩ | hdotted
  · simp [hd]
  · simp [hdotted]

/-- **The identifier for a bare name is bare.** -/
theorem isBare_unexported {name : String} (h : IsBare name.toList) :
    IsBare (unexported name).toList := by
  -- A mark in the identifier would be one in the name, which has none.
  have hnoMark : ∀ c ∈ (unexported name).toList, ¬ IsMark c := by
    intro c hc hmark
    have hmem := mem_of_mem_unexported hmark.unmade.1 hmark.unmade.2 hc
    rcases hmark with hblank | ⟨kind, hkind, heq⟩
    · rw [h.noBlank c hmem] at hblank
      cases hblank
    · exact heq.elim (h.noBracket c hmem kind hkind).1 (h.noBracket c hmem kind hkind).2
  refine ⟨?_, fun c hc => ?_, fun c hc kind hkind => ?_⟩
  · have hne : name ≠ "" := fun hempty => h.ne_nil (hempty ▸ rfl)
    rcases unexported_cases hne with ⟨hident, -⟩ | ⟨hident, -⟩
    · rw [hident, escape, String.toList_ofList]
      exact List.cons_ne_nil _ _
    · rw [hident, String.toList_ofList]
      exact lowered_ne_nil h.ne_nil
  · by_contra hblank
    exact hnoMark c hc (.inl (by simpa using hblank))
  · exact ⟨fun heq => hnoMark c hc (.inr ⟨kind, hkind, .inl heq⟩),
      fun heq => hnoMark c hc (.inr ⟨kind, hkind, .inr heq⟩)⟩

/-! ## Braces of a builder -/

namespace Plan

/-- The names of a builder are bare, and its signatures can stand at the end of a line. -/
structure Neat (mayEnd : Char → Prop) (plan : Plan) (package target : String) : Prop where
  package  : IsBare package.toList
  target   : IsBare target.toList
  receiver : IsBare plan.receiver.toList
  slots    : ∀ slot ∈ plan.slots, IsBare slot.ident.toList ∧ IsBare slot.member.name.toList ∧
    EndsLine mayEnd slot.member.signature.toList

namespace Neat

variable {mayEnd : Char → Prop} {plan : Plan} {package target : String}

/-- Blanks that fill up a text change no brackets. -/
theorem padRight {text : String} (h : IsBare text.toList) (width : Nat) :
    BeginsLine (FluentBuilder.padRight width text).toList := by
  rw [FluentBuilder.padRight, String.toList_ofList]
  exact h.beginsLine.append (matched_replicate (by decide) _)

/-- The name of the builder type is bare. -/
theorem builder (h : plan.Neat mayEnd package target) : IsBare (target ++ "Builder").toList := by
  rw [String.toList_append]
  exact h.target.append (by decide)

/-- The struct type is in brackets. -/
theorem typeLayout (h : plan.Neat mayEnd package target) :
    (plan.typeLayout (target ++ "Builder")).Braced mayEnd := by
  have hbegin : BeginsLine ("type ".toList ++ (target ++ "Builder").toList) :=
    .append (by decide) h.builder.matched
  unfold Plan.typeLayout
  split
  · simp only [Step.Braced, toString_eq, String.toList_append] at hbegin ⊢
    exact .append hbegin (.of_last (by decide) rfl (by decide))
  · have hstruct : Matched curly " struct ".toList := by decide
    refine ⟨⟨_, ?_, hbegin.append hstruct⟩, rfl, ?_, trivial⟩
    · simp [toString_eq]
    · intro content hcontent
      obtain ⟨slot, hslot, rfl⟩ := List.mem_map.mp hcontent
      obtain ⟨hident, -, htype⟩ := h.slots slot hslot
      simp only [toString_eq, String.toList_append, List.append_assoc]
      exact .append (padRight hident _) (.append (by decide) htype)

/-- The returned value is in brackets. -/
theorem resultLayout (h : plan.Neat mayEnd package target) :
    (plan.resultLayout target).Braced mayEnd := by
  have hbegin : BeginsLine ("return ".toList ++ target.toList) :=
    .append (by decide) h.target.matched
  unfold Plan.resultLayout
  split
  · simp only [Step.Braced, toString_eq, String.toList_append]
    exact .append hbegin (.of_last (by decide) rfl (by decide))
  · refine ⟨⟨_, ?_, hbegin⟩, rfl, ?_, trivial⟩
    · simp [toString_eq]
    · intro content hcontent
      obtain ⟨slot, hslot, rfl⟩ := List.mem_map.mp hcontent
      obtain ⟨hident, hname, -⟩ := h.slots slot hslot
      have hkey : IsBare (slot.member.name ++ ":").toList := by
        rw [String.toList_append]
        exact hname.append (by decide)
      have hvalue : EndsLine mayEnd (slot.ident.toList ++ ",".toList) :=
        (hident.append (by decide)).endsLine
      simp only [toString_eq, String.toList_append, List.append_assoc]
      exact .append (padRight hkey _)
        (.append (by decide) (.append h.receiver.matched (.append (by decide) hvalue)))

/-- A setter is in brackets. -/
theorem setterLayout (h : plan.Neat mayEnd package target) {slot : Slot}
    (hslot : slot ∈ plan.slots) :
    ∀ step ∈ plan.setterLayout (target ++ "Builder") slot, step.Braced mayEnd := by
  obtain ⟨hident, hname, htype⟩ := h.slots slot hslot
  have hhead : BeginsLine ["func (".toList, plan.receiver.toList, " *".toList,
      (target ++ "Builder").toList, ") ".toList, slot.member.name.toList, "(".toList,
      slot.ident.toList, " ".toList, slot.member.signature.toList, ") *".toList,
      (target ++ "Builder").toList, " ".toList].flatten := by
    refine .flatten (by decide) ?_
    simp only [List.forall_mem_cons]
    exact ⟨h.receiver.matched, by decide, h.builder.matched, by decide, hname.matched, by decide,
      hident.matched, by decide, htype.matched, by decide, h.builder.matched, by decide,
      List.forall_mem_nil _⟩
  have hassign : FillsLine mayEnd (plan.receiver.toList ++ (".".toList ++ (slot.ident.toList ++
      (" = ".toList ++ slot.ident.toList)))) :=
    .append h.receiver.beginsLine (.append (by decide) (.append hident.matched
      (.append (by decide) hident.endsLine)))
  have hreturn : FillsLine mayEnd ("return ".toList ++ plan.receiver.toList) :=
    .append (by decide) h.receiver.endsLine
  simp only [Plan.setterLayout, List.forall_mem_cons]
  refine ⟨trivial, ⟨⟨_, ?_, hhead⟩, rfl, ?_, ?_, trivial⟩, List.forall_mem_nil _⟩
  · simp [toString_eq]
  · simpa only [Step.Braced, toString_eq, String.toList_append, List.append_assoc] using hassign
  · simpa only [Step.Braced, toString_eq, String.toList_append] using hreturn

/-- The constructor is in brackets. -/
theorem newLayout (h : plan.Neat mayEnd package target) :
    (newLayout (target ++ "Builder")).Braced mayEnd := by
  have hhead : BeginsLine ["func New".toList, (target ++ "Builder").toList, "() *".toList,
      (target ++ "Builder").toList, " ".toList].flatten := by
    refine .flatten (by decide) ?_
    simp only [List.forall_mem_cons]
    exact ⟨h.builder.matched, by decide, h.builder.matched, by decide, List.forall_mem_nil _⟩
  have hreturn : FillsLine mayEnd ("return &".toList ++ ((target ++ "Builder").toList ++
      "\x7b\x7d".toList)) :=
    .append (by decide) (.append h.builder.matched (.of_last (by decide) rfl (by decide)))
  refine ⟨⟨_, ?_, hhead⟩, rfl, ?_, trivial⟩
  · simp [toString_eq]
  · simpa only [Step.Braced, toString_eq, String.toList_append, List.append_assoc] using hreturn

/-- The method that builds the value is in brackets. -/
theorem buildLayout (h : plan.Neat mayEnd package target) :
    (plan.buildLayout (target ++ "Builder") target).Braced mayEnd := by
  have hhead : BeginsLine ["func (".toList, plan.receiver.toList, " *".toList,
      (target ++ "Builder").toList, ") ".toList, buildName.toList, "() ".toList, target.toList,
      " ".toList].flatten := by
    refine .flatten (by decide) ?_
    simp only [List.forall_mem_cons]
    exact ⟨h.receiver.matched, by decide, h.builder.matched, by decide, by decide, by decide,
      h.target.matched, by decide, List.forall_mem_nil _⟩
  refine ⟨⟨_, ?_, hhead⟩, rfl, h.resultLayout, trivial⟩
  simp [toString_eq]

/-- **The blocks of a builder are in curly brackets.** -/
theorem layout (h : plan.Neat mayEnd package target) :
    BracedAll mayEnd (plan.layout package target) := by
  have hpackage : FillsLine mayEnd ("package ".toList ++ package.toList) :=
    .append (by decide) h.package.endsLine
  rw [bracedAll_iff, Plan.layout]
  simp only [List.forall_mem_append, List.forall_mem_cons, List.mem_flatMap]
  refine ⟨⟨⟨?_, trivial, ?_, trivial, h.typeLayout, trivial, h.newLayout, List.forall_mem_nil _⟩,
    ?_⟩, trivial, h.buildLayout, List.forall_mem_nil _⟩
  · exact .of_last (by decide) rfl (by decide)
  · simpa only [Step.Braced, toString_eq, String.toList_append] using hpackage
  · rintro step ⟨slot, hslot, hstep⟩
    exact h.setterLayout hslot step hstep

/-- **The lines of a builder are nested** and end in no white space of their own. -/
theorem lines (h : plan.Neat mayEnd package target) :
    Nested 0 (shown (plan.lines package target)) 0 ∧
      ∀ line ∈ shown (plan.lines package target), Trimmed mayEnd line := by
  obtain ⟨-, hnested, htrimmed⟩ := h.layout.settles 0
  rw [layout_lines] at hnested htrimmed
  exact ⟨hnested, List.forall_mem_map.mpr htrimmed⟩

end Neat

end Plan

/-! ## Columns -/

/-- A text is not wider than the widest one. -/
theorem length_le_widest {texts : List String} {text : String} (h : text ∈ texts) :
    text.toList.length ≤ widest texts := by
  have hfold : ∀ (texts : List String) (width : Nat), (∀ text ∈ texts, text.toList.length ≤
      texts.foldl (fun width text => max width text.toList.length) width) ∧
        width ≤ texts.foldl (fun width text => max width text.toList.length) width := by
    intro texts
    induction texts with
    | nil => exact fun width => ⟨nofun, le_refl width⟩
    | cons text rest ih =>
        intro width
        obtain ⟨hrest, hstart⟩ := ih (max width text.toList.length)
        exact ⟨List.forall_mem_cons.mpr ⟨le_trans (le_max_right _ _) hstart, hrest⟩,
          le_trans (le_max_left _ _) hstart⟩
  exact (hfold texts 0).1 text h

/-- A text stands in a column of a line: behind what comes first in the line there are blanks up to
    the column. -/
def InColumn (column : Nat) (key value line : List Char) : Prop :=
  ∃ gap, line = key ++ List.replicate (gap + 1) ' ' ++ value ∧ key.length + (gap + 1) = column

/-- **What stands behind texts that are filled up** to one width stands in one column. -/
theorem inColumn_padRight {text : String} {width : Nat} (h : text.toList.length ≤ width)
    (tabs : Nat) (value : List Char) :
    InColumn (tabs + width + 1) (List.replicate tabs '\t' ++ text.toList) value
      (Line.text tabs ((padRight width text).toList ++ ' ' :: value)).tabbed := by
  refine ⟨width - text.toList.length, ?_, ?_⟩
  · rw [Line.tabbed_text, padRight, String.toList_ofList, List.replicate_succ']
    simp only [List.append_assoc, List.singleton_append]
  · rw [List.length_append, List.length_replicate]
    omega

namespace Plan

/-- The line of a member in the struct type. -/
def fieldLine (plan : Plan) (slot : Slot) : Line :=
  let width := widest (plan.slots.map (·.ident))
  .text 1 ((padRight width slot.ident).toList ++ ' ' :: slot.member.signature.toList)

/-- The line of a member in the returned value. -/
def entryLine (plan : Plan) (slot : Slot) : Line :=
  let width := widest (plan.slots.map (·.member.name)) + 1
  .text 2 ((padRight width (slot.member.name ++ ":")).toList ++
    ' ' :: s!"{plan.receiver}.{slot.ident},".toList)

variable {plan : Plan}

/-- The lines of a struct type with members. -/
theorem typeLayout_lines (hne : plan.slots ≠ []) (builder : String) :
    ((plan.typeLayout builder).lines 0).1 =
      .text 0 s!"type {builder} struct \x7b".toList ::
        (plan.slots.map plan.fieldLine ++ [.text 0 ['\x7d']]) := by
  have hsome : ¬ plan.slots.isEmpty = true := by simpa using hne
  rw [typeLayout, if_neg hsome]
  simp [Step.lines, linesAll, fieldLine, toString_eq]

/-- The lines of a returned value with members. -/
theorem resultLayout_lines (hne : plan.slots ≠ []) (target : String) :
    ((plan.resultLayout target).lines 1).1 =
      .text 1 s!"return {target}\x7b".toList ::
        (plan.slots.map plan.entryLine ++ [.text 1 ['\x7d']]) := by
  have hsome : ¬ plan.slots.isEmpty = true := by simpa using hne
  rw [resultLayout, if_neg hsome]
  simp [Step.lines, linesAll, entryLine, toString_eq]

/-- The struct type stands in a builder. -/
theorem typeLayout_infix (plan : Plan) (package target : String) :
    ((plan.typeLayout (target ++ "Builder")).lines 0).1 <:+: plan.lines package target := by
  refine ⟨topLines package, newLines (target ++ "Builder") ++
    plan.slots.flatMap (plan.setterLines (target ++ "Builder")) ++
      plan.buildLines (target ++ "Builder") target, ?_⟩
  simp only [lines, List.append_assoc]

/-- The returned value stands in a builder. -/
theorem resultLayout_infix (plan : Plan) (package target : String) :
    ((plan.resultLayout target).lines 1).1 <:+: plan.lines package target := by
  have hbuild : ((plan.resultLayout target).lines 1).1 <:+:
      plan.buildLines (target ++ "Builder") target :=
    List.infix_append _ _ _
  exact hbuild.trans (List.suffix_append _ _).isInfix

namespace Sound

variable {members : List Member}

/-- A plan for members has slots. -/
theorem slots_ne_nil (h : plan.Sound members) (hne : members ≠ []) : plan.slots ≠ [] := by
  intro hnil
  have hmembers := h.members
  rw [hnil] at hmembers
  exact hne hmembers.symm

/-- **The types in the struct type stand in one column.** -/
theorem fields_inColumn (h : plan.Sound members) (hne : members ≠ []) (package target : String) :
    ∃ column fields,
      s!"type {target}Builder struct \x7b".toList :: (fields ++ [['\x7d']]) <:+:
        shown (plan.lines package target) ∧
      List.Forall₂ (fun member line => InColumn column ('\t' :: (unexported member.name).toList)
        member.signature.toList line) members fields := by
  refine ⟨1 + widest (plan.slots.map (·.ident)) + 1,
    plan.slots.map fun slot => (plan.fieldLine slot).tabbed, ?_, ?_⟩
  · have hinfix := (plan.typeLayout_infix package target).map Line.tabbed
    rw [typeLayout_lines (h.slots_ne_nil hne)] at hinfix
    simpa [Line.tabbed_text, toString_eq, Function.comp_def] using hinfix
  · rw [← h.members, List.forall₂_map_left_iff, List.forall₂_map_right_iff, List.forall₂_same]
    intro slot hslot
    rw [← h.named slot hslot]
    exact inColumn_padRight (length_le_widest (List.mem_map_of_mem hslot)) 1 _

/-- **The values in the returned value stand in one column.** -/
theorem entries_inColumn (h : plan.Sound members) (hne : members ≠ []) (package target : String) :
    ∃ column entries,
      ('\t' :: s!"return {target}\x7b".toList) :: (entries ++ [['\t', '\x7d']]) <:+:
        shown (plan.lines package target) ∧
      List.Forall₂ (fun member line => InColumn column
        ('\t' :: '\t' :: (member.name ++ ":").toList)
        s!"{plan.receiver}.{unexported member.name},".toList line) members entries := by
  refine ⟨2 + (widest (plan.slots.map (·.member.name)) + 1) + 1,
    plan.slots.map fun slot => (plan.entryLine slot).tabbed, ?_, ?_⟩
  · have hinfix := (plan.resultLayout_infix package target).map Line.tabbed
    rw [resultLayout_lines (h.slots_ne_nil hne)] at hinfix
    simpa [Line.tabbed_text, toString_eq, Function.comp_def] using hinfix
  · rw [← h.members, List.forall₂_map_left_iff, List.forall₂_map_right_iff, List.forall₂_same]
    intro slot hslot
    rw [← h.named slot hslot]
    -- The colon belongs to the key, so the keys are one wider than the names.
    have hname := length_le_widest (List.mem_map_of_mem (f := (·.member.name)) hslot)
    have hkey : (slot.member.name ++ ":").toList.length ≤
        widest (plan.slots.map (·.member.name)) + 1 := by
      rw [String.toList_append, List.length_append]
      exact Nat.add_le_add_right hname 1
    exact inColumn_padRight hkey 2 _

end Sound

end Plan

/-! ## Blueprints -/

/-- The names of a blueprint are words, and its types stand on one line each, are not empty, and
    close the curly brackets that they open. -/
structure Blueprint.Neat (blueprint : Blueprint) : Prop extends blueprint.Spelled where
  filled  : ∀ member ∈ blueprint.members, member.signature.toList ≠ []
  matched : ∀ member ∈ blueprint.members, Matched curly member.signature.toList

/-- A signature of a blueprint ends in a character. -/
def Blueprint.MayEnd (blueprint : Blueprint) (c : Char) : Prop :=
  ∃ member ∈ blueprint.members, c ∈ member.signature.toList.getLast?

/-- The plan for such a blueprint has bare names. -/
theorem Blueprint.Neat.plan {blueprint : Blueprint} (h : blueprint.Neat) {plan : Plan}
    (hplan : Plan.of blueprint.members = .ok plan) :
    plan.Neat blueprint.MayEnd blueprint.package blueprint.target := by
  have hsound := Plan.of_sound hplan
  have hreceivers : ∀ name ∈ receiverNames, IsBare name.toList := by decide
  refine ⟨h.package.isBare, h.target.isBare,
    hreceivers _ (Plan.receiver_mem hplan), fun slot hslot => ?_⟩
  have hmember : slot.member ∈ blueprint.members := hsound.members ▸ List.mem_map_of_mem hslot
  have hname := (h.names _ hmember).isBare
  rw [hsound.named slot hslot]
  exact ⟨isBare_unexported hname, hname, h.filled _ hmember, h.matched _ hmember,
    fun c hc _ => ⟨slot.member, hmember, hc⟩⟩

/-- The lines of the text of a builder are aligned. -/
structure Blueprint.Aligned (blueprint : Blueprint) (lines : List (List Char)) : Prop where
  /-- A line is indented by the brackets that are open in front of it. -/
  indented : ∀ before line behind, lines = before ++ line :: behind → line ≠ [] →
    ∃ depth, Unclosed (unlines before) depth ∧ IndentedBy depth line
  /-- At the end no bracket is open. -/
  closed : Unclosed (unlines lines) 0
  /-- White space that no signature ends in is not the end of a line. -/
  trimmed : ∀ c, isBlank c = true →
    (∀ member ∈ blueprint.members, member.signature.toList.getLast? ≠ some c) →
      ∀ line ∈ lines, line.getLast? ≠ some c
  /-- The types in the struct type stand in one column. -/
  fields : blueprint.members ≠ [] → ∃ column fields,
    s!"type {blueprint.target}Builder struct \x7b".toList :: (fields ++ [['\x7d']]) <:+: lines ∧
      List.Forall₂ (fun member line => InColumn column ('\t' :: (unexported member.name).toList)
        member.signature.toList line) blueprint.members fields
  /-- The values in the returned value stand in one column. -/
  entries : blueprint.members ≠ [] → ∃ receiver ∈ receiverNames, ∃ column entries,
    ('\t' :: s!"return {blueprint.target}\x7b".toList) :: (entries ++ [['\t', '\x7d']]) <:+:
      lines ∧
      List.Forall₂ (fun member line => InColumn column
        ('\t' :: '\t' :: (member.name ++ ":").toList)
        s!"{receiver}.{unexported member.name},".toList line) blueprint.members entries

/-- **The text of a builder is aligned.** If the names of a blueprint are words, and its signatures
    stand on one line each, are not empty and have matching curly brackets, then each line of its
    text that is not empty begins with as many tabs as there are curly brackets open in front of it,
    one less if the line is just a closing one; no line ends in white space unless a signature does;
    no bracket is open at the end; and the types of the fields stand in one column, as do the values
    of the returned struct. -/
theorem Blueprint.render_aligned {blueprint : Blueprint} {text : String} (h : blueprint.Neat)
    (hrender : blueprint.render = .ok text) :
    ∃ lines, text.toList = unlines lines ∧ (∀ line ∈ lines, '\n' ∉ line) ∧
      blueprint.Aligned lines := by
  obtain ⟨plan, hplan, htext⟩ := Blueprint.plan_of_render hrender
  have hsound := Plan.of_sound hplan
  obtain ⟨hnested, htrimmed⟩ := (h.plan hplan).lines
  refine ⟨_, htext, (h.oneLine hplan).lines, ?_⟩
  constructor
  case indented =>
    intro before line behind hlines hne
    rw [hlines] at hnested
    exact hnested.indented hne
  case closed => exact hnested.leaves
  case trimmed =>
    intro c hblank hnone line hline hlast
    obtain ⟨member, hmember, hends⟩ := htrimmed line hline c hlast hblank
    exact hnone member hmember hends
  case fields => exact fun hne => hsound.fields_inColumn hne _ _
  case entries =>
    intro hne
    exact ⟨plan.receiver, Plan.receiver_mem hplan, hsound.entries_inColumn hne _ _⟩

/-- The hypotheses of `render_aligned` are met by a struct with a name beyond ASCII and a signature
    that holds brackets. -/
theorem Blueprint.render_aligned_map :
    let blueprint : Blueprint :=
      ⟨"models", "User", [⟨"ID", "int"⟩, ⟨"Größe", "map[string]struct\x7b\x7d"⟩]⟩
    blueprint.Neat ∧ ∃ text, blueprint.render = .ok text ∧
      ∃ lines, text.toList = unlines lines ∧ blueprint.Aligned lines := by
  intro blueprint
  have hneat : blueprint.Neat :=
    { package := by decide, target := by decide, names := by decide, signatures := by decide,
      filled := by decide, matched := by decide }
  have hok : blueprint.render.isOk = true := by decide
  cases htext : blueprint.render with
  | error e => rw [htext] at hok; cases hok
  | ok text =>
      obtain ⟨lines, hlines, -, haligned⟩ := Blueprint.render_aligned hneat htext
      exact ⟨hneat, text, rfl, lines, hlines, haligned⟩

end FluentBuilder

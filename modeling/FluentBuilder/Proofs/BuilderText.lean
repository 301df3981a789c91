import FluentBuilder.Proofs.BuilderReading
import FluentBuilder.Proofs.Recovery

/-!
# The text of a builder, piece by piece

The lines of a builder make up a heading, the clause of the package, the declaration of the type
and functions, each behind a blank line. Each piece is given here as the text that it is, with the
names of the plan in their places.

* **`Plan.unlines_lines`** — the pieces make up the whole text.
-/

namespace FluentBuilder

open Layout Go

/-! ## Pieces -/

/-- Statements on lines of their own behind an opening brace, with the closing one. -/
def bodyText (first : List Char) (others : List (List Char)) : List Char :=
  '\n' :: '\t' :: (first ++ behindMarks '\n' ['\t'] others ['\n', '\x7d'])

/-- A method: its receiver, its name and what stands behind the bracket of its parameters. -/
def methodText (receiver builder name behind : List Char) : List Char :=
  "func".toList ++ ' ' :: '(' :: (receiver ++ ' ' :: '*' :: (builder ++ ')' :: ' ' ::
    (name ++ '(' :: behind)))

/-- The constructor of a builder. -/
def newText (builder : List Char) : List Char :=
  "func".toList ++ ' ' :: ("New".toList ++ builder ++ '(' :: ')' :: ' ' :: ('*' :: builder ++ ' ' ::
    '\x7b' :: bodyText ("return".toList ++ ' ' :: '&' :: (builder ++ "\x7b\x7d".toList)) []))

/-- The setter of a member. -/
def setterText (receiver builder name ident type : List Char) : List Char :=
  methodText receiver builder name (ident ++ ' ' :: (type ++ ')' :: ' ' :: ('*' :: builder ++ ' ' ::
    '\x7b' :: bodyText (receiver ++ '.' :: (ident ++ " = ".toList ++ ident))
      ["return".toList ++ ' ' :: receiver])))

/-- The method that builds the value. -/
def buildText (receiver builder target braces : List Char) : List Char :=
  methodText receiver builder buildName.toList (')' :: ' ' :: (target ++ ' ' :: '\x7b' ::
    bodyText ("return".toList ++ ' ' :: (target ++ '\x7b' :: braces)) []))

/-- A struct type with lines for its fields. -/
def structText : List (List Char) → List Char
  | [] => "struct\x7b\x7d".toList
  | first :: others => "struct".toList ++ ' ' :: '\x7b' :: '\n' :: '\t' ::
      (first ++ behindMarks '\n' ['\t'] others ['\n', '\x7d'])

theorem structText_cons (first : List Char) (others : List (List Char)) :
    structText (first :: others) = "struct".toList ++ ' ' :: '\x7b' :: '\n' :: '\t' ::
      (first ++ behindMarks '\n' ['\t'] others ['\n', '\x7d']) := rfl

/-- The entries of a literal behind its opening brace, with the closing one. -/
def bracesText : List (List Char) → List Char
  | [] => ['\x7d']
  | first :: others => '\n' :: '\t' :: '\t' ::
      (first ++ behindMarks ',' ['\n', '\t', '\t'] others [',', '\n', '\t', '\x7d'])

/-- The declaration of a builder with lines for its fields. -/
def typeText (builder : List Char) (lines : List (List Char)) : List Char :=
  "type".toList ++ ' ' :: (builder ++ ' ' :: structText lines)

/-- What stands above the clause of the package. -/
def headingText : List Char := '/' :: '/' :: ' ' :: (Plan.header.toList ++ ['\n', '\n'])

/-- An item is not longer than the text that it stands in. -/
theorem length_le_behindMarks {text : List Char} {texts : List (List Char)} (h : text ∈ texts)
    (mark : Char) (margin rest : List Char) :
    text.length ≤ (behindMarks mark margin texts rest).length := by
  induction texts with
  | nil => cases h
  | cons first others ih =>
      simp only [behindMarks, List.length_cons, List.length_append]
      rcases List.mem_cons.mp h with rfl | hmem
      · omega
      · have := ih hmem
        omega

theorem length_le_structText {line : List Char} {lines : List (List Char)} (h : line ∈ lines) :
    line.length ≤ (structText lines).length := by
  cases lines with
  | nil => cases h
  | cons first others =>
      simp only [structText_cons, List.length_append, List.length_cons]
      rcases List.mem_cons.mp h with rfl | hmem
      · omega
      · have := length_le_behindMarks hmem '\n' ['\t'] ['\n', '\x7d']
        omega

namespace Plan

/-- The line of a field: its name, blanks up to the column of the types, and its type. -/
def fieldText (width : Nat) (slot : Slot) : List Char :=
  slot.ident.toList ++ (List.replicate (width - slot.ident.toList.length) ' ' ++ [' '] ++
    slot.member.signature.toList)

/-- The entry of a member: its name, a colon, blanks and the field with its value. -/
def entryText (width : Nat) (receiver : List Char) (slot : Slot) : List Char :=
  slot.member.name.toList ++ ':' ::
    (List.replicate (width - (slot.member.name.toList.length + 1)) ' ' ++ [' '] ++
      (receiver ++ '.' :: slot.ident.toList))

/-- The lines of the fields of a builder. -/
def fieldTexts (plan : Plan) : List (List Char) :=
  plan.slots.map (fieldText (widest (plan.slots.map (·.ident))))

/-- The entries of the value that a builder builds. -/
def entryTexts (plan : Plan) : List (List Char) :=
  plan.slots.map
    (entryText (widest (plan.slots.map (·.member.name)) + 1) plan.receiver.toList)

/-- The functions of a builder. -/
def functionTexts (plan : Plan) (builder target : List Char) : List (List Char) :=
  newText builder :: (plan.slots.map fun slot => setterText plan.receiver.toList builder
    slot.member.name.toList slot.ident.toList slot.member.signature.toList) ++
      [buildText plan.receiver.toList builder target (bracesText plan.entryTexts)]

/-! ## Lines -/

/-- Items on lines of their own, each with a mark at its end. -/
theorem flatMap_marked (mark : Char) (front margin first : List Char) (others : List (List Char))
    (rest : List Char) :
    (first :: others).flatMap (fun text => margin ++ (text ++ mark :: front)) ++ rest =
      margin ++ (first ++ behindMarks mark (front ++ margin) others (mark :: (front ++ rest))) := by
  induction others generalizing first with
  | nil => simp [behindMarks]
  | cons next others ih =>
      rw [List.flatMap_cons, List.append_assoc, ih]
      simp [behindMarks]

theorem behindMarks_append (mark : Char) (margin : List Char) (texts : List (List Char))
    (a b : List Char) :
    behindMarks mark margin texts a ++ b = behindMarks mark margin texts (a ++ b) := by
  induction texts with
  | nil => rfl
  | cons text texts ih => simp only [behindMarks, List.cons_append, List.append_assoc, ih]

variable (plan : Plan) (package builder target : String)

theorem unlines_topLines : unlines (shown (topLines package)) =
    headingText ++ ("package".toList ++ ' ' :: (package.toList ++ ['\n', '\n'])) := by
  have hclause : (s!"package {package}" : String).toList =
      "package".toList ++ ' ' :: package.toList := by
    simp only [toString_eq, String.toList_append]
    rfl
  rw [topLines, hclause]
  simp [shown, unlines, Line.chars, headingText]

theorem unlines_newLines : unlines (shown (newLines builder)) =
    '\n' :: (newText builder.toList ++ ['\n']) := by
  simp [newLines, unlines, Line.chars, toString_eq, newText, bodyText, behindMarks]

theorem toList_setterHead (receiver builder name ident type : String) :
    (setterHead receiver builder name ident type).toList = methodText receiver.toList builder.toList
      name.toList (ident.toList ++ ' ' :: (type.toList ++ ')' :: ' ' :: ('*' :: builder.toList ++
        [' ', '\x7b']))) := by
  delta setterHead methodText
  simp only [toString_eq, String.toList_append, List.append_assoc]
  rfl

theorem unlines_setterLines (slot : Slot) : unlines (shown (plan.setterLines builder slot)) =
    '\n' :: (setterText plan.receiver.toList builder.toList slot.member.name.toList
      slot.ident.toList slot.member.signature.toList ++ ['\n']) := by
  have hassign : (s!"{plan.receiver}.{slot.ident} = {slot.ident}" : String).toList =
      plan.receiver.toList ++ '.' :: (slot.ident.toList ++ " = ".toList ++ slot.ident.toList) := by
    simp only [toString_eq, String.toList_append, List.append_assoc]
    rfl
  have hreturn : (s!"return {plan.receiver}" : String).toList =
      "return".toList ++ ' ' :: plan.receiver.toList := by
    simp only [toString_eq, String.toList_append]
    rfl
  unfold setterLines
  simp only [shown, List.map_cons, List.map_nil, Line.chars, unlines, List.flatMap_cons,
    List.flatMap_nil, toList_setterHead, hassign, hreturn]
  simp only [setterText, methodText, bodyText, behindMarks, List.replicate, List.flatten_cons,
    List.flatten_nil, List.append_assoc, List.cons_append, List.nil_append, List.append_nil]

/-- A line behind its tabs. -/
theorem unlines_line (content : String) (level : Nat) :
    unlines (shown ((Step.line content).lines level).1) =
      List.replicate level '\t' ++ (content.toList ++ ['\n']) := by
  simp [Step.lines, shown, unlines, Line.chars]

/-- A block with lines one level below it. -/
theorem unlines_column (header : String) {contents : List String} {texts : List (List Char)}
    (htexts : contents.map String.toList = texts) (level : Nat) :
    unlines (shown ((Step.block header "\x7d" [.each contents]).lines level).1) =
      List.replicate level '\t' ++ (header.toList ++ '\n' ::
        ((texts.flatMap fun text => List.replicate (level + 1) '\t' ++ (text ++ ['\n'])) ++
          (List.replicate level '\t' ++ ['\x7d', '\n']))) := by
  have hunit : ∀ level, (List.replicate level ['\t']).flatten = List.replicate level '\t' :=
    fun level => by simp
  simp [← htexts, Step.lines, linesAll, shown, unlines, Line.chars, hunit, List.flatMap_map]

theorem toList_padRight (width : Nat) (text : String) : (padRight width text).toList =
    text.toList ++ List.replicate (width - text.toList.length) ' ' := by
  rw [padRight, String.toList_ofList]

theorem unlines_typeLayout : unlines (shown ((plan.typeLayout builder).lines 0).1) =
    typeText builder.toList plan.fieldTexts ++ ['\n'] := by
  unfold typeLayout
  split
  case isTrue hempty =>
    have hline : (s!"type {builder} struct\x7b\x7d" : String).toList =
        typeText builder.toList [] := by
      simp only [toString_eq, String.toList_append, List.append_assoc]
      rfl
    rw [unlines_line, hline, fieldTexts, List.isEmpty_iff.mp hempty]
    rfl
  case isFalse hne =>
    have hhead : (s!"type {builder} struct \x7b" : String).toList =
        "type".toList ++ ' ' :: (builder.toList ++ ' ' :: ("struct".toList ++ [' ', '\x7b'])) := by
      simp only [toString_eq, String.toList_append, List.append_assoc]
      rfl
    have hfields : (plan.slots.map fun slot =>
        s!"{padRight (widest (plan.slots.map (·.ident))) slot.ident} {slot.member.signature}").map
          String.toList = plan.fieldTexts := by
      rw [List.map_map]
      refine List.map_congr_left fun slot _ => ?_
      simp only [Function.comp_apply, toString_eq, String.toList_append, toList_padRight, fieldText,
        List.append_assoc]
      rfl
    obtain ⟨first, others, htexts⟩ := List.exists_cons_of_ne_nil
      (show plan.fieldTexts ≠ [] by simpa [fieldTexts] using hne)
    have hlines := flatMap_marked '\n' [] ['\t'] first others ['\x7d', '\n']
    dsimp only
    rw [unlines_column _ hfields, hhead, htexts, typeText, structText_cons]
    simp only [List.replicate, List.append_assoc, List.cons_append, List.nil_append,
      behindMarks_append] at hlines ⊢
    rw [hlines]

theorem unlines_resultLayout : unlines (shown ((plan.resultLayout target).lines 1).1) =
    '\t' :: ("return".toList ++ ' ' :: (target.toList ++ '\x7b' ::
      (bracesText plan.entryTexts ++ ['\n']))) := by
  unfold resultLayout
  split
  case isTrue hempty =>
    have hline : (s!"return {target}\x7b\x7d" : String).toList =
        "return".toList ++ ' ' :: (target.toList ++ '\x7b' :: bracesText []) := by
      simp only [toString_eq, String.toList_append, List.append_assoc]
      rfl
    rw [unlines_line, hline, entryTexts, List.isEmpty_iff.mp hempty]
    simp
  case isFalse hne =>
    have hhead : (s!"return {target}\x7b" : String).toList =
        "return".toList ++ ' ' :: (target.toList ++ ['\x7b']) := by
      simp only [toString_eq, String.toList_append, List.append_assoc]
      rfl
    have hentries : (plan.slots.map fun slot =>
        let key := padRight (widest (plan.slots.map (·.member.name)) + 1) (slot.member.name ++ ":")
        s!"{key} {plan.receiver}.{slot.ident},").map String.toList =
          plan.entryTexts.map (· ++ [',']) := by
      rw [entryTexts, List.map_map, List.map_map]
      refine List.map_congr_left fun slot _ => ?_
      simp only [Function.comp_apply, toString_eq, String.toList_append, toList_padRight, entryText,
        List.length_append, List.append_assoc, List.cons_append]
      rfl
    obtain ⟨first, others, htexts⟩ := List.exists_cons_of_ne_nil
      (show plan.entryTexts ≠ [] by simpa [entryTexts] using hne)
    have hlines := flatMap_marked ',' ['\n'] ['\t', '\t'] first others ['\t', '\x7d', '\n']
    dsimp only
    rw [unlines_column _ hentries, hhead, List.flatMap_map, htexts]
    simp only [List.replicate, List.append_assoc, List.cons_append, List.nil_append] at hlines ⊢
    rw [hlines]
    simp [bracesText, behindMarks_append]

theorem unlines_buildLines : unlines (shown (plan.buildLines builder target)) =
    '\n' :: (buildText plan.receiver.toList builder.toList target.toList
      (bracesText plan.entryTexts) ++ ['\n']) := by
  have hhead : (plan.buildHead builder target).toList = methodText plan.receiver.toList
      builder.toList buildName.toList (')' :: ' ' :: (target.toList ++ [' ', '\x7b'])) := by
    delta buildHead methodText
    simp only [toString_eq, String.toList_append, List.append_assoc]
    rfl
  simp only [buildLines, shown, List.map_append, unlines_append]
  rw [unlines_resultLayout]
  simp [unlines, Line.chars, hhead, buildText, methodText, bodyText, behindMarks]

/-- **The pieces make up the text of a builder.** -/
theorem unlines_lines : unlines (shown (plan.lines package target)) =
    headingText ++ ("package".toList ++ ' ' :: (package.toList ++ '\n' :: '\n' ::
      (typeText (target ++ "Builder").toList plan.fieldTexts ++ '\n' ::
        declarationsText (plan.functionTexts (target ++ "Builder").toList target.toList)))) := by
  have hsetters : unlines (shown (plan.slots.flatMap (plan.setterLines (target ++ "Builder")))) =
      declarationsText (plan.slots.map fun slot => setterText plan.receiver.toList
        (target ++ "Builder").toList slot.member.name.toList slot.ident.toList
          slot.member.signature.toList) := by
    rw [shown, List.map_flatMap, unlines, List.flatMap_assoc, declarationsText, List.flatMap_map]
    exact List.flatMap_congr fun slot _ => plan.unlines_setterLines _ slot
  simp only [lines, shown, List.map_append, unlines_append]
  rw [unlines_topLines, unlines_typeLayout, unlines_newLines, hsetters, unlines_buildLines]
  simp [declarationsText, functionTexts]

end Plan

end FluentBuilder

import FluentBuilder.Proofs.BuilderText
import FluentBuilder.Proofs.ParsedNames
import FluentBuilder.Proofs.Reserved
import FluentBuilder.Proofs.SignatureReading

/-!
# Rereading — a builder is a source text that declares the builder

The text of a builder goes back into the reader that the struct came from. It is read as a file of
the same package whose first type is the builder, with one field for each member. This asks that the
names are words which the grammar takes for names, and that each type is one that its signature is
read back as (`Blueprint.Legible`).

* **`Blueprint.render_reread`** — the text of a builder is a source text that declares the builder.
* **`Go.SourceFile.generate_reread`** — so is what a file is turned into.
-/

namespace FluentBuilder

open Layout Go Go.Grammar

section

variable {builder target receiver name ident type : List Char} {depth : Nat}

/-! ## Names of a builder -/

/-- The names of receivers are words that begin neither an operand nor a statement. -/
theorem receiver_free : ∀ name ∈ receiverNames, IsWord name.toList ∧
    name.toList ∉ (operandKeywords ++ (statementKeywords ++ caseKeywords)).map String.toList := by
  decide

theorem isWord_append {a b : List Char} (ha : IsWord a) (hb : ∀ c ∈ b, Text.isIdentPart c = true) :
    IsWord (a ++ b) := by
  obtain ⟨c, cs, rfl, hc, hcs⟩ := isWord_iff.mp ha
  exact isWord_iff.mpr ⟨c, cs ++ b, rfl, hc, List.forall_mem_append.mpr ⟨hcs, hb⟩⟩

/-! ## Bodies -/

/-- The body of a function is read as a block. -/
theorem reads_bodyText {first : List Char} {others : List (List Char)}
    (h : ∀ text ∈ first :: others, ReadsAsStatement depth text) (rest : List Char) :
    ∃ block, (grammar (depth + 1)).block.Reads (' ' :: '\x7b' :: (bodyText first others ++ rest))
      [⟨none, block⟩] rest := by
  have hs : takeGap (' ' :: '\x7b' :: (bodyText first others ++ rest)) = ([' '], '\x7b' :: '\n' ::
      (['\t'] ++ (first ++ behindMarks '\n' ['\t'] others ('\n' :: ([] ++ '\x7d' :: rest))))) := by
    rw [takeGap_blank (by decide) (by decide)]
    simp [bodyText, Plan.behindMarks_append]
  exact reads_block h (by decide) (by decide) hs

/-! ## Declarations -/

theorem gapless_func (more : List Char) : Gapless ("func".toList ++ ' ' :: more) :=
  fun _ => takeGap_stop (by decide) (by decide) _

/-- The constructor of a builder is read as a declaration. -/
theorem readsAsDeclaration_new (hbuilder : IsValueName builder)
    (hlength : (newText builder).length ≤ depth) :
    ReadsAsDeclaration (depth + 7) (newText builder) := by
  refine ⟨gapless_func _, fun {s gap rest} hs => ?_⟩
  have hname : IsWord ("New".toList ++ builder) := by
    obtain ⟨c, cs, rfl, hc, hcs⟩ := isWord_iff.mp hbuilder.word
    refine isWord_append (by decide) (List.forall_mem_cons.mpr ⟨?_, hcs⟩)
    rw [Text.isIdentPart, hc, Bool.true_or]
  obtain ⟨block, hblock⟩ := reads_bodyText
    (List.forall_mem_singleton.mpr (readsAsStatement_address hbuilder (depth + 1))) ('\n' :: rest)
  simp only [newText, List.length_append, List.length_cons] at hlength
  rw [newText] at hs
  obtain ⟨parts, hread⟩ := reads_function (by simpa using hs) hname
    (ReadsAsType.name hbuilder.isTypeText).pointer (by simp)
    (by simp only [List.length_cons]; omega) hblock
  exact ⟨_, _, hread, by decide⟩

/-- A method is read as a declaration if its parameters, its result and its body are read. -/
theorem readsAsDeclaration_method {params result body : List Char}
    (hreceiver : receiver ∈ receiverNames.map String.toList) (hbuilder : IsValueName builder)
    (hname : IsWord name) (hnameType : name ∉ typeKeywords.map String.toList)
    (hparams : ∀ rest, ∃ list, (grammar depth).parameterList.Reads ('(' :: (params ++ ')' :: rest))
      [⟨none, list⟩] rest)
    (hresult : ReadsAsType result) (hbracket : result.head? ≠ some '(')
    (hbody : ∀ rest, ∃ block, (grammar depth).block.Reads (' ' :: '\x7b' :: (body ++ rest))
      [⟨none, block⟩] rest)
    (hlength : (methodText receiver builder name
      (params ++ ')' :: ' ' :: (result ++ ' ' :: '\x7b' :: body))).length ≤ depth) :
    ReadsAsDeclaration depth (methodText receiver builder name
      (params ++ ')' :: ' ' :: (result ++ ' ' :: '\x7b' :: body))) := by
  refine ⟨gapless_func _, fun {s gap rest} hs => ?_⟩
  obtain ⟨r, hr, rfl⟩ := List.mem_map.mp hreceiver
  obtain ⟨hword, hfree⟩ := receiver_free r hr
  have hreceiverType : r.toList ∉ typeKeywords.map String.toList := fun hmem => hfree
    (List.map_subset _ (by decide) hmem)
  obtain ⟨list, hlist⟩ := hparams (' ' :: (result ++ ' ' :: '\x7b' :: (body ++ '\n' :: rest)))
  obtain ⟨block, hblock⟩ := hbody ('\n' :: rest)
  simp only [methodText, List.length_append, List.length_cons] at hlength
  simp only [methodText, List.append_assoc, List.cons_append] at hs
  obtain ⟨parts, hread⟩ := reads_method hs hword hreceiverType hbuilder.isTypeText (by omega) hname
    hnameType hlist hresult hbracket (by omega) hblock
  exact ⟨_, _, hread, by decide⟩

/-- A setter is read as a declaration. -/
theorem readsAsDeclaration_setter (hreceiver : receiver ∈ receiverNames.map String.toList)
    (hbuilder : IsValueName builder) (hname : IsWord name)
    (hnameType : name ∉ typeKeywords.map String.toList) (hident : IsWord ident)
    (hidentName : ident ∉ operandKeywords.map String.toList) (htype : ReadsAsType type)
    (hlength : (setterText receiver builder name ident type).length ≤ depth) :
    ReadsAsDeclaration (depth + 7) (setterText receiver builder name ident type) := by
  have hidentType : ident ∉ typeKeywords.map String.toList := fun hmem => hidentName
    (List.map_subset _ (by decide) hmem)
  have hwhole : setterText receiver builder name ident type = methodText receiver builder name
      ((ident ++ ' ' :: type) ++ ')' :: ' ' :: (('*' :: builder) ++ ' ' :: '\x7b' ::
        bodyText (receiver ++ '.' :: (ident ++ " = ".toList ++ ident))
          ["return".toList ++ ' ' :: receiver])) := by
    simp only [setterText, List.append_assoc, List.cons_append]
  have htypeLength : type.length ≤ depth + 7 := by
    simp only [setterText, methodText, List.length_append, List.length_cons] at hlength
    omega
  rw [hwhole] at hlength ⊢
  refine readsAsDeclaration_method hreceiver hbuilder hname hnameType (fun rest => ?_)
    (ReadsAsType.name hbuilder.isTypeText).pointer (by simp) (fun rest => ?_) (by omega)
  · rw [List.append_assoc, List.cons_append]
    obtain ⟨parts, hread⟩ := reads_namedParameter hident hidentType htype htypeLength
      (takeGap_stop (c := '(') (by decide) (by decide) (ident ++ ' ' :: (type ++ ')' :: rest)))
    exact ⟨_, hread⟩
  · obtain ⟨r, hr, rfl⟩ := List.mem_map.mp hreceiver
    obtain ⟨hword, hfree⟩ := receiver_free r hr
    have hvalue : IsValueName r.toList := ⟨hword,
      fun hmem => hfree (List.map_subset _ (by decide) hmem),
      fun hmem => hfree (List.map_subset _ (by decide) hmem)⟩
    refine reads_bodyText (List.forall_mem_cons.mpr ⟨?_, List.forall_mem_singleton.mpr ?_⟩) rest
    · exact readsAsStatement_assign hfree hword hident hident hidentName (depth + 3)
    · exact readsAsStatement_return hvalue (depth + 3)

/-- The method that builds the value is read as a declaration. -/
theorem readsAsDeclaration_build {entries : List (List Char)}
    (hreceiver : receiver ∈ receiverNames.map String.toList) (hbuilder : IsValueName builder)
    (htarget : IsValueName target) (hentries : ∀ entry ∈ entries, IsEntry entry)
    (hlength : (buildText receiver builder target (bracesText entries)).length ≤ depth) :
    ReadsAsDeclaration (depth + 7) (buildText receiver builder target (bracesText entries)) := by
  have hbraces : ∀ rest, ∃ parts, (grammar (depth + 2)).literalRule.Reads
      ('\x7b' :: (bracesText entries ++ rest)) parts rest := by
    intro rest
    cases entries with
    | nil => exact reads_emptyLiteral (depth + 2) rest
    | cons first others =>
        have hspace : ∀ c ∈ ['\n', '\t', '\t'], isSpace c = true := by decide
        have hclose : ∀ c ∈ ['\n', '\t'], isSpace c = true := by decide
        obtain ⟨parts, hread⟩ := reads_entries hentries hspace hclose depth rest
        refine ⟨parts, ?_⟩
        simpa [bracesText, Plan.behindMarks_append] using hread
  have hfront : target.head? ≠ some '(' := by
    obtain ⟨c, cs, rfl, hc, -⟩ := isWord_iff.mp htarget.word
    rintro ⟨⟩
    revert hc
    decide
  have hwhole : buildText receiver builder target (bracesText entries) =
      methodText receiver builder buildName.toList ([] ++ ')' :: ' ' :: (target ++ ' ' :: '\x7b' ::
        bodyText ("return".toList ++ ' ' :: (target ++ '\x7b' :: bracesText entries)) [])) := rfl
  rw [hwhole] at hlength ⊢
  refine readsAsDeclaration_method hreceiver hbuilder (by decide) (by decide) (fun rest => ?_)
    (ReadsAsType.name htarget.isTypeText) hfront (fun rest => ?_) (by omega)
  · obtain ⟨parts, hread, -⟩ := reads_parameterList (depth + 7) (List.forall_mem_nil _) .nil
      (Nat.zero_le _) (takeGap_stop (c := '(') (by decide) (by decide) (')' :: rest))
    exact ⟨_, hread⟩
  · exact reads_bodyText (List.forall_mem_singleton.mpr
      (readsAsStatement_literal htarget hbraces)) rest

/-- The declaration of a builder is read as that of a struct type with a field for each line. -/
theorem reads_typeText {lines : List (List Char)} (hbuilder : IsWord builder)
    (hlines : ∀ line ∈ lines, IsFieldLine line)
    (hlength : (typeText builder lines).length ≤ depth) (rest : List Char) :
    ∃ parts fields, (item (grammar (depth + 7))).Reads
        ('\n' :: (typeText builder lines ++ '\n' :: rest))
        [⟨none, .node .typeDeclaration parts⟩] ('\n' :: rest) ∧
      typeSpecsOf parts = [⟨String.ofList builder, [], false, .struct (some fields)⟩] ∧
      List.Forall₂ Declares lines fields := by
  obtain ⟨body, hbody, hstop⟩ : ∃ body, structText lines = "struct".toList ++ body ∧
      ∀ rest, StopsWord (body ++ rest) := by
    cases lines with
    | nil => exact ⟨['\x7b', '\x7d'], rfl, fun _ => stopsWord_cons (by decide) _⟩
    | cons first others => exact ⟨_, rfl, fun _ => stopsWord_cons (by decide) _⟩
  obtain ⟨tree, hread, fields, htree, hfields⟩ : ∃ tree, ((grammar (depth + 5)).typeRule true).Reads
      (' ' :: (structText lines ++ '\n' :: rest)) [⟨none, tree⟩] ('\n' :: rest) ∧
        ∃ fields, tree.toType = .struct (some fields) ∧ List.Forall₂ Declares lines fields := by
    cases lines with
    | nil =>
        obtain ⟨tree, hread, htree⟩ := ReadsAsType.reads_emptyStruct (takeGap_blank (c := 's')
          (by decide) (by decide) ("truct\x7b\x7d".toList ++ '\n' :: rest)) (depth + 5) true
        exact ⟨tree, hread, [], htree, .nil⟩
    | cons first others =>
        have hwhole : ' ' :: (structText (first :: others) ++ '\n' :: rest) =
            ' ' :: ("struct".toList ++ ' ' :: '\x7b' :: '\n' :: (['\t'] ++ (first ++
              behindMarks '\n' ['\t'] others ('\n' :: '\x7d' :: '\n' :: rest)))) := by
          simp only [structText_cons, Plan.behindMarks_append, List.append_assoc, List.cons_append,
            List.nil_append]
        rw [hwhole]
        refine reads_structType (fun line hline => ⟨hlines line hline, ?_⟩) (by decide)
          (takeGap_blank (c := 's') (by decide) (by decide) _)
        have hline := length_le_structText hline
        simp only [typeText, List.length_append, List.length_cons] at hlength
        omega
  have hs : takeGap ('\n' :: (typeText builder lines ++ '\n' :: rest)) =
      (['\n'], typeText builder lines ++ '\n' :: rest) := by
    rw [takeGap_space (by decide), show Gapless (typeText builder lines) from
      fun _ => takeGap_stop (by decide) (by decide) _]
  have htype : ((grammar (depth + 6)).type true).Reads (' ' :: (structText lines ++ '\n' :: rest))
      [⟨none, tree⟩] ('\n' :: rest) := hread
  simp only [typeText, hbody, List.append_assoc, List.cons_append] at hs htype ⊢
  obtain ⟨parts, hdeclaration, hspecs⟩ := reads_typeDeclaration hs hbuilder (hstop _) htype
  exact ⟨parts, fields, hdeclaration, htree ▸ hspecs, hfields⟩

end

/-! ## Legible blueprints -/

/-- A blueprint whose builder can be read back: the grammar takes the name of the type for a name
wherever it stands, the identifiers of the members are words other than the one that is not
reserved, and the types can be read back from their signatures. -/
structure Blueprint.Legible (blueprint : Blueprint) : Prop where
  target  : blueprint.target.toList ∉ (operandKeywords ++ caseKeywords).map String.toList
  idents  : ∀ member ∈ blueprint.members,
    IsWord (unexported member.name).toList ∧ unexported member.name ≠ "struct"
  types   : ∀ member ∈ blueprint.members,
    ∃ t : TypeExpr, t.Legible ∧ t.signature = .ok member.signature

/-- An exported name begins no operand. -/
theorem notMem_operandKeywords_of_isExported {name : String} (h : isExported name = true) :
    name.toList ∉ operandKeywords.map String.toList := by
  intro hmem
  obtain ⟨keyword, hkeyword, heq⟩ := List.mem_map.mp hmem
  have hall : ∀ keyword ∈ operandKeywords, isExported keyword = false := by decide
  rw [← String.toList_inj.mp heq, hall keyword hkeyword] at h
  cases h

/-- An identifier begins no operand unless it is the word that is not reserved. -/
theorem unexported_notMem_operandKeywords {name : String} (h : unexported name ≠ "struct") :
    (unexported name).toList ∉ operandKeywords.map String.toList := by
  intro hmem
  obtain ⟨keyword, hkeyword, heq⟩ := List.mem_map.mp hmem
  have hall : ∀ keyword ∈ operandKeywords, isReserved keyword = true ∨ keyword = "struct" := by
    decide
  rw [String.toList_inj.mp heq] at hkeyword
  rcases hall _ hkeyword with hreserved | hstruct
  · rw [isReserved_unexported] at hreserved
    cases hreserved
  · exact h hstruct

/-- No keyword ends like the name of a builder. -/
theorem isValueName_builder {target : String} (h : IsWord target.toList) :
    IsValueName (target ++ "Builder").toList := by
  rw [String.toList_append]
  -- the last letter is enough, whatever the name of the type is
  have hlast : ∀ keyword ∈ operandKeywords ++ caseKeywords, keyword.toList.getLast? ≠ some 'r' := by
    decide
  have hfree : ∀ keyword ∈ operandKeywords ++ caseKeywords,
      keyword.toList ≠ target.toList ++ "Builder".toList := by
    intro keyword hkeyword heq
    refine hlast keyword hkeyword ?_
    rw [heq, List.getLast?_append]
    rfl
  refine ⟨isWord_append h (by decide), fun hmem => ?_, fun hmem => ?_⟩
  all_goals
    obtain ⟨keyword, hkeyword, heq⟩ := List.mem_map.mp hmem
    exact hfree keyword (by simp [hkeyword]) heq

namespace Blueprint.Legible

variable {blueprint : Blueprint} {plan : Plan}

/-- The name of the type is read as a value. -/
theorem isValueName (h : blueprint.Legible) (hnamed : blueprint.Named) :
    IsValueName blueprint.target.toList := by
  have htarget := h.target
  rw [List.map_append, List.mem_append, not_or] at htarget
  exact ⟨hnamed.target, htarget.1, htarget.2⟩

/-- The signature of a member is read as a type. -/
theorem readsAsType (h : blueprint.Legible) {member : Member}
    (hmember : member ∈ blueprint.members) : ReadsAsType member.signature.toList := by
  obtain ⟨t, ht, hsignature⟩ := h.types member hmember
  rw [TypeExpr.signature] at hsignature
  cases hchars : signatureChars t with
  | error e => rw [hchars] at hsignature; cases hsignature
  | ok s =>
      rw [hchars] at hsignature
      rw [← Except.ok.inj hsignature]
      exact (String.toList_ofList (l := s)).symm ▸ (reads_signature t hchars ht).type

/-- The slots of a plan hold the members. -/
theorem slot_mem (hplan : Plan.of blueprint.members = .ok plan) {slot : Slot}
    (hslot : slot ∈ plan.slots) :
    slot.member ∈ blueprint.members ∧ slot.ident = unexported slot.member.name :=
  ⟨(Plan.of_sound hplan).members ▸ List.mem_map_of_mem hslot,
    (Plan.of_sound hplan).named slot hslot⟩

/-- The lines of the struct type are lines of fields. -/
theorem fieldTexts (h : blueprint.Legible) (hplan : Plan.of blueprint.members = .ok plan) :
    ∀ line ∈ plan.fieldTexts, IsFieldLine line := by
  intro line hline
  obtain ⟨slot, hslot, rfl⟩ := List.mem_map.mp hline
  obtain ⟨hmember, hident⟩ := slot_mem hplan hslot
  refine .mk (hident ▸ (h.idents _ hmember).1) (by simp) ?_ (h.readsAsType hmember)
  simp only [List.forall_mem_append, List.forall_mem_singleton, and_true]
  exact fun c hc => List.eq_of_mem_replicate hc

/-- The lines of the returned value are entries. -/
theorem entryTexts (h : blueprint.Legible) (hnamed : blueprint.Named)
    (hplan : Plan.of blueprint.members = .ok plan) :
    ∀ entry ∈ plan.entryTexts, IsEntry entry := by
  intro entry hentry
  obtain ⟨slot, hslot, rfl⟩ := List.mem_map.mp hentry
  obtain ⟨hmember, hident⟩ := slot_mem hplan hslot
  obtain ⟨hname, hexported⟩ := hnamed.members _ hmember
  obtain ⟨hreceiver, hfree⟩ := receiver_free _ (Plan.receiver_mem hplan)
  refine .mk hname (notMem_operandKeywords_of_isExported hexported) ?_ hreceiver
    (fun hmem => hfree (List.map_subset _ (by decide) hmem)) (hident ▸ (h.idents _ hmember).1)
  simp only [List.forall_mem_append, List.forall_mem_singleton]
  exact ⟨fun c hc => List.eq_of_mem_replicate hc ▸ rfl, rfl⟩

/-- The functions of a builder are read as declarations. -/
theorem functionTexts (h : blueprint.Legible) (hnamed : blueprint.Named)
    (hplan : Plan.of blueprint.members = .ok plan) {depth : Nat}
    (hlength : ∀ text ∈ plan.functionTexts (blueprint.target ++ "Builder").toList
      blueprint.target.toList, text.length ≤ depth) :
    ∀ text ∈ plan.functionTexts (blueprint.target ++ "Builder").toList blueprint.target.toList,
      ReadsAsDeclaration (depth + 7) text := by
  have hbuilder := isValueName_builder hnamed.target
  have hreceiver : plan.receiver.toList ∈ receiverNames.map String.toList :=
    List.mem_map_of_mem (Plan.receiver_mem hplan)
  intro text htext
  have hbound := hlength text htext
  simp only [Plan.functionTexts, List.cons_append, List.mem_cons, List.mem_append, List.mem_map,
    List.not_mem_nil, or_false] at htext
  rcases htext with rfl | ⟨slot, hslot, rfl⟩ | rfl
  · exact readsAsDeclaration_new hbuilder hbound
  · obtain ⟨hmember, hident⟩ := slot_mem hplan hslot
    obtain ⟨hname, hexported⟩ := hnamed.members _ hmember
    obtain ⟨hword, hstruct⟩ := h.idents _ hmember
    rw [← hident] at hword
    refine readsAsDeclaration_setter hreceiver hbuilder hname (fun hmem => ?_) hword
      (hident ▸ unexported_notMem_operandKeywords hstruct) (h.readsAsType hmember) hbound
    exact notMem_operandKeywords_of_isExported hexported (List.map_subset _ (by decide) hmem)
  · exact readsAsDeclaration_build hreceiver hbuilder (h.isValueName hnamed)
      (h.entryTexts hnamed hplan) hbound

end Blueprint.Legible

/-- The line of a slot declares its identifier with the type of its member. -/
theorem Plan.field_of_declares {width : Nat} {slot : Slot} {field : Field}
    (hident : IsWord slot.ident.toList) (htype : ReadsAsType slot.member.signature.toList)
    (h : Declares (Plan.fieldText width slot) field) :
    field.names = [slot.ident] ∧ field.type.signature = .ok slot.member.signature := by
  have hblanks : ∀ c ∈ List.replicate (width - slot.ident.toList.length) ' ' ++ [' '], c = ' ' := by
    simp only [List.forall_mem_append, List.forall_mem_singleton, and_true]
    exact fun c hc => List.eq_of_mem_replicate hc
  obtain ⟨hnames, hsignature⟩ := h _ _ (word_append hident (stopsWord_blanks (by simp) hblanks _))
  rw [htype.dropWhile_blanks hblanks] at hsignature
  rw [hnames, TypeExpr.signature, hsignature, Except.map, String.ofList_toList,
    String.ofList_toList]
  exact ⟨rfl, rfl⟩

/-- The first declaration of a file is found under its name. -/
theorem Go.SourceFile.findStruct_first_decl (package name : String) (params : List String)
    (fields : StructBody) (decls : List Decl) :
    (SourceFile.mk package (.types [⟨name, params, false, .struct fields⟩] :: decls)).findStruct
      name = .ok fields := by
  simp [SourceFile.findStruct, walk, walkDecls, walkDecl, walkTypeSpecs, walkTypeSpec,
    structVisitor, Flow.andThen, Flow.state]

/-- A declaration is not longer than the text of all of them. -/
theorem length_le_declarationsText {text : List Char} {texts : List (List Char)}
    (h : text ∈ texts) : text.length ≤ (declarationsText texts).length := by
  induction texts with
  | nil => cases h
  | cons first others ih =>
      simp only [declarationsText, List.flatMap_cons, List.length_append, List.length_cons] at ih ⊢
      rcases List.mem_cons.mp h with rfl | hmem
      · omega
      · have := ih hmem
        omega

/-- A text without a mark at its beginning has the tree that is read of all of it. -/
theorem Go.readTree_of_reads {source : String} {tree : Tree}
    (hmark : withoutMark source.toList = source.toList)
    (h : (grammar (depthFor source.toList)).sourceFile.Reads source.toList [⟨none, tree⟩] []) :
    readTree source = some tree := by
  have hread : (grammar (depthFor source.toList)).sourceFile.read source.toList =
      some ([⟨none, tree⟩], []) := h
  unfold readTree
  rw [hmark]
  simp only [hread]

/-- The heading of a builder is a gap. -/
theorem takeGap_heading (rest : List Char) :
    takeGap (headingText ++ ("package".toList ++ rest)) = (headingText, "package".toList ++ rest) :=
  rfl

theorem withoutMark_heading (rest : List Char) :
    withoutMark (headingText ++ rest) = headingText ++ rest := rfl

/-- **The text of a builder is a source text that declares the builder.** -/
theorem Blueprint.render_reread {blueprint : Blueprint} {text : String} (hnamed : blueprint.Named)
    (h : blueprint.Legible) (hrender : blueprint.render = .ok text) (name : String) :
    ∃ again fields, SourceFile.parse name text = .ok again ∧ again.package = blueprint.package ∧
      again.findStruct (blueprint.target ++ "Builder") = .ok (some fields) ∧
      List.Forall₂ (fun (member : Member) (field : Field) =>
        field.names = [unexported member.name] ∧ field.type.signature = .ok member.signature)
        blueprint.members fields := by
  obtain ⟨plan, hplan, htext⟩ := Blueprint.plan_of_render hrender
  rw [Plan.unlines_lines] at htext
  have hlength := congrArg List.length htext
  simp only [List.length_append, List.length_cons] at hlength
  -- the grammar is deeper than the text is long
  obtain ⟨depth, hdepth, hbound⟩ : ∃ depth, depthFor text.toList = depth + 7 ∧
      text.toList.length ≤ depth := ⟨8 * text.toList.length + 1, rfl, by omega⟩
  have hfunctions : ∀ function ∈ plan.functionTexts (blueprint.target ++ "Builder").toList
      blueprint.target.toList, ReadsAsDeclaration (depth + 7) function :=
    h.functionTexts hnamed hplan fun function hfunction => by
      have := length_le_declarationsText hfunction
      omega
  have htype :
      (typeText (blueprint.target ++ "Builder").toList plan.fieldTexts).length ≤ depth := by
    omega
  obtain ⟨parts, fields, hread, hspecs, hfields⟩ := reads_typeText
    (isValueName_builder hnamed.target).word (h.fieldTexts hplan) htype
    (declarationsText (plan.functionTexts _ _))
  have hgap : takeGap text.toList = _ := htext ▸ takeGap_heading _
  obtain ⟨tree, decls, hfile, htree⟩ :=
    reads_sourceFile hnamed.package htext hgap ⟨parts, hread, hspecs⟩ hfunctions
  have hmark : withoutMark text.toList = text.toList := htext ▸ withoutMark_heading _
  have hparse := SourceFile.parse_of_tree name (readTree_of_reads hmark (hdepth ▸ hfile)) htree
  refine ⟨_, fields, hparse, String.ofList_toList, ?_, ?_⟩
  · rw [String.ofList_toList, String.ofList_toList]
    exact SourceFile.findStruct_first_decl _ _ _ _ _
  · have hslots : ∀ slot ∈ plan.slots, IsWord slot.ident.toList ∧
        ReadsAsType slot.member.signature.toList ∧ slot.ident = unexported slot.member.name := by
      intro slot hslot
      obtain ⟨hmember, hident⟩ := Legible.slot_mem hplan hslot
      exact ⟨hident ▸ (h.idents _ hmember).1, h.readsAsType hmember, hident⟩
    rw [← (Plan.of_sound hplan).members, List.forall₂_map_left_iff]
    rw [Plan.fieldTexts, List.forall₂_map_left_iff] at hfields
    refine ((List.forall₂_and_left _ _).mpr ⟨hslots, hfields⟩).imp ?_
    rintro slot field ⟨⟨hword, htype, hident⟩, hdeclares⟩
    exact hident ▸ Plan.field_of_declares hword htype hdeclares

/-- **A builder is a source text that declares the builder**, with the package of the file that it
was generated from and one field for each member: its identifier and its type. -/
theorem Go.SourceFile.generate_reread {source sourceText target text : String} {file : SourceFile}
    {blueprint : Blueprint} (hparse : SourceFile.parse source sourceText = .ok file)
    (hblueprint : file.blueprint target = .ok blueprint)
    (hgenerate : file.generate target = .ok text) (hlegible : blueprint.Legible) (name : String) :
    ∃ again fields, SourceFile.parse name text = .ok again ∧ again.package = file.package ∧
      again.findStruct (target ++ "Builder") = .ok (some fields) ∧
      List.Forall₂ (fun (member : Member) (field : Field) =>
        field.names = [unexported member.name] ∧ field.type.signature = .ok member.signature)
        blueprint.members fields := by
  have hnamed := SourceFile.blueprint_named hparse hblueprint
  obtain ⟨other, hother, hrender⟩ := SourceFile.generate_eq_ok hgenerate
  obtain rfl : blueprint = other := Except.ok.inj (hblueprint.symm.trans hother)
  obtain ⟨body, members, -, -, rfl⟩ := SourceFile.blueprint_eq_ok hblueprint
  exact Blueprint.render_reread hnamed hlegible hrender name

/-- A struct is read back whose lengths are no decimal numbers, with a generic type as a
parameter. -/
theorem Go.SourceFile.generate_reread_channel :
    let blueprint : Blueprint := ⟨"p", "T", [⟨"ID", "map[string][0x1F]*int"⟩,
      ⟨"Sink", "chan<- func(Seq[int], ...[math.Bits / (4 * n)]byte) (int, error)"⟩]⟩
    blueprint.Legible ∧ ∃ file text again fields,
      SourceFile.parse "t.go" ("package p;type T struct\x7bID map[string][0x1F]*int;" ++
        "Sink chan<- func(key Seq[int], more ...[math.Bits / (4 * n)]byte) " ++
          "(n int, err error)\x7d;") = .ok file ∧
      file.blueprint "T" = .ok blueprint ∧ file.generate "T" = .ok text ∧
      SourceFile.parse "t_builder.go" text = .ok again ∧ again.package = file.package ∧
      again.findStruct "TBuilder" = .ok (some fields) ∧
      List.Forall₂ (fun (member : Member) (field : Field) =>
        field.names = [unexported member.name] ∧ field.type.signature = .ok member.signature)
        blueprint.members fields := by
  intro blueprint
  have hproduct : IsExpr .whole
      ("4".toList ++ ([' '] ++ ("*".toList ++ ([' '] ++ (("n".toList ++ []) ++ []))))) :=
    .whole (.number (by decide)) (.operation (.inr rfl) (by decide) (.inr rfl)
      (.name (by decide) (by decide) .noSuffix) (fun h => absurd h (by decide)) .noOperation)
  have hbits : IsExpr .operand
      ("math".toList ++ ([] ++ '.' :: ([] ++ ("Bits".toList ++ [])))) :=
    .name (by decide) (by decide) (.selector (.inl rfl) (.inl rfl) (by decide) .noSuffix)
  have hquotient : IsExpr .whole "math.Bits / (4 * n)".toList :=
    IsExpr.whole hbits (@IsExpr.operation [' '] "/" _ _ _ (.inr rfl) (by decide) (.inr rfl)
      (.paren (.inl rfl) hproduct (.inl rfl) .noSuffix) (fun h => absurd h (by decide))
      .noOperation)
  have hnumber : IsExpr .whole ("0x1F".toList ++ []) := .whole (.number (by decide)) .noOperation
  have hlegible : blueprint.Legible := by
    refine ⟨by decide, by decide, ?_⟩
    simp only [blueprint, List.forall_mem_cons]
    refine ⟨⟨.map (.named "string") (.array (some "0x1F") (.pointer (.named "int"))), ?_, rfl⟩,
      ⟨.chan .send (.func [⟨.generic (.named "Seq") [.named "int"], false⟩,
        ⟨.array (some "math.Bits / (4 * n)") (.named "byte"), true⟩]
        [⟨.named "int", false⟩, ⟨.named "error", false⟩]), ?_, rfl⟩, List.forall_mem_nil _⟩
    · exact ⟨⟨by decide, by decide⟩, hnumber, by decide, by decide⟩
    · have hname : ∀ name ∈ ["Seq", "byte", "int", "error"],
          IsWord name.toList ∧ name ∉ typeKeywords := by decide
      have hgeneric : TypeExpr.Legible (.generic (.named "Seq") [.named "int"]) :=
        ⟨rfl, hname _ (by decide), List.cons_ne_nil _ _, hname _ (by decide), trivial⟩
      refine ⟨⟨⟨⟨hgeneric, ⟨hquotient, hname _ (by decide)⟩, trivial⟩, ?_⟩,
        ⟨⟨hname _ (by decide), hname _ (by decide), trivial⟩, ?_⟩, by simp⟩, fun _ => rfl⟩
      all_goals simp [Apart, TypeExpr.goesOn]
  have hsource : (((Go.readTree ("package p;type T struct\x7bID map[string][0x1F]*int;" ++
      "Sink chan<- func(key Seq[int], more ...[math.Bits / (4 * n)]byte) " ++
        "(n int, err error)\x7d;")).bind Go.Tree.toFile?).map fun file =>
          decide (file.blueprint "T" = .ok blueprint)) = some true := by
    decide +kernel
  obtain ⟨file, hfile, hblueprint⟩ := Option.map_eq_some_iff.mp hsource
  obtain ⟨t, ht, htfile⟩ := Option.bind_eq_some_iff.mp hfile
  have hparse := SourceFile.parse_of_tree "t.go" ht htfile
  have hok : blueprint.render.isOk = true := by decide
  cases hrender : blueprint.render with
  | error e => rw [hrender] at hok; cases hok
  | ok text =>
      have hgenerate : file.generate "T" = .ok text := by
        simp only [SourceFile.generate, of_decide_eq_true hblueprint, hrender]
      obtain ⟨again, fields, hagain⟩ := SourceFile.generate_reread hparse
        (of_decide_eq_true hblueprint) hgenerate hlegible "t_builder.go"
      exact ⟨hlegible, file, text, again, fields, hparse, of_decide_eq_true hblueprint, hgenerate,
        hagain⟩

end FluentBuilder

import FluentBuilder.Proofs.Extraction
import FluentBuilder.Proofs.Reached

/-!
# Names of a parsed file — the package, the fields and the members are called by words

The names that a blueprint takes from a source text are words: that of the package, that of the
struct (`isWord_of_parse`) and those of its members, which are names of its fields. Of a syntax tree
only this is used, that it is shaped.

* **`SourceFile.package_isWord`** — the name of the package.
* **`SourceFile.fieldNames_of_parse`** — the names of the fields of a declared struct.
* **`SourceFile.blueprint_named`** — the names in a blueprint.
-/

namespace FluentBuilder

namespace Go

/-! ## Packages -/

/-- The name of a package is a word, whichever clause it is taken from. -/
theorem packageOf_isWord {trees : List Tree} (h : ∀ t ∈ trees, t.Shaped) {package : String}
    (hpackage : packageOf trees = some package) : IsWord package.toList := by
  refine List.foldlRecOn (motive := fun found => ∀ name, found = some name → IsWord name.toList)
    trees _ nofun (fun found hfound t ht name hname => ?_) package hpackage
  split at hname
  case isFalse => exact hfound name hname
  case isTrue hkind =>
    cases t with
    | token gap text => cases hkind
    | leaf kind gap text => cases hname
    | node kind parts =>
        obtain rfl : kind = .packageClause := Option.some.inj (beq_iff_eq.mp hkind)
        obtain ⟨gap, keyword, before, text, rfl, hword⟩ := (h _ ht).1.named.packageName rfl
        obtain rfl : String.ofList text = name := by
          simpa [Tree.named, Tree.parts, Tree.kind?, Tree.text, Tree.chars, Tree.leaves] using hname
        rw [String.toList_ofList]
        exact hword

/-- The trees that have a kind among the children of a shaped node. -/
theorem Tree.Shaped.named {t u : Tree} (h : t.Shaped) (hu : u ∈ t.named) : u.Shaped := by
  cases t with
  | token gap text => cases hu
  | leaf kind gap text => cases hu
  | node kind parts =>
      obtain ⟨part, hpart, heq⟩ := List.mem_filterMap.mp hu
      obtain ⟨-, -, rfl⟩ := Option.map_eq_some_iff.mp heq
      exact partsShaped_iff.mp h.2 part hpart

/-- **The package of a source text is called by a word.** -/
theorem SourceFile.package_isWord {name source : String} {file : SourceFile}
    (h : SourceFile.parse name source = .ok file) : IsWord file.package.toList := by
  obtain ⟨parts, -, hshaped, hpackage, -⟩ := SourceFile.parse_eq_ok h
  exact packageOf_isWord (fun t ht => hshaped.named ht) hpackage

/-! ## Fields -/

/-- The names of fields are words. -/
def FieldsNamed (fields : List Field) : Prop :=
  ∀ field ∈ fields, ∀ name ∈ field.names, IsWord name.toList

/-- If a type is a struct with fields, the names of its fields are words. -/
def TypeExpr.FieldsNamed (t : TypeExpr) : Prop :=
  ∀ fields, t = .struct (some fields) → Go.FieldsNamed fields

/-- The fields of declarations. -/
theorem fieldsOf_named {parts : List Part} (h : PartsShaped parts) :
    FieldsNamed (fieldsOf parts) := by
  induction parts with
  | nil =>
      rw [fieldsOf]
      exact nofun
  | cons part rest ih =>
      obtain ⟨role, t⟩ := part
      obtain ⟨hshaped, hrest⟩ := h
      unfold fieldsOf
      split
      case h_1 => exact nofun
      case h_2 role ps others heq =>
        cases heq
        refine List.forall_mem_cons.mpr ⟨fun name hname => ?_, ih hrest⟩
        obtain ⟨part, hpart, rfl⟩ := List.mem_map.mp hname
        obtain ⟨hpart, hrole⟩ := List.mem_filter.mp hpart
        obtain ⟨gap, text, htree, hword⟩ :=
          hshaped.1.named.fieldNames rfl part hpart (beq_iff_eq.mp hrole)
        simpa [htree, Tree.text, Tree.chars, Tree.leaves] using hword
      case h_3 heq =>
        cases heq
        exact ih hrest

theorem structFields_named {parts : List Part} (h : PartsShaped parts) {fields : List Field}
    (hfields : structFields parts = some fields) : FieldsNamed fields := by
  induction parts with
  | nil =>
      rw [structFields] at hfields
      cases hfields
  | cons part rest ih =>
      obtain ⟨role, t⟩ := part
      obtain ⟨hshaped, hrest⟩ := h
      unfold structFields at hfields
      split at hfields
      case h_1 => cases hfields
      case h_2 heq =>
        cases heq
        cases hfields
        exact fieldsOf_named hshaped.2
      case h_3 heq =>
        cases heq
        exact ih hrest hfields

mutual

/-- The type of a shaped tree is no struct whose fields have other names. -/
theorem Tree.Shaped.fieldsNamed : ∀ {t : Tree}, t.Shaped → t.toType.FieldsNamed
  | .token _ _, _ => fun _ h => by
      rw [Tree.toType] at h
      cases h
  | .leaf kind gap text, _ => fun fields h => by
      unfold Tree.toType at h
      cases kind <;> cases h
  | .node kind parts, hshaped => fun fields h => by
      unfold Tree.toType at h
      cases kind
      case structType => exact structFields_named hshaped.2 (TypeExpr.struct.inj h)
      case typeElem =>
        dsimp only at h
        split at h
        · exact firstType_fieldsNamed hshaped.2 fields h
        · cases h
      all_goals cases h

/-- So is the type of the first child that has a kind. -/
theorem firstType_fieldsNamed : ∀ {parts : List Part}, PartsShaped parts →
    (firstType parts).FieldsNamed
  | [], _ => fun _ h => by
      rw [firstType] at h
      cases h
  | ⟨_, .token _ _⟩ :: rest, h => by
      rw [firstType]
      exact firstType_fieldsNamed h.2
  | ⟨_, .leaf kind gap text⟩ :: rest, h => by
      rw [firstType]
      exact Tree.Shaped.fieldsNamed (t := .leaf kind gap text) h.1
  | ⟨_, .node kind parts⟩ :: rest, h => by
      rw [firstType]
      exact Tree.Shaped.fieldsNamed (t := .node kind parts) h.1

end

theorem roleType_fieldsNamed {parts : List Part} (h : PartsShaped parts) (role : Role) :
    (roleType role parts).FieldsNamed := by
  induction parts with
  | nil =>
      intro fields h
      rw [roleType] at h
      cases h
  | cons part rest ih =>
      obtain ⟨role', t⟩ := part
      rw [roleType]
      split
      · exact h.1.fieldsNamed
      · exact ih h.2

/-- **The fields of a declared struct are called by words.** -/
theorem SourceFile.fieldNames_of_parse {name source : String} {file : SourceFile}
    (h : SourceFile.parse name source = .ok file) {target : String} {fields : List Field}
    (hfind : file.findStruct target = .ok (some fields)) : FieldsNamed fields := by
  obtain ⟨spec, hspec, -, htype⟩ := SourceFile.findStruct_eq_ok hfind
  obtain ⟨kind, parts, isAlias, hshaped, -, rfl⟩ := SourceFile.typeSpec_of_parse h hspec
  exact roleType_fieldsNamed hshaped.2 .type fields htype

end Go

/-! ## Members -/

/-- A member is called by an exported name of a field. -/
theorem Go.Field.Adds.name_mem {field : Go.Field} {ms : List Member} (h : field.Adds (.ok ms))
    {member : Member} (hmember : member ∈ ms) :
    member.name ∈ field.names ∧ isExported member.name = true := by
  cases h with
  | hidden => cases hmember
  | ignored => cases hmember
  | exported hnames =>
      obtain ⟨name, hname, rfl⟩ := List.mem_map.mp hmember
      rw [← hnames] at hname
      exact List.mem_filter.mp hname

/-- The names of the members of a struct are words if those of its fields are. -/
theorem membersOf_named {fields : List Go.Field} (h : Go.FieldsNamed fields) {ms : List Member}
    (hmembers : membersOf fields = .ok ms) :
    ∀ member ∈ ms, Go.IsWord member.name.toList ∧ isExported member.name = true := by
  induction fields generalizing ms with
  | nil =>
      cases hmembers
      exact nofun
  | cons field rest ih =>
      rw [Go.FieldsNamed, List.forall_mem_cons] at h
      obtain ⟨part, others, hpart, hothers, rfl⟩ := membersOf_cons_eq_ok.mp hmembers
      refine List.forall_mem_append.mpr ⟨fun member hmember => ?_, ih h.2 hothers⟩
      obtain ⟨hname, hexported⟩ := (Go.Field.adds_iff.mpr hpart).name_mem hmember
      exact ⟨h.1 member.name hname, hexported⟩

/-! ## Blueprints -/

/-- The package, the type and the members of a blueprint are called by words, and each member by an
exported one. -/
structure Blueprint.Named (blueprint : Blueprint) : Prop where
  package : Go.IsWord blueprint.package.toList
  target  : Go.IsWord blueprint.target.toList
  members : ∀ member ∈ blueprint.members,
    Go.IsWord member.name.toList ∧ isExported member.name = true

/-- **The names in the blueprint of a source text are words.** -/
theorem Go.SourceFile.blueprint_named {name source target : String} {file : SourceFile}
    (hparse : SourceFile.parse name source = .ok file) {blueprint : Blueprint}
    (h : file.blueprint target = .ok blueprint) : blueprint.Named := by
  obtain ⟨body, members, hfind, hmembers, rfl⟩ := SourceFile.blueprint_eq_ok h
  refine ⟨SourceFile.package_isWord hparse, ?_, membersOf_named ?_ hmembers⟩
  · obtain ⟨spec, hspec, rfl, -⟩ := SourceFile.findStruct_eq_ok hfind
    exact SourceFile.isWord_of_parse hparse spec hspec
  · cases body with
    | none => exact nofun
    | some fields => exact SourceFile.fieldNames_of_parse hparse hfind

end FluentBuilder

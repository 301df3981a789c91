import Mathlib.Data.List.Forall2
import FluentBuilder.Members
import FluentBuilder.Proofs.OptionLists

/-!
# Extraction — what the fields of a struct contribute to its builder

`Go.Field.Adds` says what one field contributes: members, or an error that ends the extraction. Its
rules are tried in the order in which they stand here, so that a field that is left out is not asked
for more: its tag does not matter if nothing of it is exported, nor its type if its tag leaves it
out. The members of a struct are the contributions of its fields one behind the other.

* **`Go.Field.adds_iff`** — a field contributes what `Go.Field.members` gives, and nothing else.
* **`membersOf_eq_ok_iff`**, **`membersOf_eq_error_iff`** — the members of fields, and which error
  is reported.
* **`Go.StructBody.members_process`** — all of it, for the body of a struct.
-/

namespace FluentBuilder

open FieldOptions (tagEntries isUnknown ignoreEntry)

/-- What a field contributes to the members of its struct. -/
inductive Go.Field.Adds (field : Go.Field) : Except FieldError (List Member) → Prop where
  | hidden (hnames : ∀ name ∈ field.names, isExported name = false) : field.Adds (.ok [])
  | unknownOption {first token : String} {others : List String}
      (hnames : field.names.filter isExported = first :: others)
      (htoken : (tagEntries field.tag).find? isUnknown = some token) :
      field.Adds (.error (.invalidOption first token))
  | ignored {first : String} {others : List String}
      (hnames : field.names.filter isExported = first :: others)
      (hknown : ∀ entry ∈ tagEntries field.tag, isUnknown entry = false)
      (hignore : ignoreEntry ∈ tagEntries field.tag) : field.Adds (.ok [])
  | noSignature {first : String} {others : List String} {e : SignatureError}
      (hnames : field.names.filter isExported = first :: others)
      (hknown : ∀ entry ∈ tagEntries field.tag, isUnknown entry = false)
      (hkept : ignoreEntry ∉ tagEntries field.tag) (htype : field.type.signature = .error e) :
      field.Adds (.error (e.atField first))
  | exported {first signature : String} {others : List String}
      (hnames : field.names.filter isExported = first :: others)
      (hknown : ∀ entry ∈ tagEntries field.tag, isUnknown entry = false)
      (hkept : ignoreEntry ∉ tagEntries field.tag) (htype : field.type.signature = .ok signature) :
      field.Adds (.ok ((first :: others).map fun name => ⟨name, signature⟩))

/-! ## One field -/

/-- The options of a tag without unknown entries. -/
theorem FieldOptions.ofTag_of_known {tag : Option String}
    (h : ∀ entry ∈ tagEntries tag, isUnknown entry = false) :
    ofTag tag = .ok ⟨(tagEntries tag).contains ignoreEntry⟩ := by
  have hnone : (tagEntries tag).find? isUnknown = none := by simpa using h
  rw [ofTag_eq, asked, hnone, Bool.false_or]

/-- **A field contributes its members**, or its error. -/
theorem Go.Field.adds_iff {field : Go.Field} {result : Except FieldError (List Member)} :
    field.Adds result ↔ field.members = result := by
  constructor
  · intro h
    cases h with
    | hidden hnames =>
        have hnone : field.exportedNames = [] := by simpa [exportedNames] using hnames
        rw [members, hnone]
    | unknownOption hnames htoken =>
        rw [members, exportedNames, hnames, FieldOptions.ofTag_eq, FieldOptions.asked, htoken]
    | ignored hnames hknown hignore =>
        rw [members, exportedNames, hnames, FieldOptions.ofTag_of_known hknown]
        exact if_pos (List.contains_iff_mem.mpr hignore)
    | noSignature hnames hknown hkept htype =>
        rw [members, exportedNames, hnames, FieldOptions.ofTag_of_known hknown, htype]
        exact if_neg (mt List.contains_iff_mem.mp hkept)
    | exported hnames hknown hkept htype =>
        rw [members, exportedNames, hnames, FieldOptions.ofTag_of_known hknown, htype]
        exact if_neg (mt List.contains_iff_mem.mp hkept)
  · rintro rfl
    cases hnames : field.names.filter isExported with
    | nil =>
        rw [members, exportedNames, hnames]
        exact .hidden (by simpa using hnames)
    | cons first others =>
        cases hfind : (tagEntries field.tag).find? isUnknown with
        | some token =>
            rw [members, exportedNames, hnames, FieldOptions.ofTag_eq, FieldOptions.asked, hfind]
            exact .unknownOption hnames hfind
        | none =>
            have hknown : ∀ entry ∈ tagEntries field.tag, isUnknown entry = false := by
              simpa using hfind
            rw [members, exportedNames, hnames, FieldOptions.ofTag_of_known hknown]
            dsimp only
            split
            case isTrue hignore =>
              exact .ignored hnames hknown (List.contains_iff_mem.mp hignore)
            case isFalse hkept =>
              have hkept : ignoreEntry ∉ tagEntries field.tag := mt List.contains_iff_mem.mpr hkept
              cases htype : field.type.signature with
              | error e => exact .noSignature hnames hknown hkept htype
              | ok signature => exact .exported hnames hknown hkept htype

/-- Each field contributes one thing. -/
theorem Go.Field.existsUnique_adds (field : Go.Field) : ∃! result, field.Adds result :=
  ⟨field.members, adds_iff.mpr rfl, fun _ h => (adds_iff.mp h).symm⟩

/-! ## All fields -/

theorem membersOf_cons (field : Go.Field) (rest : List Go.Field) :
    membersOf (field :: rest) = do
      let ms ← field.members
      let others ← membersOf rest
      return ms ++ others := rfl

/-- The members of one more field stand in front. -/
theorem membersOf_cons_eq_ok {field : Go.Field} {rest : List Go.Field} {ms : List Member} :
    membersOf (field :: rest) = .ok ms ↔
      ∃ part others, field.members = .ok part ∧ membersOf rest = .ok others ∧
        ms = part ++ others := by
  rw [membersOf_cons]
  cases field.members with
  | error e => exact ⟨nofun, fun ⟨_, _, h, _⟩ => nomatch h⟩
  | ok part =>
      cases membersOf rest with
      | error e => exact ⟨nofun, fun ⟨_, _, _, h, _⟩ => nomatch h⟩
      | ok others =>
          constructor
          · rintro ⟨⟩
            exact ⟨part, others, rfl, rfl, rfl⟩
          · rintro ⟨_, _, ⟨⟩, ⟨⟩, rfl⟩
            rfl

/-- One more field fails itself, or the others do. -/
theorem membersOf_cons_eq_error {field : Go.Field} {rest : List Go.Field} {e : FieldError} :
    membersOf (field :: rest) = .error e ↔
      field.members = .error e ∨
        (∃ part, field.members = .ok part) ∧ membersOf rest = .error e := by
  rw [membersOf_cons]
  cases field.members with
  | error e' => exact ⟨.inl, fun h => h.elim id fun ⟨⟨_, h⟩, _⟩ => nomatch h⟩
  | ok part =>
      cases membersOf rest with
      | error e' => exact ⟨fun h => .inr ⟨⟨part, rfl⟩, h⟩, fun h => h.elim nofun And.right⟩
      | ok others => exact ⟨nofun, fun h => h.elim nofun fun h => nomatch h.2⟩

/-- **The members of more fields** stand behind those of the fields in front. -/
theorem membersOf_append (fields more : List Go.Field) :
    membersOf (fields ++ more) = do
      let ms ← membersOf fields
      let others ← membersOf more
      return ms ++ others := by
  induction fields with
  | nil =>
      rw [List.nil_append]
      cases membersOf more <;> rfl
  | cons field rest ih =>
      rw [List.cons_append, membersOf_cons, membersOf_cons, ih]
      cases field.members with
      | error => rfl
      | ok ms =>
          cases membersOf rest with
          | error => rfl
          | ok others =>
              cases membersOf more with
              | error => rfl
              | ok last => exact congrArg Except.ok (List.append_assoc ms others last).symm

/-- A field that contributes nothing can be left out. -/
theorem membersOf_leaveOut {field : Go.Field} (h : field.members = .ok [])
    (before after : List Go.Field) :
    membersOf (before ++ field :: after) = membersOf (before ++ after) := by
  have hcons : membersOf (field :: after) = membersOf after := by
    rw [membersOf_cons, h]
    cases membersOf after <;> rfl
  rw [membersOf_append, membersOf_append, hcons]

/-- **Fields have members if none of them fails**: the contributions of all of them. -/
theorem membersOf_eq_ok_iff {fields : List Go.Field} {ms : List Member} :
    membersOf fields = .ok ms ↔
      ∃ parts, List.Forall₂ (fun field part => field.Adds (.ok part)) fields parts ∧
        ms = parts.flatten := by
  induction fields generalizing ms with
  | nil =>
      constructor
      · rintro ⟨⟩
        exact ⟨[], .nil, rfl⟩
      · rintro ⟨_, ⟨⟩, rfl⟩
        rfl
  | cons field rest ih =>
      rw [membersOf_cons_eq_ok]
      constructor
      · rintro ⟨part, others, hpart, hothers, rfl⟩
        obtain ⟨parts, hparts, rfl⟩ := ih.mp hothers
        exact ⟨part :: parts, .cons (Go.Field.adds_iff.mpr hpart) hparts, rfl⟩
      · rintro ⟨_, hparts, rfl⟩
        cases hparts with
        | @cons _ part _ parts hpart hparts =>
            exact ⟨part, parts.flatten, Go.Field.adds_iff.mp hpart, ih.mpr ⟨parts, hparts, rfl⟩, rfl⟩

/-- **The error of fields is that of the first one that fails.** -/
theorem membersOf_eq_error_iff {fields : List Go.Field} {e : FieldError} :
    membersOf fields = .error e ↔
      ∃ before field after, fields = before ++ field :: after ∧
        (∀ previous ∈ before, ∃ part, previous.Adds (.ok part)) ∧ field.Adds (.error e) := by
  induction fields with
  | nil =>
      constructor
      · exact nofun
      · rintro ⟨before, _, _, heq, -⟩
        exact absurd (congrArg List.length heq) (by simp)
  | cons field rest ih =>
      rw [membersOf_cons_eq_error, ih]
      constructor
      · rintro (hfails | ⟨⟨part, hpart⟩, before, failing, after, rfl, hbefore, hfails⟩)
        · exact ⟨[], field, rest, rfl, nofun, Go.Field.adds_iff.mpr hfails⟩
        · refine ⟨field :: before, failing, after, rfl, ?_, hfails⟩
          exact List.forall_mem_cons.mpr ⟨⟨part, Go.Field.adds_iff.mpr hpart⟩, hbefore⟩
      · rintro ⟨before, failing, after, heq, hbefore, hfails⟩
        cases before with
        | nil =>
            obtain ⟨rfl, rfl⟩ := List.cons.inj heq
            exact .inl (Go.Field.adds_iff.mp hfails)
        | cons first others =>
            obtain ⟨rfl, rfl⟩ := List.cons.inj heq
            obtain ⟨⟨part, hpart⟩, hothers⟩ := List.forall_mem_cons.mp hbefore
            exact .inr ⟨⟨part, Go.Field.adds_iff.mp hpart⟩, others, failing, after, rfl, hothers, hfails⟩

/-- **How the members of a struct are found.** Every field contributes one thing, as `Adds` says.
    The members are the contributions in the order of the fields if none of these fails, else there
    is the error of the first field that fails. So the members of two lists of fields, one behind
    the other, are found one after the other, and a field that contributes nothing does not matter
    wherever it stands. -/
theorem Go.StructBody.members_process (body : Go.StructBody) :
    (∀ field : Go.Field, ∃! result, field.Adds result) ∧
    (∀ ms, body.members = .ok ms ↔
      ∃ parts, List.Forall₂ (fun field part => field.Adds (.ok part)) (body.getD []) parts ∧
        ms = parts.flatten) ∧
    (∀ e, body.members = .error e ↔
      ∃ before field after, body.getD [] = before ++ field :: after ∧
        (∀ previous ∈ before, ∃ part, previous.Adds (.ok part)) ∧ field.Adds (.error e)) ∧
    (∀ before after : List Go.Field,
      Go.StructBody.members (some (before ++ after)) = do
        let ms ← Go.StructBody.members (some before)
        let others ← Go.StructBody.members (some after)
        return ms ++ others) ∧
    (∀ (before after : List Go.Field) (field : Go.Field), field.Adds (.ok []) →
      Go.StructBody.members (some (before ++ field :: after)) =
        Go.StructBody.members (some (before ++ after))) :=
  ⟨Go.Field.existsUnique_adds, fun _ => membersOf_eq_ok_iff, fun _ => membersOf_eq_error_iff,
    membersOf_append,
    fun before after _ h => membersOf_leaveOut (Go.Field.adds_iff.mp h) before after⟩

/-- `members_process` for four fields: the first one is hidden, although its tag is wrong, the
    second one is left out, although its type has no signature, the third one has two exported
    names, and the last one fails at its second name. -/
theorem Go.StructBody.members_process_mixed :
    let hidden : Go.Field := ⟨["secret"], .named "int", some "builder:\"bogus\""⟩
    let ignored : Go.Field := ⟨["Skip"], .other "negated_type", some "builder:\" ,ignore\""⟩
    let several : Go.Field := ⟨["X", "y", "Z"], .pointer (.named "T"), none⟩
    let failing : Go.Field := ⟨["low", "High"], .named "int", some "builder:\"ignore, foo\""⟩
    Go.StructBody.members (some [hidden, ignored, several]) = .ok [⟨"X", "*T"⟩, ⟨"Z", "*T"⟩] ∧
      Go.StructBody.members (some [hidden, ignored, several, failing]) =
        .error (.invalidOption "High" "foo") := by
  intro hidden ignored several failing
  have hskip : ignored.names.filter isExported = ["Skip"] := by decide
  have hboth : several.names.filter isExported = ["X", "Z"] := by decide
  have hhigh : failing.names.filter isExported = ["High"] := by decide
  have hhidden : hidden.Adds (.ok []) := .hidden (by decide)
  have hignored : ignored.Adds (.ok []) :=
    .ignored hskip (by decide) (by decide)
  have hseveral : several.Adds (.ok [⟨"X", "*T"⟩, ⟨"Z", "*T"⟩]) :=
    .exported hboth nofun nofun rfl
  have hfailing : failing.Adds (.error (.invalidOption "High" "foo")) :=
    .unknownOption hhigh (by decide)
  obtain ⟨-, hok, -⟩ := Go.StructBody.members_process (some [hidden, ignored, several])
  obtain ⟨-, -, herror, -⟩ :=
    Go.StructBody.members_process (some [hidden, ignored, several, failing])
  refine ⟨(hok _).mpr ⟨_, .cons hhidden (.cons hignored (.cons hseveral .nil)), rfl⟩, ?_⟩
  refine (herror _).mpr ⟨[hidden, ignored, several], failing, [], rfl, ?_, hfailing⟩
  rw [List.forall_mem_cons, List.forall_mem_cons, List.forall_mem_singleton]
  exact ⟨⟨_, hhidden⟩, ⟨_, hignored⟩, ⟨_, hseveral⟩⟩

end FluentBuilder

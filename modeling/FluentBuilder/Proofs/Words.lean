import Mathlib.Data.List.TakeWhile
import FluentBuilder.Go.Grammar.File
import FluentBuilder.Go.Tree.File

/-!
# Words — the names of declared types, of fields and of packages

The name of a declared type is a word wherever the declaration stands, and so are the names of the
fields of a struct and the name of a package. `Kind.Admits` says so of the children of a node.

* **`word_isWord`** — what is read as a word is one.
* **`IsWord.noSlash`** — a word can be part of the name of a file.
-/

namespace FluentBuilder.Go

/-- A text that is a word from its first to its last character. -/
def IsWord (text : List Char) : Prop := word text = some (text, [])

instance (text : List Char) : Decidable (IsWord text) :=
  inferInstanceAs (Decidable (word text = some (text, [])))

/-- A text is a word if its first character begins one and the others go on with it. -/
theorem isWord_iff {text : List Char} :
    IsWord text ↔ ∃ c rest, text = c :: rest ∧ Text.isIdentStart c = true ∧
      ∀ d ∈ rest, Text.isIdentPart d = true := by
  unfold IsWord
  cases text with
  | nil => exact ⟨nofun, nofun⟩
  | cons c rest =>
      simp only [← List.takeWhile_eq_self_iff]
      by_cases hc : Text.isIdentStart c = true
      · have hcut := List.takeWhile_append_dropWhile (p := Text.isIdentPart) (l := rest)
        constructor
        · intro h
          simp only [word, if_pos hc, Option.some.injEq, Prod.mk.injEq, List.cons.injEq,
            true_and] at h
          exact ⟨c, rest, rfl, hc, h.1⟩
        · rintro ⟨c', rest', heq, -, hrest⟩
          obtain ⟨rfl, rfl⟩ := List.cons.inj heq
          rw [hrest] at hcut
          simp only [word, if_pos hc, hrest, List.append_right_eq_self.mp hcut]
      · constructor
        · intro h
          simp only [word, if_neg hc] at h
          cases h
        · rintro ⟨c', rest', heq, hstart, -⟩
          obtain ⟨rfl, rfl⟩ := List.cons.inj heq
          exact absurd hstart hc

/-- What is read as a word is one. -/
theorem word_isWord {s text rest : List Char} (h : word s = some (text, rest)) : IsWord text := by
  cases s with
  | nil => cases h
  | cons c s =>
      simp only [word] at h
      split at h
      case isTrue hc =>
        cases h
        exact isWord_iff.mpr ⟨c, _, rfl, hc, fun d hd => List.mem_takeWhile_imp hd⟩
      case isFalse => cases h

/-- A word holds only characters that may stand inside of one. -/
theorem IsWord.not_mem {text : List Char} (h : IsWord text) {c : Char}
    (hc : Text.isIdentPart c = false) : c ∉ text := by
  obtain ⟨first, rest, rfl, hfirst, hrest⟩ := isWord_iff.mp h
  intro hmem
  have hpart : Text.isIdentPart c = true := by
    rcases List.mem_cons.mp hmem with rfl | hmem
    · rw [Text.isIdentPart, hfirst, Bool.true_or]
    · exact hrest c hmem
  rw [hc] at hpart
  cases hpart

/-- A word holds no slash. -/
theorem IsWord.noSlash {text : List Char} (h : IsWord text) : '/' ∉ text :=
  h.not_mem (by decide)

/-! ## Names of declared types, of fields and of packages -/

/-- Decide whether a kind is that of a declared type. -/
def Kind.declaresType : Kind → Bool
  | .typeSpec | .typeAlias => true
  | _ => false

/-- Decide whether a kind is that of a node that gives a name to a type, to fields or to a
package. -/
def Kind.givesNames (kind : Kind) : Bool :=
  kind.declaresType || kind == .fieldDeclaration || kind == .packageClause

/-- The names among the children of a node are words: the first child of a declared type, every
name of a field and the child behind the keyword of a package. -/
structure Kind.Admits (kind : Kind) (parts : List Part) : Prop where
  typeName : kind.declaresType = true → ∃ gap text rest,
    parts = ⟨some .name, .leaf .typeIdentifier gap text⟩ :: rest ∧ IsWord text
  fieldNames : kind = .fieldDeclaration → ∀ part ∈ parts, part.role = some .name →
    ∃ gap text, part.tree = .leaf .fieldIdentifier gap text ∧ IsWord text
  packageName : kind = .packageClause → ∃ gap keyword before text,
    parts = [⟨none, .token gap keyword⟩, ⟨none, .leaf .packageIdentifier before text⟩] ∧
      IsWord text

/-- A node of any other kind may have any children. -/
theorem Kind.admits_of_nameless {kind : Kind} (h : kind.givesNames = false) (parts : List Part) :
    kind.Admits parts := by
  simp only [givesNames, Bool.or_eq_false_iff, beq_eq_false_iff_ne] at h
  obtain ⟨⟨htype, hfield⟩, hpackage⟩ := h
  refine ⟨fun hkind => ?_, fun hkind => absurd hkind hfield, fun hkind => absurd hkind hpackage⟩
  rw [htype] at hkind
  cases hkind

end FluentBuilder.Go

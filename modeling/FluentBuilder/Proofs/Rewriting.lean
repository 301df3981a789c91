import FluentBuilder.Proofs.Resolve

/-!
# Rewriting — trees that keep their directories

A tree that grows may get new directories, and then paths lead somewhere that led nowhere before.
`Rewrites only before after` says that this does not happen: two trees have the same directories
and differ only in files at some locations.

* **`Rewrites.resolve_iff`** — every path leads where it led, also if it led nowhere.
* **`Rewrites.readText_iff`** — a path that leads to none of these locations is read as before.
-/

namespace FluentBuilder

namespace FileTree

/-- One tree differs from another one only in files at locations that satisfy `only`. -/
structure Rewrites (only : Location → Prop) (before after : FileTree) : Prop where
  workingDirectory : after.workingDirectory = before.workingDirectory
  entry : ∀ l, after.at? l = before.at? l ∨
    (only l ∧ before.at? l ≠ some .directory ∧ ∃ content, after.at? l = some (.file content))

namespace Rewrites

variable {only : Location → Prop} {before mid after : FileTree}

/-- A tree does not differ from itself. -/
theorem refl (tree : FileTree) : Rewrites only tree tree := ⟨rfl, fun _ => .inl rfl⟩

/-- Changes follow each other. -/
theorem trans (h₁ : Rewrites only before mid) (h₂ : Rewrites only mid after) :
    Rewrites only before after := by
  refine ⟨h₂.workingDirectory.trans h₁.workingDirectory, fun l => ?_⟩
  rcases h₂.entry l with same | ⟨hl, hne, hfile⟩
  · rw [same]
    exact h₁.entry l
  · refine .inr ⟨hl, ?_, hfile⟩
    rcases h₁.entry l with same | ⟨-, hbefore, -⟩
    · rw [← same]; exact hne
    · exact hbefore

/-- More locations may change. -/
theorem mono {more : Location → Prop} (h : Rewrites only before after)
    (hsub : ∀ l, only l → more l) : Rewrites more before after :=
  ⟨h.workingDirectory, fun l => (h.entry l).imp_right fun ⟨hl, hrest⟩ => ⟨hsub l hl, hrest⟩⟩

/-- A tree that keeps its directories grows. -/
theorem grows (h : Rewrites only before after) : Grows only before after :=
  ⟨h.workingDirectory, fun l => (h.entry l).imp_right .inr⟩

/-- What stands elsewhere stays. -/
theorem at?_eq (h : Rewrites only before after) {l : Location} (hl : ¬ only l) :
    after.at? l = before.at? l :=
  (h.entry l).resolve_right fun ⟨honly, _⟩ => hl honly

/-- The directories stay the same. -/
theorem directory_iff (h : Rewrites only before after) (l : Location) :
    after.at? l = some .directory ↔ before.at? l = some .directory := by
  rcases h.entry l with same | ⟨-, hne, content, hfile⟩
  · rw [same]
  · rw [hfile]
    exact ⟨nofun, fun hdir => absurd hdir hne⟩

/-- Segments lead where they led. -/
theorem follow_iff (h : Rewrites only before after) (segments : List (List Char))
    {start l : Location} :
    after.follow start segments = .ok l ↔ before.follow start segments = .ok l := by
  induction segments generalizing start with
  | nil => exact Iff.rfl
  | cons segment rest ih =>
      rw [follow_cons_eq_ok, follow_cons_eq_ok, h.directory_iff, ih]

/-- A path leads where it led. -/
theorem resolve_iff (h : Rewrites only before after) {path : String} {l : Location} :
    after.resolve path = .ok l ↔ before.resolve path = .ok l := by
  by_cases hempty : path = ""
  · subst hempty
    exact ⟨nofun, nofun⟩
  · rw [resolve_eq hempty, resolve_eq hempty, startOf, startOf, h.workingDirectory]
    exact h.follow_iff _

/-- A file that did not change is read as before. -/
theorem readText_iff (h : Rewrites only before after) {path text : String}
    (hpath : ∀ l, before.resolve path = .ok l → ¬ only l) :
    after.readText path = .ok text ↔ before.readText path = .ok text := by
  simp only [readText_eq_ok, readBytes_eq_ok, h.resolve_iff]
  constructor
  · rintro ⟨l, hl, hat⟩
    exact ⟨l, hl, (h.at?_eq (hpath l hl)).symm.trans hat⟩
  · rintro ⟨l, hl, hat⟩
    exact ⟨l, hl, (h.at?_eq (hpath l hl)).trans hat⟩

end Rewrites

/-- Putting a file where no directory stands. -/
theorem insert_file_rewrites {tree : FileTree} {l : Location} (content : ByteArray)
    (hl : tree.at? l ≠ some .directory) :
    Rewrites (· = l) tree (tree.insert l (.file content)) := by
  refine ⟨rfl, fun l' => ?_⟩
  by_cases hne : l' = l
  · subst hne
    have hroot : l' ≠ [] := by rintro rfl; exact hl rfl
    exact .inr ⟨rfl, hl, content, at?_insert_self tree hroot _⟩
  · exact .inl (at?_insert_of_ne tree hne _)

end FileTree

end FluentBuilder

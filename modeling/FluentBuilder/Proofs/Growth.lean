import FluentBuilder.GeneratedFile

/-!
# Growth of file trees — what writing can change

Every operation that writes makes directories where nothing stood and leaves the content of
files, except of those that it names. `Grows only before after` says so:

* **`Grows.follow`**, **`Grows.resolve`** — a path that led somewhere leads there still;
* **`makeDirectories_grows`** — making directories changes no file;
* **`write_effect`** — writing a generated file changes the file that its path names, and no other
  one; it then holds the generated text. A failed write changes no file.
-/

namespace FluentBuilder

namespace FileTree

/-! ## Insertion -/

/-- No location is found behind a filter that takes it away. -/
theorem lookup_filter_self (entries : List (Location × Entry)) (l : Location) :
    (entries.filter fun known => known.1 != l).lookup l = none := by
  induction entries with
  | nil => rfl
  | cons known rest ih =>
      obtain ⟨k, e⟩ := known
      by_cases hk : k = l
      · subst hk
        simpa using ih
      · have hl : (l == k) = false := beq_false_of_ne (Ne.symm hk)
        simp [hk, List.lookup_cons, hl, ih]

/-- Other locations are found behind it as before. -/
theorem lookup_filter_of_ne (entries : List (Location × Entry)) {l l' : Location}
    (hne : l' ≠ l) :
    (entries.filter fun known => known.1 != l).lookup l' = entries.lookup l' := by
  induction entries with
  | nil => rfl
  | cons known rest ih =>
      obtain ⟨k, e⟩ := known
      by_cases hk : k = l
      · subst hk
        have hl : (l' == k) = false := beq_false_of_ne hne
        simpa [List.lookup_cons, hl] using ih
      · simp [hk, List.lookup_cons, ih]

/-- What is inserted is found, except at the root. -/
theorem at?_insert_self (tree : FileTree) {l : Location} (hl : l ≠ []) (e : Entry) :
    (tree.insert l e).at? l = some e := by
  have h : (l == []) = false := beq_false_of_ne hl
  simp [at?, h, insert, List.lookup_append, lookup_filter_self]

/-- An insertion changes nothing at other locations. -/
theorem at?_insert_of_ne (tree : FileTree) {l l' : Location} (hne : l' ≠ l) (e : Entry) :
    (tree.insert l e).at? l' = tree.at? l' := by
  have h : (l' == l) = false := beq_false_of_ne hne
  simp [at?, insert, List.lookup_append, lookup_filter_of_ne tree.entries hne,
    List.lookup_cons, h]

/-! ## Growth -/

/-- One tree grows out of another: directories are made where nothing stood, and files are
    written only at locations that satisfy `only`. -/
structure Grows (only : Location → Prop) (before after : FileTree) : Prop where
  workingDirectory : after.workingDirectory = before.workingDirectory
  entry : ∀ l, after.at? l = before.at? l ∨
    (before.at? l = none ∧ after.at? l = some .directory) ∨
    (only l ∧ before.at? l ≠ some .directory ∧ ∃ content, after.at? l = some (.file content))

namespace Grows

variable {only : Location → Prop} {before mid after : FileTree}

/-- A tree grows out of itself. -/
theorem refl (tree : FileTree) : Grows only tree tree := ⟨rfl, fun _ => .inl rfl⟩

/-- Growth goes on. -/
theorem trans (h₁ : Grows only before mid) (h₂ : Grows only mid after) :
    Grows only before after := by
  refine ⟨h₂.workingDirectory.trans h₁.workingDirectory, ?_⟩
  intro l
  rcases h₂.entry l with same | ⟨hnone, hdir⟩ | ⟨hl, hne, hfile⟩
  · rw [same]
    exact h₁.entry l
  · rcases h₁.entry l with same | ⟨-, hmid⟩ | ⟨-, -, content, hmid⟩
    · exact .inr (.inl ⟨same ▸ hnone, hdir⟩)
    · rw [hnone] at hmid; cases hmid
    · rw [hnone] at hmid; cases hmid
  · refine .inr (.inr ⟨hl, ?_, hfile⟩)
    rcases h₁.entry l with same | ⟨hbefore, -⟩ | ⟨-, hbefore, -⟩
    · rw [← same]; exact hne
    · rw [hbefore]; exact nofun
    · exact hbefore

/-- More locations may be written. -/
theorem mono {some' : Location → Prop} (h : Grows only before after)
    (hsub : ∀ l, only l → some' l) : Grows some' before after := by
  refine ⟨h.workingDirectory, fun l => ?_⟩
  rcases h.entry l with same | made | ⟨hl, hrest⟩
  · exact .inl same
  · exact .inr (.inl made)
  · exact .inr (.inr ⟨hsub l hl, hrest⟩)

/-- A directory stays one. -/
theorem directory (h : Grows only before after) {l : Location}
    (hl : before.at? l = some .directory) : after.at? l = some .directory := by
  rcases h.entry l with same | ⟨-, hdir⟩ | ⟨-, hne, -⟩
  · rw [same, hl]
  · exact hdir
  · exact absurd hl hne

/-- A file that may not be written keeps its content. -/
theorem file (h : Grows only before after) {l : Location} (hl : ¬ only l) {content : ByteArray}
    (hfile : before.at? l = some (.file content)) : after.at? l = some (.file content) := by
  rcases h.entry l with same | ⟨hnone, -⟩ | ⟨honly, -⟩
  · rw [same, hfile]
  · rw [hfile] at hnone; cases hnone
  · exact absurd honly hl

/-- A path that can be followed leads to the same location. -/
theorem follow (h : Grows only before after) (segments : List (List Char)) :
    ∀ {start l : Location}, before.follow start segments = .ok l →
      after.follow start segments = .ok l := by
  induction segments with
  | nil => intro start l hl; exact hl
  | cons segment rest ih =>
      intro start l hl
      simp only [FileTree.follow] at hl ⊢
      cases hat : before.at? start with
      | none => rw [hat] at hl; cases hl
      | some e =>
          cases e with
          | file content => rw [hat] at hl; cases hl
          | directory =>
              rw [hat] at hl
              rw [h.directory hat]
              exact ih hl

/-- A path that leads to a location leads there still. -/
theorem resolve (h : Grows only before after) {path : String} {l : Location}
    (hl : before.resolve path = .ok l) : after.resolve path = .ok l := by
  unfold FileTree.resolve at hl ⊢
  by_cases hempty : (path == "") = true
  · rw [if_pos hempty] at hl; cases hl
  · rw [if_neg hempty] at hl ⊢
    have hbeg : after.beginning path = before.beginning path := by
      simp only [beginning, h.workingDirectory]
    rw [hbeg]
    exact h.follow _ hl

end Grows

/-- Inserting a directory where nothing stands. -/
theorem insert_directory_grows {only : Location → Prop} {tree : FileTree} {l : Location}
    (hl : tree.at? l = none) : Grows only tree (tree.insert l .directory) := by
  refine ⟨rfl, fun l' => ?_⟩
  by_cases hne : l' = l
  · subst hne
    have hroot : l' ≠ [] := by rintro rfl; cases hl
    exact .inr (.inl ⟨hl, at?_insert_self tree hroot _⟩)
  · exact .inl (at?_insert_of_ne tree hne _)

/-- Inserting a file where no directory stands. -/
theorem insert_file_grows {tree : FileTree} {l : Location} (content : ByteArray)
    (hl : tree.at? l ≠ some .directory) :
    Grows (· = l) tree (tree.insert l (.file content)) := by
  refine ⟨rfl, fun l' => ?_⟩
  by_cases hne : l' = l
  · subst hne
    have hroot : l' ≠ [] := by rintro rfl; exact hl rfl
    exact .inr (.inr ⟨rfl, hl, content, at?_insert_self tree hroot _⟩)
  · exact .inl (at?_insert_of_ne tree hne _)

/-! ## Making directories -/

/-- Making one directory changes no file. -/
theorem makeDirectory_grows {only : Location → Prop} {tree made : FileTree} {path : String}
    (h : tree.makeDirectory path = .ok made) : Grows only tree made := by
  unfold makeDirectory at h
  cases hres : tree.resolve (bareName path) with
  | error e => rw [hres] at h; cases h
  | ok l =>
      rw [hres] at h
      cases hat : tree.at? l with
      | some e => simp only [hat] at h; cases h
      | none =>
          simp only [hat, Except.ok.injEq] at h
          rw [← h]
          exact insert_directory_grows hat

/-- Making a directory and those above it changes no file, also when it fails on the way. -/
theorem makeDirectoriesFrom_grows {only : Location → Prop} (limit : Nat) :
    ∀ {tree after : FileTree} {path : String} {result : Except FileError Unit},
      tree.makeDirectoriesFrom path limit = (result, after) → Grows only tree after := by
  induction limit with
  | zero =>
      intro tree after path result h
      cases h
      exact Grows.refl tree
  | succ limit ih =>
      intro tree after path result h
      unfold makeDirectoriesFrom at h
      split at h
      · cases h
        exact Grows.refl tree
      · cases hmake : tree.makeDirectory path with
        | ok made =>
            rw [hmake] at h
            cases h
            exact makeDirectory_grows hmake
        | error e =>
            rw [hmake] at h
            cases e
            case notFound =>
              simp only at h
              cases hparent : Path.parent? path with
              | none =>
                  rw [hparent] at h
                  cases h
                  exact Grows.refl tree
              | some parent =>
                  rw [hparent] at h
                  -- the directories above were made first, and stay whatever follows
                  cases habove : tree.makeDirectoriesFrom parent limit with
                  | mk found left =>
                      have hleft : Grows only tree left := ih habove
                      simp only [habove] at h
                      cases found with
                      | error e => cases h; exact hleft
                      | ok u =>
                          cases hagain : left.makeDirectory path with
                          | ok made =>
                              simp only [hagain] at h
                              cases h
                              exact hleft.trans (makeDirectory_grows hagain)
                          | error e =>
                              simp only [hagain] at h
                              cases h
                              exact hleft
            all_goals
              cases h
              exact Grows.refl tree

/-- Making directories changes no file. -/
theorem makeDirectories_grows {only : Location → Prop} {tree after : FileTree} {path : String}
    {result : Except FileError Unit} (h : tree.makeDirectories path = (result, after)) :
    Grows only tree after :=
  makeDirectoriesFrom_grows _ h

/-! ## Reading and writing files -/

/-- What is read is the file at the location that the path leads to. -/
theorem readBytes_eq_ok {tree : FileTree} {path : String} {content : ByteArray} :
    tree.readBytes path = .ok content ↔
      ∃ l, tree.resolve path = .ok l ∧ tree.at? l = some (.file content) := by
  unfold readBytes
  constructor
  · intro h
    cases hres : tree.resolve path with
    | error e => rw [hres] at h; cases h
    | ok l =>
        rw [hres] at h
        cases hat : tree.at? l with
        | none => simp only [hat] at h; cases h
        | some e =>
            cases e with
            | directory => simp only [hat] at h; cases h
            | file old =>
                simp only [hat, Except.ok.injEq] at h
                exact ⟨l, rfl, by rw [hat, h]⟩
  · rintro ⟨l, hres, hat⟩
    simp only [hres, hat]

/-- Bytes decode to the one text that they encode. -/
theorem fromUTF8?_eq_some {bytes : ByteArray} {text : String} :
    String.fromUTF8? bytes = some text ↔ text.toUTF8 = bytes := by
  unfold String.fromUTF8?
  constructor
  · intro h
    split at h
    · cases h
      rfl
    · cases h
  · rintro rfl
    exact dif_pos text.isValidUTF8

/-- A text that is read is what the bytes of the file encode. -/
theorem readText_eq_ok {tree : FileTree} {path text : String} :
    tree.readText path = .ok text ↔ tree.readBytes path = .ok text.toUTF8 := by
  unfold readText
  constructor
  · intro h
    cases hread : tree.readBytes path with
    | error e => rw [hread] at h; cases h
    | ok content =>
        simp only [hread] at h
        cases htext : String.fromUTF8? content with
        | none => simp only [htext] at h; cases h
        | some found =>
            simp only [htext, Except.ok.injEq] at h
            rw [← h, ← fromUTF8?_eq_some.mp htext]
  · intro h
    simp only [h, fromUTF8?_eq_some.mpr rfl]

/-- A write that succeeds puts the content at the location that the path leads to. -/
theorem writeBytes_eq_ok {tree after : FileTree} {path : String} {content : ByteArray}
    (h : tree.writeBytes path content = .ok after) :
    ∃ l, tree.resolve path = .ok l ∧ tree.at? l ≠ some .directory ∧
      after = tree.insert l (.file content) := by
  unfold writeBytes at h
  cases hres : tree.resolve path with
  | error e => rw [hres] at h; cases h
  | ok l =>
      rw [hres] at h
      refine ⟨l, rfl, ?_⟩
      cases hat : tree.at? l with
      | none =>
          simp only [hat, Except.ok.injEq] at h
          exact ⟨nofun, h.symm⟩
      | some e =>
          cases e with
          | directory => simp only [hat] at h; cases h
          | file old =>
              simp only [hat, Except.ok.injEq] at h
              exact ⟨nofun, h.symm⟩

end FileTree

open FileTree

namespace GeneratedFile

variable {file : GeneratedFile} {tree after : FileTree}

/-- Preparing the directory of a file changes no file. -/
theorem prepare_grows {only : Location → Prop} {result : Except WriteError Unit}
    (h : file.prepare tree = (result, after)) : Grows only tree after := by
  unfold prepare at h
  cases hdir : file.directory? with
  | none =>
      rw [hdir] at h
      cases h
      exact Grows.refl tree
  | some directory =>
      rw [hdir] at h
      cases hmake : tree.makeDirectories directory with
      | mk found left =>
          have hleft : Grows only tree left := makeDirectories_grows hmake
          simp only [hmake] at h
          cases found with
          | error e => cases h; exact hleft
          | ok u => cases h; exact hleft

/-- A file is written at one location, which then holds its content. -/
structure WrittenAt (file : GeneratedFile) (tree after : FileTree) (l : Location) : Prop where
  leads : after.resolve file.path = .ok l
  holds : after.at? l = some (.file file.content.toUTF8)
  grows : Grows (· = l) tree after

/-- What a write leaves behind: after a failure every file is as before, and otherwise one file
    was written. -/
def WriteEffect (file : GeneratedFile) (tree after : FileTree) :
    Except WriteError WriteStatus → Prop
  | .error _ => Grows (fun _ => False) tree after
  | .ok _ => ∃ l, WrittenAt file tree after l

/-- Writing over what is there. -/
theorem overwrite_effect {result : Except WriteError WriteStatus}
    (h : file.overwrite tree = (result, after)) : WriteEffect file tree after result := by
  unfold overwrite at h
  cases hprep : file.prepare tree with
  | mk made left =>
      simp only [hprep] at h
      cases made with
      | error e =>
          cases h
          exact prepare_grows hprep
      | ok u =>
          cases hwrite : left.writeBytes file.path file.content.toUTF8 with
          | error e =>
              simp only [hwrite] at h
              cases h
              exact prepare_grows hprep
          | ok last =>
              simp only [hwrite] at h
              cases h
              obtain ⟨l, hres, hdir, rfl⟩ := writeBytes_eq_ok hwrite
              have hgrow := insert_file_grows file.content.toUTF8 hdir
              have hroot : l ≠ [] := by rintro rfl; exact hdir rfl
              exact ⟨l, hgrow.resolve hres, at?_insert_self left hroot _,
                (prepare_grows hprep).trans hgrow⟩

/-- **Writing changes one file.** After a success the path leads to the content; after a failure
    every file is as before. -/
theorem write_effect {result : Except WriteError WriteStatus}
    (h : file.write tree = (result, after)) : WriteEffect file tree after result := by
  unfold write at h
  cases hread : tree.readText file.path with
  | error e =>
      rw [hread] at h
      exact overwrite_effect h
  | ok existing =>
      rw [hread] at h
      by_cases hsame : (existing == file.content) = true
      · simp only [hsame, if_true] at h
        cases h
        rw [eq_of_beq hsame] at hread
        obtain ⟨l, hres, hat⟩ := readBytes_eq_ok.mp (readText_eq_ok.mp hread)
        exact ⟨l, hres, hat, Grows.refl tree⟩
      · simp only [hsame] at h
        exact overwrite_effect h

end GeneratedFile

end FluentBuilder

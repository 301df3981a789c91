import FluentBuilder.Proofs.Resolve

/-!
# Writing — what one write of a file does

A file is compared, its directories are made and it is written. Each of these steps keeps what other
paths name, and a path that can be written leads through directories only.

* **`place_above`** — the directories above a path that leads somewhere are there, by induction on
  the way up.
* **`write_eq_unchanged_iff`** — a write that changes nothing finds the content there.
* **`write_again`** — behind a write that did not fail, another one changes nothing.
* **`write_result`** — all results of a write with what they say about the file tree.
-/

namespace FluentBuilder

open FluentBuilder.Path

/-! ## The directories above a path -/

/-- The directories above a path, each of them the parent of the one before. -/
inductive Path.Above (path : String) : String → Prop where
  | parent {directory : String} (h : parent? path = some directory) : Above path directory
  | further {directory upper : String} (h : Above path directory)
      (hupper : parent? directory = some upper) : Above path upper

namespace FileTree

variable {tree : FileTree} {path : String} {l : Location}

/-- **The directories above a path that leads somewhere** are there. -/
theorem place_above (hres : tree.resolve path = .ok l) {directory : String}
    (h : Above path directory) :
    ∃ d, tree.place directory = .ok d ∧ tree.at? d = some .directory := by
  induction h with
  | parent h => exact place_parent hres h
  | @further directory upper _ hupper ih =>
      obtain ⟨d, hplace, -⟩ := ih
      have hne : directory ≠ "" := by
        rintro rfl
        cases hupper
      rw [place, if_neg (by simpa using hne)] at hplace
      exact place_parent hplace hupper

/-- What stands at a location stays, or a directory was made there. -/
def Keeps (before after : FileTree) (l : Location) : Prop :=
  after.at? l = before.at? l ∨ before.at? l = none ∧ after.at? l = some .directory

/-- A tree that grows keeps what stands at other locations than those that are written. -/
theorem Grows.keeps {only : Location → Prop} {before after : FileTree}
    (h : Grows only before after) {l : Location} (hl : ¬ only l) : Keeps before after l :=
  (h.entry l).imp_right fun hrest => hrest.resolve_right fun ⟨honly, _⟩ => hl honly

end FileTree

namespace GeneratedFile

open FileTree

variable {file : GeneratedFile} {tree after : FileTree}

/-! ## One write and the next -/

/-- A file that is written over another one is written. -/
theorem overwrite_ne_unchanged : (file.overwrite tree).1 ≠ .ok .unchanged := by
  unfold overwrite
  cases file.prepare tree with
  | mk made left =>
      cases made with
      | error e => exact nofun
      | ok u =>
          dsimp only
          cases left.writeBytes file.path file.content.toUTF8 <;> exact nofun

/-- **Which writes change nothing**: those that find the content at the path. -/
theorem write_eq_unchanged_iff :
    (file.write tree).1 = .ok .unchanged ↔
      tree.readBytes file.path = .ok file.content.toUTF8 := by
  constructor
  · intro h
    rw [← readText_eq_ok]
    unfold write at h
    cases hread : tree.readText file.path with
    | error e =>
        rw [hread] at h
        exact absurd h overwrite_ne_unchanged
    | ok existing =>
        rw [hread] at h
        dsimp only at h
        split at h
        case isTrue hsame => rw [eq_of_beq hsame]
        case isFalse => exact absurd h overwrite_ne_unchanged
  · intro h
    obtain ⟨l, hres, hat⟩ := readBytes_eq_ok.mp h
    rw [write_same hres hat]

/-- A write that finds the content leaves the tree as it is. -/
theorem write_of_readBytes (h : tree.readBytes file.path = .ok file.content.toUTF8) :
    file.write tree = (.ok .unchanged, tree) := by
  obtain ⟨l, hres, hat⟩ := readBytes_eq_ok.mp h
  exact write_same hres hat

/-- Behind a write that did not fail, the path holds the content. -/
theorem WrittenAt.readBytes {l : Location} (h : WrittenAt file tree after l) :
    after.readBytes file.path = .ok file.content.toUTF8 :=
  readBytes_eq_ok.mpr ⟨l, h.leads, h.holds⟩

/-- **Behind a write that did not fail**, another one changes nothing. -/
theorem write_again {status : WriteStatus} (h : file.write tree = (.ok status, after)) :
    file.write after = (.ok .unchanged, after) := by
  obtain ⟨l, hwritten⟩ := write_effect h
  exact write_of_readBytes hwritten.readBytes

/-- **The results of a write.** It changes nothing if and only if the path holds the content already,
byte by byte. When it has written, the path holds the content, everything else has stayed but for
directories that were made, and all directories above the path are there. When it has failed,
everything has stayed but for directories that were made. Unless it failed, another write changes
nothing. -/
theorem write_result (file : GeneratedFile) (tree : FileTree) :
    let result := (file.write tree).1
    let after := (file.write tree).2
    (result = .ok .unchanged ↔ tree.readBytes file.path = .ok file.content.toUTF8) ∧
    (result = .ok .unchanged → after = tree) ∧
    (result = .ok .written →
      after.readBytes file.path = .ok file.content.toUTF8 ∧
      (∃ l, after.resolve file.path = .ok l ∧ ∀ other ≠ l, Keeps tree after other) ∧
      ∀ directory, Above file.path directory →
        ∃ d, after.place directory = .ok d ∧ after.at? d = some .directory) ∧
    (∀ e, result = .error e → ∀ l, Keeps tree after l) ∧
    ∀ status, result = .ok status → file.write after = (.ok .unchanged, after) := by
  intro result after
  have hwrite : file.write tree = (result, after) := rfl
  refine ⟨write_eq_unchanged_iff, fun hresult => ?_, fun hresult => ?_, fun e hresult l => ?_,
    fun status hresult => ?_⟩
  · have hsame := write_of_readBytes (write_eq_unchanged_iff.mp hresult)
    exact congrArg Prod.snd hsame
  · rw [hresult] at hwrite
    obtain ⟨l, hwritten⟩ := write_effect hwrite
    exact ⟨hwritten.readBytes, ⟨l, hwritten.leads, fun other hother => hwritten.grows.keeps hother⟩,
      fun directory => place_above hwritten.leads⟩
  · rw [hresult] at hwrite
    exact (write_effect hwrite).keeps fun hnone => hnone
  · rw [hresult] at hwrite
    exact write_again hwrite

/-- A directory with a file in the working directory. -/
def mixedTree : FileTree :=
  ⟨[], [(["d".toList], .directory), (["f".toList], .file "x".toUTF8)]⟩

/-- `write_result` for a file with a directory that is missing, and for one with a file in the place
of a directory. -/
theorem write_result_nested :
    let file : GeneratedFile := ⟨"d/e//a.go", "x"⟩
    let after := (file.write mixedTree).2
    let misplaced : GeneratedFile := ⟨"f/e/a.go", "x"⟩
    (file.write mixedTree).1 = .ok .written ∧ after.readBytes "d/e//a.go" = .ok "x".toUTF8 ∧
      (∃ d, after.place "d/e" = .ok d ∧ after.at? d = some .directory) ∧
      file.write after = (.ok .unchanged, after) ∧
      (misplaced.write mixedTree).1 = .error (.directory "f/e" .notDirectory) ∧
      ∀ l, Keeps mixedTree (misplaced.write mixedTree).2 l := by
  intro file after misplaced
  have hresult : (file.write mixedTree).1 = .ok .written := by decide +kernel
  have hfailed : (misplaced.write mixedTree).1 = .error (.directory "f/e" .notDirectory) := by
    decide +kernel
  obtain ⟨-, -, hwritten, -, hagain⟩ := write_result file mixedTree
  obtain ⟨-, -, -, hkept, -⟩ := write_result misplaced mixedTree
  obtain ⟨hread, -, habove⟩ := hwritten hresult
  exact ⟨hresult, hread, habove "d/e" (.parent (by decide)), hagain _ hresult, hfailed,
    hkept _ hfailed⟩

end GeneratedFile

end FluentBuilder

import FluentBuilder.Proofs.Casing
import FluentBuilder.Proofs.Components
import FluentBuilder.Target

/-!
# Output paths — where a builder is written

Lowering the case of a name makes no slash, so the output for a name without slashes is a file in
the directory of its source.

* **`snakeCase_noSlash`** — the snake case of a name has slashes only where the name has them.
* **`outputPath_beside`** — an output has the parent of its source and the name of its struct.
* **`resolve_outputPath`** — the output path of a target leads somewhere if its source is there.
-/

namespace FluentBuilder

/-- The snake case of a text has slashes only where the text has them. -/
theorem snakeFrom_noSlash (before : List Char) {cs : List Char} (h : '/' ∉ cs) :
    '/' ∉ snakeFrom before cs := by
  induction cs generalizing before with
  | nil => exact h
  | cons c rest ih =>
      have hc : c ≠ '/' := fun hc => h (hc ▸ .head _)
      have hrest : '/' ∉ rest := fun hrest => h (.tail _ hrest)
      have hmark : '/' ∉ (if beginsWord before c rest then ['_'] else []) := by
        split <;> decide
      have hlower : '/' ∉ Text.lowerChar c := fun hmem =>
        hc ((Text.Unmade.of_lt (by decide) (by decide)).lower hmem).symm
      simp only [snakeFrom, List.mem_append, not_or]
      exact ⟨⟨hmark, hlower⟩, ih (c :: before) hrest⟩

/-- The snake case of a name has slashes only where the name has them. -/
theorem snakeCase_noSlash {name : String} (h : '/' ∉ name.toList) :
    '/' ∉ (snakeCase name).toList := by
  rw [snakeCase, String.toList_ofList]
  exact snakeFrom_noSlash [] h

namespace Target

open FileTree FluentBuilder.Path

/-- The name of an output is the name of one file. -/
theorem outputName_fileName {name : String} (h : '/' ∉ name.toList) :
    FileName (snakeCase name ++ outputSuffix).toList := by
  have hlength : outputSuffix.toList.length = 11 := rfl
  have hlong : 11 ≤ (snakeCase name ++ outputSuffix).toList.length := by
    rw [String.toList_append, List.length_append, hlength]
    omega
  refine ⟨?_, ?_, ?_⟩
  · rw [String.toList_append, List.mem_append, not_or]
    exact ⟨snakeCase_noSlash h, by decide⟩
  · simp only [isName, Bool.and_eq_true, bne_iff_ne]
    constructor <;> (intro heq; rw [heq] at hlong; simp at hlong)
  · intro heq
    rw [heq] at hlong
    simp at hlong

/-- An output has the components of its source but for the last name. -/
theorem components_outputPath {target : Target} (hnames : (components target.path).names ≠ [])
    (hname : '/' ∉ target.name.toList) :
    components target.outputPath = { components target.path with
      names := (components target.path).names.dropLast ++
        [(snakeCase target.name ++ outputSuffix).toList] } := by
  obtain ⟨directory, hparent, hdirectory⟩ := components_parent? hnames
  rw [outputPath, hparent, Option.getD_some, components_join (outputName_fileName hname),
    hdirectory]

/-- **An output stands beside its source**: its parent is that of the source, component by
    component, and it is named after the struct. -/
theorem outputPath_beside {target : Target} (hnames : (components target.path).names ≠ [])
    (hname : '/' ∉ target.name.toList) :
    (∃ directory directory', parent? target.outputPath = some directory ∧
      parent? target.path = some directory' ∧ same directory directory' = true) ∧
    fileName? target.outputPath = some (snakeCase target.name ++ outputSuffix) := by
  have houtput := components_outputPath hnames hname
  have hfile := outputName_fileName hname
  constructor
  · have hnames' : (components target.outputPath).names ≠ [] := by simp [houtput]
    obtain ⟨directory, hparent, hdirectory⟩ := components_parent? hnames'
    obtain ⟨directory', hparent', hdirectory'⟩ := components_parent? hnames
    refine ⟨directory, directory', hparent, hparent', same_iff.mpr ?_⟩
    rw [hdirectory, hdirectory', houtput, List.dropLast_concat]
  · have habove : ((snakeCase target.name ++ outputSuffix).toList != ['.', '.']) = true :=
      bne_iff_ne.mpr hfile.notAbove
    rw [fileName?, houtput, List.getLast?_concat]
    simp only [Option.filter, habove, if_true, Option.map_some, String.ofList_toList]

/-- The output of a source that stands in a directory leads into this directory. -/
theorem resolve_of_standsIn {tree : FileTree} {target : Target} {d : Location}
    (h : tree.StandsIn target.path d) (hname : '/' ∉ target.name.toList) :
    tree.resolve target.outputPath = .ok (d ++ [(snakeCase target.name ++ outputSuffix).toList]) :=
  h.resolve_sibling (outputName_fileName hname) (endsInName_join (outputName_fileName hname))
    (components_outputPath h.named hname)

/-- **The output path leads somewhere** if the source can be read. -/
theorem resolve_outputPath {tree : FileTree} {target : Target} {content : ByteArray}
    (hread : tree.readBytes target.path = .ok content) (hname : '/' ∉ target.name.toList) :
    ∃ l, tree.resolve target.outputPath = .ok l := by
  obtain ⟨d, hstands⟩ := standsIn_of_readBytes hread
  exact ⟨_, resolve_of_standsIn hstands hname⟩

end Target

end FluentBuilder

import FluentBuilder.Batch
import FluentBuilder.Proofs.Resolve

/-!
# Serving — one target after the other

A target is served in two parts: its file is built from what the cache finds at its path, and a
file that was built is delivered. A run serves its first target and then the others, and the step
at any position of a run begins in the state behind the targets in front of it.

* **`generateOne_cases`** — what serving one target can come to.
* **`deliver_cases`** — what delivering a file can come to where its path leads somewhere.
* **`generateFrom_step`** — the step at a position of a run.
-/

namespace FluentBuilder.Batch

open FileTree GeneratedFile

/-! ## One target -/

/-- The file that is built for a target from what was found at its path. -/
def built (found : Except SourceError Go.SourceFile) (target : Target) :
    Except Failure GeneratedFile :=
  match found with
  | .error e => .error (.source e)
  | .ok source => builderFile source target

section

variable {dryRun : Bool} {before after : State} {target : Target} {outcome : Outcome}
  {found : Except SourceError Go.SourceFile} {file : GeneratedFile} {tree left : FileTree}

/-- The file with the builder for a target stands at its output path and holds its text. -/
theorem builderFile_eq_ok {source : Go.SourceFile} (h : builderFile source target = .ok file) :
    file.path = target.outputPath ∧ source.generate target.name = .ok file.content := by
  unfold builderFile at h
  cases hgen : source.generate target.name with
  | error e => rw [hgen] at h; cases h
  | ok text => rw [hgen] at h; cases h; exact ⟨rfl, rfl⟩

/-- A file is only built from a source file. -/
theorem built_eq_ok (h : built found target = .ok file) :
    ∃ source, found = .ok source ∧ file.path = target.outputPath ∧
      source.generate target.name = .ok file.content := by
  cases found with
  | error e => cases h
  | ok source => exact ⟨source, rfl, builderFile_eq_ok h⟩

/-- What is left of building a file when errors are forgotten. -/
theorem built_toOption (found : Except SourceError Go.SourceFile) (target : Target) :
    (built found target).toOption =
      found.toOption.bind fun source => (builderFile source target).toOption := by
  cases found <;> rfl

/-- **What serving one target can come to**: a source file is looked for, and either nothing is
    built from it and the files stay as they are, or what is built is delivered. -/
theorem generateOne_cases (h : generateOne dryRun before target = (outcome, after)) :
    ∃ found, before.cache.get before.tree target.path = (found, after.cache) ∧
      ((∃ cause, built found target = .error cause ∧ outcome = .failed cause ∧
          after.tree = before.tree) ∨
        ∃ file, built found target = .ok file ∧
          deliver dryRun file before.tree = (outcome, after.tree)) := by
  unfold generateOne at h
  cases hget : before.cache.get before.tree target.path with
  | mk found cache =>
      simp only [hget] at h
      cases found with
      | error e =>
          cases h
          exact ⟨.error e, rfl, .inl ⟨.source e, rfl, rfl, rfl⟩⟩
      | ok source =>
          cases hfile : builderFile source target with
          | error e =>
              simp only [hfile] at h
              cases h
              exact ⟨.ok source, rfl, .inl ⟨e, hfile, rfl, rfl⟩⟩
          | ok file =>
              simp only [hfile] at h
              cases h
              exact ⟨.ok source, rfl, .inr ⟨file, hfile, rfl⟩⟩

/-- **What delivering a file can come to** where its path leads somewhere: a directory is in its
    way, it is there already, or it is put there. -/
theorem deliver_cases {l : Location} (hres : tree.resolve file.path = .ok l)
    (h : deliver false file tree = (outcome, left)) :
    (tree.at? l = some .directory ∧ left = tree ∧ ∃ cause, outcome = .failed (.write cause)) ∨
      (tree.at? l = some (.file file.content.toUTF8) ∧ left = tree ∧
        outcome = .written file.path .unchanged) ∨
      (tree.at? l ≠ some .directory ∧ tree.at? l ≠ some (.file file.content.toUTF8) ∧
        left = tree.insert l (.file file.content.toUTF8) ∧
        outcome = .written file.path .written) := by
  simp only [deliver, Bool.false_eq_true, if_false] at h
  by_cases hdir : tree.at? l = some .directory
  · rw [write_directory hres hdir] at h
    cases h
    exact .inl ⟨hdir, rfl, _, rfl⟩
  · by_cases hsame : tree.at? l = some (.file file.content.toUTF8)
    · rw [write_same hres hsame] at h
      cases h
      exact .inr (.inl ⟨hsame, rfl, rfl⟩)
    · rw [write_other hres hdir hsame] at h
      cases h
      exact .inr (.inr ⟨hdir, hsame, rfl, rfl⟩)

end

/-! ## Several targets -/

section

variable {dryRun : Bool} {before last : State} {targets : List Target} {target : Target}
  {outcomes : List Outcome}

/-- A run is its first step followed by the run over the rest. -/
theorem generateFrom_cons
    (h : generateFrom dryRun before (target :: targets) = (outcomes, last)) :
    ∃ outcome mid rest, generateOne dryRun before target = (outcome, mid) ∧
      generateFrom dryRun mid targets = (rest, last) ∧ outcomes = outcome :: rest := by
  simp only [generateFrom] at h
  cases hone : generateOne dryRun before target with
  | mk outcome mid =>
      cases hrest : generateFrom dryRun mid targets with
      | mk rest last' =>
          simp only [hone, hrest] at h
          cases h
          exact ⟨outcome, mid, rest, rfl, hrest, rfl⟩

/-- **The step at a position of a run** begins in the state behind the targets in front of it and
    gives the outcome at this position. -/
theorem generateFrom_step (dryRun : Bool) (before : State) {i : Nat}
    (hi : targets[i]? = some target) :
    ∃ outcome, (generateFrom dryRun before targets).1[i]? = some outcome ∧
      generateOne dryRun (generateFrom dryRun before (targets.take i)).2 target =
        (outcome, (generateFrom dryRun before (targets.take (i + 1))).2) := by
  induction targets generalizing before i with
  | nil => cases hi
  | cons first targets ih =>
      cases i with
      | zero =>
          cases hi
          exact ⟨_, rfl, rfl⟩
      | succ i => exact ih (generateOne dryRun before first).2 hi

end

end FluentBuilder.Batch

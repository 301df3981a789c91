import FluentBuilder.Proofs.Delivery
import FluentBuilder.Proofs.OutputPath
import FluentBuilder.Proofs.Reached
import FluentBuilder.Proofs.Rewriting

/-!
# Footprint — which files a run touches

An output belongs into the directory of its source, and a source that was read stands in one. So
the directory that an output needs is there, also for a source that the cache found under another
spelling, and a run makes no directories: it touches the files that it reports as written, and
nothing else.

* **`Anchored.get`** — the invariant: what a cache holds was read in a directory that is there.
* **`generateOne_footprint`** — the step lemma.
* **`generateFrom_footprint`** — the run lemma.
* **`run_footprint`** — the files that a run touches, and where they stand.
-/

namespace FluentBuilder.Batch

open FileTree GeneratedFile FluentBuilder.Path

/-! ## What a cache holds -/

/-- A source file that was read from a path in a directory that is there. -/
structure ReadIn (tree : FileTree) (path : String) (source : Go.SourceFile) : Prop where
  parsed : ∃ name text, Go.SourceFile.parse name text = .ok source
  stands : ∃ d, tree.StandsIn path d

/-- Every source file that the cache of a state holds was read in a directory that is there. -/
def Anchored (state : State) : Prop :=
  ∀ path source, state.cache.find? path = some (some source) → ReadIn state.tree path source

variable {before after last : State} {tree : FileTree} {cache : SourceCache}

/-- A source file that can be read stands in a directory. -/
theorem readIn_of_readSource {path : String} {source : Go.SourceFile}
    (h : readSource tree path = .ok source) : ReadIn tree path source := by
  have hread := readSource_toOption tree path
  rw [h] at hread
  obtain ⟨text, htext, hparse⟩ := Option.bind_eq_some_iff.mp hread.symm
  exact ⟨⟨path, text, toOption_eq_some.mp hparse⟩,
    standsIn_of_readBytes (readText_eq_ok.mp (toOption_eq_some.mp htext))⟩

/-- Nothing is held at first. -/
theorem Anchored.initial (tree : FileTree) : Anchored ⟨{}, tree⟩ := nofun

/-- **A use of a path keeps the cache anchored**, for every spelling of the path. -/
theorem Anchored.get (inv : Anchored before) {path : String}
    {found : Except SourceError Go.SourceFile}
    (hget : before.cache.get before.tree path = (found, cache)) :
    Anchored ⟨cache, before.tree⟩ := by
  cases hknown : before.cache.find? path with
  | some known =>
      obtain ⟨-, rfl⟩ := SourceCache.get_of_known hknown hget
      exact inv
  | none =>
      obtain ⟨hfound, rfl⟩ := SourceCache.get_of_new hknown hget
      intro path' source hfind
      rw [SourceCache.find?_append] at hfind
      rcases Option.or_eq_some_iff.mp hfind with hold | ⟨-, hnew⟩
      · exact inv path' source hold
      · split at hnew
        case isTrue hsame =>
          have hread : found = .ok source := toOption_eq_some.mp (Option.some.inj hnew)
          obtain ⟨hparsed, d, hstands⟩ := readIn_of_readSource (hfound ▸ hread)
          exact ⟨hparsed, d, hstands.congr hsame⟩
        case isFalse => cases hnew

/-- The directories of what a cache holds stay while a tree grows. -/
theorem Anchored.grows {only : Location → Prop} {left : FileTree}
    (inv : Anchored ⟨cache, tree⟩) (h : Grows only tree left) : Anchored ⟨cache, left⟩ := by
  intro path source hfind
  obtain ⟨hparsed, d, hstands⟩ := inv path source hfind
  exact ⟨hparsed, d, hstands.grows h⟩

/-! ## One target -/

/-- A target whose source stands in a directory and whose struct can name a file in it. -/
structure Placed (tree : FileTree) (target : Target) : Prop where
  stands : ∃ d, tree.StandsIn target.path d
  named : '/' ∉ target.name.toList

/-- The output of a target that is placed leads somewhere. -/
theorem Placed.resolve {target : Target} (h : Placed tree target) :
    ∃ l, tree.resolve target.outputPath = .ok l := by
  obtain ⟨d, hstands⟩ := h.stands
  exact ⟨_, Target.resolve_of_standsIn hstands h.named⟩

/-- A target is placed if a file was built for it. -/
theorem Anchored.placed (inv : Anchored before) {target : Target} {file : GeneratedFile}
    {found : Except SourceError Go.SourceFile}
    (hget : before.cache.get before.tree target.path = (found, cache))
    (hbuilt : built found target = .ok file) : Placed before.tree target := by
  obtain ⟨source, rfl, -, hgen⟩ := built_eq_ok hbuilt
  obtain ⟨⟨name, text, hparse⟩, hstands⟩ :=
    inv.get hget target.path source (SourceCache.get_find? hget)
  exact ⟨hstands, (Go.SourceFile.isWord_of_generate hparse hgen).noSlash⟩

/-- What serving a target does to the files: it leaves them as they are, unless it reports its
    output as written; then it puts the output beside its source. -/
inductive Footprint (before after : FileTree) (target : Target) : Outcome → Prop
  | failed (cause : Failure) (hkept : after = before) :
      Footprint before after target (.failed cause)
  | preview (file : GeneratedFile) (hkept : after = before) :
      Footprint before after target (.preview file)
  | unchanged (hplaced : Placed before target) (hkept : after = before) :
      Footprint before after target (.written target.outputPath .unchanged)
  | written (l : Location) (content : ByteArray) (hplaced : Placed before target)
      (hres : before.resolve target.outputPath = .ok l) (hat : before.at? l ≠ some .directory)
      (hput : after = before.insert l (.file content)) :
      Footprint before after target (.written target.outputPath .written)

/-- **The step lemma.** A target that is served leaves the cache anchored, and the files as its
    outcome says. -/
theorem generateOne_footprint (inv : Anchored before) {dryRun : Bool} {target : Target}
    {outcome : Outcome} (h : generateOne dryRun before target = (outcome, after)) :
    Anchored after ∧ Footprint before.tree after.tree target outcome := by
  obtain ⟨found, hget, hcases⟩ := generateOne_cases h
  have hinv : Anchored ⟨after.cache, before.tree⟩ := inv.get hget
  have hstill : after.tree = before.tree → Anchored after := by
    intro htree
    rw [← htree] at hinv
    exact hinv
  rcases hcases with ⟨cause, -, rfl, htree⟩ | ⟨file, hbuilt, hdeliver⟩
  · exact ⟨hstill htree, .failed cause htree⟩
  · have hplaced := inv.placed hget hbuilt
    obtain ⟨-, -, hpath, -⟩ := built_eq_ok hbuilt
    cases dryRun with
    | true =>
        obtain ⟨rfl, htree⟩ := Prod.mk.inj hdeliver
        exact ⟨hstill htree.symm, .preview file htree.symm⟩
    | false =>
        obtain ⟨l, hres⟩ := hplaced.resolve
        rcases deliver_cases (hpath.symm ▸ hres) hdeliver with
          ⟨-, htree, cause, rfl⟩ | ⟨-, htree, rfl⟩ | ⟨hdir, -, htree, rfl⟩
        · exact ⟨hstill htree, .failed _ htree⟩
        · rw [hpath]
          exact ⟨hstill htree, .unchanged hplaced htree⟩
        · have hput : Grows (· = l) before.tree after.tree := htree ▸ insert_file_grows _ hdir
          rw [hpath]
          exact ⟨hinv.grows hput, .written l _ hplaced hres hdir htree⟩

/-- The files that change while a target is served are those at its reported output. -/
theorem Footprint.rewrites {before after : FileTree} {target : Target} {outcome : Outcome}
    (h : Footprint before after target outcome) :
    Rewrites (fun l => outcome = .written target.outputPath .written ∧
      before.resolve target.outputPath = .ok l) before after := by
  cases h with
  | failed cause hkept => exact hkept ▸ Rewrites.refl _
  | preview file hkept => exact hkept ▸ Rewrites.refl _
  | unchanged hplaced hkept => exact hkept ▸ Rewrites.refl _
  | written l content hplaced hres hat hput =>
      rw [hput]
      exact (insert_file_rewrites content hat).mono fun l' hl' => ⟨rfl, hl' ▸ hres⟩

/-! ## Several targets -/

/-- A location where the output of some target belongs whose outcome reports it as written. -/
def WroteTo (tree : FileTree) (targets : List Target) (outcomes : List Outcome) (l : Location) :
    Prop :=
  ∃ (i : Nat) (target : Target), targets[i]? = some target ∧
    outcomes[i]? = some (.written target.outputPath .written) ∧
    tree.resolve target.outputPath = .ok l

/-- **The run lemma.** A run leaves the cache anchored and touches only files that it reports as
    written. -/
theorem generateFrom_footprint {dryRun : Bool} {targets : List Target} {outcomes : List Outcome}
    (inv : Anchored before) (h : generateFrom dryRun before targets = (outcomes, last)) :
    Anchored last ∧ Rewrites (WroteTo before.tree targets outcomes) before.tree last.tree := by
  induction targets generalizing before outcomes with
  | nil =>
      cases h
      exact ⟨inv, Rewrites.refl _⟩
  | cons target targets ih =>
      obtain ⟨outcome, mid, rest, hone, hrest, rfl⟩ := generateFrom_cons h
      obtain ⟨hmid, hfootprint⟩ := generateOne_footprint inv hone
      obtain ⟨hlast, hrewrites⟩ := ih hmid hrest
      have hfirst := hfootprint.rewrites
      refine ⟨hlast, (hfirst.mono ?_).trans (hrewrites.mono ?_)⟩
      · rintro l ⟨hwritten, hres⟩
        exact ⟨0, target, rfl, congrArg some hwritten, hres⟩
      · -- paths lead where they led before the first target was served
        rintro l ⟨i, later, hi, hwritten, hres⟩
        exact ⟨i + 1, later, hi, hwritten, hfirst.resolve_iff.mp hres⟩

/-! ## Whole runs -/

/-- The state of a run behind its first targets. -/
def stateBehind (dryRun : Bool) (tree : FileTree) (targets : List Target) (n : Nat) : State :=
  finalState dryRun tree (targets.take n)

/-- The cache is anchored behind the first targets of a run. -/
theorem stateBehind_anchored (dryRun : Bool) (tree : FileTree) (targets : List Target) (n : Nat) :
    Anchored (stateBehind dryRun tree targets n) := by
  have h := generateFrom_footprint (Anchored.initial tree)
    (generateFrom_empty dryRun tree (targets.take n))
  exact h.1

/-- The step at a position of a whole run. -/
theorem generate_step (dryRun : Bool) (tree : FileTree) {targets : List Target} {i : Nat}
    {target : Target} (hi : targets[i]? = some target) :
    ∃ outcome, (generate dryRun tree targets).1[i]? = some outcome ∧
      generateOne dryRun (stateBehind dryRun tree targets i) target =
        (outcome, stateBehind dryRun tree targets (i + 1)) :=
  generateFrom_step dryRun ⟨{}, tree⟩ hi

/-- Every outcome of a run is that of a target, with its footprint. -/
theorem footprint_of_outcome {dryRun : Bool} {tree : FileTree} {targets : List Target} {i : Nat}
    {outcome : Outcome} (ho : (generate dryRun tree targets).1[i]? = some outcome) :
    ∃ target, targets[i]? = some target ∧
      Footprint (stateBehind dryRun tree targets i).tree
        (stateBehind dryRun tree targets (i + 1)).tree target outcome := by
  have hlength := (generateFrom_grows (generateFrom_empty dryRun tree targets)).1
  have hlt : i < targets.length := hlength ▸ (List.getElem?_eq_some_iff.mp ho).1
  have hi : targets[i]? = some targets[i] := List.getElem?_eq_getElem hlt
  obtain ⟨outcome', ho', hone⟩ := generate_step dryRun tree hi
  cases ho.symm.trans ho'
  have inv := stateBehind_anchored dryRun tree targets i
  exact ⟨_, hi, (generateOne_footprint inv hone).2⟩

/-- A directory with a source file in a directory below it. -/
def nestedTree : FileTree :=
  ⟨[], [(["d".toList], .directory),
    (["d".toList, "a.go".toList], .file "package p;type A struct\x7b\x7d;".toUTF8)]⟩

/-- **The footprint of a run.** What is new or changed behind a run is a file at the output path
    of some target whose outcome reports this path as written, and no directory is made. Every
    path that an outcome reports is the output path of its target; it has the parent of the source
    and is named after the struct. A target that fails, for whatever cause, changes nothing. -/
theorem run_footprint (dryRun : Bool) (tree : FileTree) (targets : List Target) :
    (∀ l, (generate dryRun tree targets).2.at? l = tree.at? l ∨
      (WroteTo tree targets (generate dryRun tree targets).1 l ∧
        ∃ content, (generate dryRun tree targets).2.at? l = some (.file content))) ∧
    (∀ l, (generate dryRun tree targets).2.at? l = some .directory ↔
      tree.at? l = some .directory) ∧
    (∀ (i : Nat) (path : String) (status : WriteStatus),
      (generate dryRun tree targets).1[i]? = some (.written path status) →
      ∃ (target : Target) (directory directory' : String),
        targets[i]? = some target ∧ path = target.outputPath ∧
        parent? path = some directory ∧ parent? target.path = some directory' ∧
        same directory directory' = true ∧
        fileName? path = some (snakeCase target.name ++ "_builder.go")) ∧
    ∀ (i : Nat) (cause : Failure),
      (generate dryRun tree targets).1[i]? = some (.failed cause) →
      (stateBehind dryRun tree targets (i + 1)).tree =
        (stateBehind dryRun tree targets i).tree := by
  obtain ⟨-, hrewrites⟩ :=
    generateFrom_footprint (Anchored.initial tree) (generateFrom_empty dryRun tree targets)
  rw [generate_tree]
  refine ⟨fun l => ?_, fun l => hrewrites.directory_iff l, ?_, ?_⟩
  · exact (hrewrites.entry l).imp_right fun ⟨hwrote, _, hfile⟩ => ⟨hwrote, hfile⟩
  · intro i path status ho
    obtain ⟨target, hi, hfootprint⟩ := footprint_of_outcome ho
    obtain ⟨rfl, d, hstands, hnamed⟩ : path = target.outputPath ∧
        ∃ d, (stateBehind dryRun tree targets i).tree.StandsIn target.path d ∧
          '/' ∉ target.name.toList := by
      cases hfootprint with
      | unchanged hplaced => exact ⟨rfl, hplaced.stands.imp fun d h => ⟨h, hplaced.named⟩⟩
      | written l content hplaced =>
          exact ⟨rfl, hplaced.stands.imp fun d h => ⟨h, hplaced.named⟩⟩
    obtain ⟨⟨directory, directory', hparent, hparent', hsame⟩, hname⟩ :=
      Target.outputPath_beside hstands.named hnamed
    exact ⟨target, directory, directory', hi, rfl, hparent, hparent', hsame, hname⟩
  · intro i cause ho
    obtain ⟨target, -, hfootprint⟩ := footprint_of_outcome ho
    cases hfootprint with
    | failed _ hkept => exact hkept

/-- The hypotheses inside `run_footprint` are met by a run that writes one output below the working
    directory and then fails. -/
theorem run_footprint_nested :
    (generate false nestedTree [⟨"d/a.go", "A"⟩, ⟨"d/a.go", "B"⟩]).1[0]? =
      some (.written "d/a_builder.go" .written) ∧
    (∃ directory directory', parent? "d/a_builder.go" = some directory ∧
      parent? "d/a.go" = some directory' ∧ same directory directory' = true) ∧
    ∃ cause, (generate false nestedTree [⟨"d/a.go", "A"⟩, ⟨"d/a.go", "B"⟩]).1[1]? =
        some (.failed cause) ∧
      (stateBehind false nestedTree [⟨"d/a.go", "A"⟩, ⟨"d/a.go", "B"⟩] 2).tree =
        (stateBehind false nestedTree [⟨"d/a.go", "A"⟩, ⟨"d/a.go", "B"⟩] 1).tree := by
  have hwritten : (generate false nestedTree [⟨"d/a.go", "A"⟩, ⟨"d/a.go", "B"⟩]).1[0]? =
      some (.written "d/a_builder.go" .written) := by decide +kernel
  have hfailed : (generate false nestedTree [⟨"d/a.go", "A"⟩, ⟨"d/a.go", "B"⟩]).1[1]? =
      some (.failed (.generate (.blueprint (.notFound "B")))) := by decide +kernel
  obtain ⟨-, -, hreported, hkept⟩ :=
    run_footprint false nestedTree [⟨"d/a.go", "A"⟩, ⟨"d/a.go", "B"⟩]
  obtain ⟨target, directory, directory', hi, -, hparent, hparent', hsame, -⟩ :=
    hreported 0 _ _ hwritten
  cases hi
  exact ⟨hwritten, ⟨directory, directory', hparent, hparent', hsame⟩, _, hfailed,
    hkept 1 _ hfailed⟩

end FluentBuilder.Batch

import FluentBuilder.Report
import FluentBuilder.Proofs.Isolation
import FluentBuilder.Proofs.Json
import FluentBuilder.Proofs.Transparency

/-!
# Agreement — inspecting targets and a dry run over them

Both ask one cache for the sources of their targets, in the same order and in a tree that stays as
it is. So they find the same at every position, and what they make of it differs only from the
blueprint on: an inspection shows the blueprint, a dry run renders it.

* **`inspectOne_eq`**, **`generateOne_preview`** — the step lemmas: what each makes of what the
  cache finds.
* **`both_find`** — the run lemma: both find the same at each position.
* **`inspect_agrees`** — where an inspection has a blueprint and what the dry run makes of it, and
  where both fail for the same cause.
-/

namespace FluentBuilder

namespace SourceCache

variable {tree : FileTree} {last : SourceCache} {uses : List Use}

/-- What a cache answers behind uses of paths while the files stay as they are. -/
theorem get_behind {paths : List String} (hrun : history {} tree (paths.map .use) = (uses, last))
    (path : String) :
    (last.get tree path).1.toOption = (readSource tree (spellingRead paths path)).toOption := by
  obtain ⟨hlast, hanswers⟩ := history_answers Remembers.empty hrun
  have hpaths : uses.map (·.path) = paths := by
    have := history_paths {} tree (paths.map .use)
    rw [hrun] at this
    rw [this, List.filterMap_map]
    exact List.filterMap_some
  have htree : ∀ use ∈ uses, use.tree = tree := by
    have := history_tree {} tree paths
    rwa [hrun] at this
  simp only [List.nil_append] at hlast hanswers
  cases hget : last.get tree path with
  | mk answer after =>
      rw [hlast.answer_eq hget, ← hpaths]
      refine answerBehind_still (fun before use rest heq => ?_) path
      have := hanswers before use rest heq
      rwa [htree use (by rw [heq]; simp)] at this

end SourceCache

namespace Batch

/-! ## One target -/

/-- The blueprint that is gathered for a target from what was found at its path. -/
def gathered (found : Except SourceError Go.SourceFile) (target : Target) :
    Except Failure Blueprint :=
  match found with
  | .error e => .error (.source e)
  | .ok source =>
    match source.blueprint target.name with
    | .error e => .error (.generate (.blueprint e))
    | .ok blueprint => .ok blueprint

/-- What a dry run makes of a target from what was found at its path. -/
def previewed (found : Except SourceError Go.SourceFile) (target : Target) : Outcome :=
  match built found target with
  | .error cause => .failed cause
  | .ok file => .preview file

/-- Decide whether a target failed because its builder cannot be rendered. -/
def Failure.isConflict : Failure → Bool
  | .generate (.conflict _ _) => true
  | _ => false

section

variable {tree : FileTree} {cache : SourceCache} {target : Target}

/-- An inspection of one target gathers its blueprint from what the cache finds. -/
theorem inspectOne_eq (tree : FileTree) (cache : SourceCache) (target : Target) :
    inspectOne tree cache target =
      (gathered (cache.get tree target.path).1 target, (cache.get tree target.path).2) := by
  unfold inspectOne gathered
  cases cache.get tree target.path with
  | mk found after =>
      cases found with
      | error e => rfl
      | ok source =>
          simp only
          cases source.blueprint target.name <;> rfl

/-- A dry run previews one target from what the cache finds and leaves the files alone. -/
theorem generateOne_preview (tree : FileTree) (cache : SourceCache) (target : Target) :
    generateOne true ⟨cache, tree⟩ target =
      (previewed (cache.get tree target.path).1 target,
        ⟨(cache.get tree target.path).2, tree⟩) := by
  unfold generateOne previewed built
  cases cache.get tree target.path with
  | mk found after =>
      cases found with
      | error e => rfl
      | ok source =>
          simp only
          cases builderFile source target <;> rfl

/-- How what an inspection says about a target goes with what a dry run says about it. -/
inductive Corresponds (target : Target) : Except Failure Blueprint → Outcome → Prop
  | failed (cause : Failure) (h : cause.isConflict = false) :
      Corresponds target (.error cause) (.failed cause)
  | rendered (blueprint : Blueprint) (text : String) (h : blueprint.render = .ok text) :
      Corresponds target (.ok blueprint) (.preview ⟨target.outputPath, text⟩)
  | conflict (blueprint : Blueprint) (clash : Conflict) (h : blueprint.render = .error clash) :
      Corresponds target (.ok blueprint) (.failed (.generate (.conflict blueprint.target clash)))

/-- A blueprint names the struct it was made for. -/
theorem target_of_blueprint {source : Go.SourceFile} {name : String} {blueprint : Blueprint}
    (h : source.blueprint name = .ok blueprint) : blueprint.target = name := by
  unfold Go.SourceFile.blueprint at h
  split at h
  · cases h
  · split at h <;> cases h
    rfl

/-- **Both make the same of what is found**, as far as an inspection goes. -/
theorem gathered_corresponds (found : Except SourceError Go.SourceFile) (target : Target) :
    Corresponds target (gathered found target) (previewed found target) := by
  cases found with
  | error e => exact .failed (.source e) rfl
  | ok source =>
      simp only [gathered, previewed, built, builderFile, Go.SourceFile.generate]
      cases hblueprint : source.blueprint target.name with
      | error e => exact .failed (.generate (.blueprint e)) rfl
      | ok blueprint =>
          simp only
          cases hrender : blueprint.render with
          | ok text => exact .rendered blueprint text hrender
          | error clash =>
              rw [← target_of_blueprint hblueprint]
              exact .conflict blueprint clash hrender

/-- An inspection has a blueprint if and only if one can be made from what was found. -/
theorem gathered_eq_ok {found : Except SourceError Go.SourceFile} {blueprint : Blueprint} :
    gathered found target = .ok blueprint ↔
      ∃ source, found.toOption = some source ∧ source.blueprint target.name = .ok blueprint := by
  cases found with
  | error e => simp [gathered, Except.toOption]
  | ok source =>
      simp only [gathered, Except.toOption, Option.some.injEq, exists_eq_left']
      cases source.blueprint target.name <;> simp

end

/-! ## Several targets -/

/-- The cache behind uses of the paths of targets while the files stay as they are. -/
def cacheBehind (tree : FileTree) (cache : SourceCache) (targets : List Target) : SourceCache :=
  (SourceCache.history cache tree ((targets.map (·.path)).map .use)).2

/-- **The run lemma**: at each position both operations find what the cache answers behind the
    targets in front of it. -/
theorem both_find (tree : FileTree) (cache : SourceCache) {targets : List Target} {i : Nat}
    {target : Target} (hi : targets[i]? = some target) :
    ∃ found, ((cacheBehind tree cache (targets.take i)).get tree target.path).1 = found ∧
      (inspectFrom tree cache targets)[i]? = some (gathered found target) ∧
      (generateFrom true ⟨cache, tree⟩ targets).1[i]? = some (previewed found target) := by
  induction targets generalizing cache i with
  | nil => cases hi
  | cons first targets ih =>
      -- both go on with the cache behind the first target, and with the same files
      simp only [inspectFrom, generateFrom, inspectOne_eq, generateOne_preview]
      cases i with
      | zero =>
          cases hi
          exact ⟨_, rfl, rfl, rfl⟩
      | succ i => exact ih (cache.get tree first.path).2 hi

/-- An inspection says something about every target. -/
theorem inspectFrom_length (tree : FileTree) (cache : SourceCache) (targets : List Target) :
    (inspectFrom tree cache targets).length = targets.length := by
  induction targets generalizing cache with
  | nil => rfl
  | cons target targets ih => exact congrArg (· + 1) (ih _)

/-- What is found at a position of a run is what reading the first spelling of its path gives. -/
theorem found_toOption (tree : FileTree) (targets : List Target) (path : String) :
    ((cacheBehind tree {} targets).get tree path).1.toOption =
      (readSource tree (SourceCache.spellingRead (targets.map (·.path)) path)).toOption :=
  SourceCache.get_behind rfl path

/-- **An inspection and a dry run agree** at every position. The inspection fails there if and only
    if the dry run fails for a cause other than a conflict of names, and then both report this
    cause with its causes below a first line of their own, and say the same of what a parser finds
    in a text that is no source file. The inspection shows the text of a blueprint if and only if
    this is the blueprint for the target in the source file that the first spelling of its path
    holds, and then the dry run previews the text that is rendered for the blueprint, or fails with
    the conflict that keeps it from being rendered. -/
theorem inspect_agrees (tree : FileTree) (targets : List Target) :
    (inspect tree targets).length = targets.length ∧
    (generate true tree targets).1.length = targets.length ∧
    ∀ (i : Nat) (target : Target), targets[i]? = some target →
      ∃ found outcome, (inspect tree targets)[i]? = some found ∧
        (generate true tree targets).1[i]? = some outcome ∧
        (∀ cause, found = .error cause ↔ outcome = .failed cause ∧ cause.isConflict = false) ∧
        (∀ recovery labelled cause, found = .error cause →
          Report.blueprintEvents recovery labelled target found =
              [.error (Report.chainText
                (s!"failed to inspect '{target.display}'" :: cause.chain recovery))] ∧
            Report.failureEvents recovery target outcome =
              [.error (Report.chainText
                (s!"failed to generate builder code for '{target.display}'" ::
                  cause.chain recovery))]) ∧
        (∀ blueprint : Blueprint,
          (∃ shown, found = .ok shown ∧ shown.toJson = blueprint.toJson) ↔
            ∃ source, (readSource tree (SourceCache.spellingRead
                ((targets.take i).map (·.path)) target.path)).toOption = some source ∧
              source.blueprint target.name = .ok blueprint) ∧
        ∀ blueprint, found = .ok blueprint →
          (∃ text, blueprint.render = .ok text ∧
            outcome = .preview ⟨target.outputPath, text⟩) ∨
          ∃ clash, blueprint.render = .error clash ∧
            outcome = .failed (.generate (.conflict blueprint.target clash)) := by
  refine ⟨inspectFrom_length tree {} targets,
    (generateFrom_grows (generateFrom_empty true tree targets)).1, fun i target hi => ?_⟩
  obtain ⟨source, hsource, hfound, houtcome⟩ := both_find tree {} hi
  refine ⟨_, _, hfound, houtcome, ?_⟩
  have hcorresponds := gathered_corresponds source target
  have hshown : ∀ blueprint : Blueprint,
      (∃ shown, gathered source target = .ok shown ∧ shown.toJson = blueprint.toJson) ↔
        ∃ file, (readSource tree (SourceCache.spellingRead
            ((targets.take i).map (·.path)) target.path)).toOption = some file ∧
          file.blueprint target.name = .ok blueprint := by
    intro blueprint
    rw [← found_toOption, hsource, ← gathered_eq_ok]
    constructor
    · rintro ⟨shown, hshown, hjson⟩
      rw [hshown, Blueprint.toJson_injective hjson]
    · intro h
      exact ⟨blueprint, h, rfl⟩
  -- all else is said by how the two results correspond, whatever was found
  generalize gathered source target = found at hcorresponds hshown ⊢
  generalize previewed source target = outcome at hcorresponds ⊢
  cases hcorresponds with
  | failed cause h =>
      refine ⟨fun cause' => ?_, fun _ _ cause' heq => ?_, hshown, nofun⟩
      · constructor
        · rintro ⟨⟩
          exact ⟨rfl, h⟩
        · rintro ⟨⟨⟩, -⟩
          rfl
      · cases heq
        exact ⟨rfl, rfl⟩
  | rendered blueprint text h =>
      refine ⟨fun cause => ⟨nofun, nofun⟩, nofun, hshown, fun blueprint' heq => ?_⟩
      cases heq
      exact .inl ⟨text, h, rfl⟩
  | conflict blueprint clash h =>
      refine ⟨fun cause => ⟨nofun, ?_⟩, nofun, hshown, fun blueprint' heq => ?_⟩
      · rintro ⟨⟨⟩, hcause⟩
        cases hcause
      · cases heq
        exact .inr ⟨clash, h, rfl⟩

/-- The hypotheses inside `inspect_agrees` are met by a run over a source file and, twice, a file
    that is none. -/
theorem inspect_agrees_mixed :
    (∃ text, Blueprint.render ⟨"p", "A", []⟩ = .ok text ∧
      (generate true mixedTree [⟨"a.go", "A"⟩, ⟨"b.go", "B"⟩, ⟨"b.go", "C"⟩]).1[0]? =
        some (.preview ⟨"a_builder.go", text⟩)) ∧
    (inspect mixedTree [⟨"a.go", "A"⟩, ⟨"b.go", "B"⟩, ⟨"b.go", "C"⟩])[2]? =
      some (.error (.source (.skipped "b.go"))) ∧
    (generate true mixedTree [⟨"a.go", "A"⟩, ⟨"b.go", "B"⟩, ⟨"b.go", "C"⟩]).1[2]? =
      some (.failed (.source (.skipped "b.go"))) := by
  have hblueprint : (inspect mixedTree [⟨"a.go", "A"⟩, ⟨"b.go", "B"⟩, ⟨"b.go", "C"⟩])[0]?.map
      (·.toOption) = some (some ⟨"p", "A", []⟩) := by decide +kernel
  have hpreview : (generate true mixedTree
      [⟨"a.go", "A"⟩, ⟨"b.go", "B"⟩, ⟨"b.go", "C"⟩]).1[0]?.map Report.isFailure = some false := by
    decide +kernel
  have hskipped : (generate true mixedTree [⟨"a.go", "A"⟩, ⟨"b.go", "B"⟩, ⟨"b.go", "C"⟩]).1[2]? =
      some (.failed (.source (.skipped "b.go"))) := by decide +kernel
  obtain ⟨-, -, hall⟩ :=
    inspect_agrees mixedTree [⟨"a.go", "A"⟩, ⟨"b.go", "B"⟩, ⟨"b.go", "C"⟩]
  obtain ⟨found, outcome, hfound, houtcome, -, -, -, hrendered⟩ := hall 0 _ rfl
  obtain ⟨found', outcome', hfound', houtcome', hfails, -⟩ := hall 2 _ rfl
  rw [hfound, Option.map_some, Option.some.injEq, toOption_eq_some] at hblueprint
  rw [houtcome, Option.map_some, Option.some.injEq] at hpreview
  have hsame : outcome' = .failed (.source (.skipped "b.go")) :=
    Option.some.inj (houtcome'.symm.trans hskipped)
  have hcause := (hfails (.source (.skipped "b.go"))).mpr ⟨hsame, rfl⟩
  refine ⟨?_, hfound'.trans (congrArg some hcause), hskipped⟩
  rcases hrendered _ hblueprint with ⟨text, htext, rfl⟩ | ⟨clash, -, rfl⟩
  · exact ⟨text, htext, houtcome⟩
  · cases hpreview

end Batch

end FluentBuilder

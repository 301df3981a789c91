import FluentBuilder.Builder
import FluentBuilder.GeneratedFile
import FluentBuilder.SourceCache
import FluentBuilder.Target

/-!
# Batches — builders for several targets in one run

The targets are served one after the other from one source cache, and a target that fails does
not stop the others. `generate` writes the builders, or previews them in a dry run; `inspect`
only gathers their blueprints.
-/

namespace FluentBuilder.Batch

/-- Why a target failed. -/
inductive Failure where
  | source (cause : SourceError)
  | generate (cause : GenerateError)
  | write (cause : WriteError)
  deriving DecidableEq, Repr

/-- What is reported, followed by its causes. -/
def Failure.chain (failure : Failure) (recovery : Option Go.Recovery := none) : List String :=
  match failure with
  | .source cause => cause.chain recovery
  | .generate cause => cause.chain
  | .write cause => [cause.line]

/-- What became of one target. -/
inductive Outcome where
  | written (path : String) (status : WriteStatus)
  | preview (file : GeneratedFile)
  | failed (cause : Failure)
  deriving DecidableEq, Repr

/-- What a run has to remember between two targets. -/
structure State where
  cache : SourceCache
  tree  : FileTree

/-- The file with the builder for a target. -/
def builderFile (source : Go.SourceFile) (target : Target) : Except Failure GeneratedFile :=
  match source.generate target.name with
  | .error e => .error (.generate e)
  | .ok text => .ok ⟨target.outputPath, text⟩

/-- Write the file for a target, or preview it in a dry run. -/
def deliver (dryRun : Bool) (file : GeneratedFile) (tree : FileTree) : Outcome × FileTree :=
  if dryRun then (.preview file, tree)
  else match file.write tree with
    | (.ok status, after) => (.written file.path status, after)
    | (.error e, after) => (.failed (.write e), after)

/-- Serve one target. -/
def generateOne (dryRun : Bool) (state : State) (target : Target) : Outcome × State :=
  let (found, cache) := state.cache.get state.tree target.path
  match found with
  | .error e => (.failed (.source e), ⟨cache, state.tree⟩)
  | .ok source =>
    match builderFile source target with
    | .error e => (.failed e, ⟨cache, state.tree⟩)
    | .ok file =>
      let (outcome, tree) := deliver dryRun file state.tree
      (outcome, ⟨cache, tree⟩)

/-- Serve targets one after the other. -/
def generateFrom (dryRun : Bool) (state : State) : List Target → List Outcome × State
  | [] => ([], state)
  | target :: rest =>
    let (outcome, after) := generateOne dryRun state target
    let (outcomes, last) := generateFrom dryRun after rest
    (outcome :: outcomes, last)

/-- Generate the builders for targets. -/
def generate (dryRun : Bool) (tree : FileTree) (targets : List Target) :
    List Outcome × FileTree :=
  let (outcomes, last) := generateFrom dryRun ⟨{}, tree⟩ targets
  (outcomes, last.tree)

/-- Gather the blueprint for one target. -/
def inspectOne (tree : FileTree) (cache : SourceCache) (target : Target) :
    Except Failure Blueprint × SourceCache :=
  let (found, after) := cache.get tree target.path
  match found with
  | .error e => (.error (.source e), after)
  | .ok source =>
    match source.blueprint target.name with
    | .error e => (.error (.generate (.blueprint e)), after)
    | .ok blueprint => (.ok blueprint, after)

/-- Gather the blueprints for targets one after the other. -/
def inspectFrom (tree : FileTree) (cache : SourceCache) :
    List Target → List (Except Failure Blueprint)
  | [] => []
  | target :: rest =>
    let (found, after) := inspectOne tree cache target
    found :: inspectFrom tree after rest

/-- Gather the blueprints for targets. -/
def inspect (tree : FileTree) (targets : List Target) : List (Except Failure Blueprint) :=
  inspectFrom tree {} targets

end FluentBuilder.Batch

import FluentBuilder.Batch
import FluentBuilder.Json

/-!
# Reports — what a run says about its targets

A report is a list of `Event`s; `Event.output` and `Event.errors` say what a terminal shows of
each. A report on generated builders shows the previews first, then what was written, then what
failed, and counts at the end. A report on blueprints keeps the order of the targets.
-/

namespace FluentBuilder

/-- One thing that a report says. -/
inductive Event where
  | heading (name : String)
  | added (text : String)
  | unchanged (text : String)
  | error (text : String)
  | divider (label : String)
  | preformatted (text : String)
  | newline
  deriving DecidableEq, Repr

namespace Event

/-- What an event adds to the output of a terminal. -/
def output : Event → String
  | .heading name => name ++ ":\n"
  | .added text => "  + " ++ text ++ "\n"
  | .unchanged text => "  = " ++ text ++ "\n"
  | .error _ => ""
  | .divider label => "── " ++ label ++ " ──\n"
  | .preformatted text => text ++ "\n"
  | .newline => "\n"

/-- What an event adds to the errors of a terminal. -/
def errors : Event → String
  | .error text => text ++ "\n"
  | _ => ""

end Event

namespace Report

open Batch (Outcome Failure)

/-- A report and its causes, one on a line. -/
def chainText (messages : List String) : String := "\ncaused by: ".intercalate messages

/-- The events of the preview of a target. -/
def previewEvents : Outcome → List Event
  | .preview file => [.divider file.path, .preformatted file.content]
  | _ => []

/-- The event of a written target. -/
def writtenEvents (target : Target) : Outcome → List Event
  | .written path .written => [.added s!"{path} ({target.name})"]
  | .written path .unchanged => [.unchanged s!"{path} ({target.name})"]
  | _ => []

/-- The event of a failed target. -/
def failureEvents (recovery : Option Go.Recovery) (target : Target) : Outcome → List Event
  | .failed cause =>
    [.error (chainText
      (s!"failed to generate builder code for '{target.display}'" :: cause.chain recovery))]
  | _ => []

/-- Decide whether a target failed. -/
def isFailure : Outcome → Bool
  | .failed _ => true
  | _ => false

/-- Decide whether a target was previewed. -/
def isPreview : Outcome → Bool
  | .preview _ => true
  | _ => false

/-- The number of failed targets. -/
def failures (outcomes : List Outcome) : Nat := outcomes.countP isFailure

/-- The report on generated builders. -/
def ofGenerate (targets : List Target) (outcomes : List Outcome)
    (recovery : Option Go.Recovery := none) : List Event :=
  let both := targets.zip outcomes
  let previews := outcomes.countP isPreview
  let written := both.flatMap fun (target, outcome) => writtenEvents target outcome
  let failed := failures outcomes
  let all := outcomes.length
  outcomes.flatMap previewEvents ++
    (if written.isEmpty then [] else .heading "Builders" :: written) ++
    both.flatMap (fun (target, outcome) => failureEvents recovery target outcome) ++
    (if previews == 0 then []
      else [.divider "Summary", .preformatted s!"{previews} files would be generated"]) ++
    (if failed == 0 then [] else [.newline, .error s!"{failed} of {all} targets failed"])

/-- The events of the blueprint of a target; with `labelled`, under a divider. -/
def blueprintEvents (recovery : Option Go.Recovery) (labelled : Bool) (target : Target) :
    Except Failure Blueprint → List Event
  | .ok blueprint =>
    (if labelled then [.divider target.display] else []) ++ [.preformatted blueprint.toJson]
  | .error cause =>
    [.error (chainText (s!"failed to inspect '{target.display}'" :: cause.chain recovery))]

/-- Decide whether a target has no blueprint. -/
def lacksBlueprint : Except Failure Blueprint → Bool
  | .ok _ => false
  | .error _ => true

/-- The report on blueprints; several targets are told apart by dividers. -/
def ofInspect (targets : List Target) (found : List (Except Failure Blueprint))
    (recovery : Option Go.Recovery := none) : List Event :=
  (targets.zip found).flatMap fun (target, one) =>
    blueprintEvents recovery (1 < found.length) target one

end Report

end FluentBuilder

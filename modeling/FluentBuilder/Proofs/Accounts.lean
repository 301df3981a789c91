import FluentBuilder.CommandLine
import FluentBuilder.Proofs.Delivery

/-!
# Accounts — a report says what became of every target

The outcomes of a run are of three kinds, in any order; the report goes through them once for each
kind and frames what it says about them. `Sorted` takes the outcomes apart into the three kinds, one
at a time, so that none is lost and each kind keeps the order of the targets.

* **`ofGenerate_sorted`** — the report is made of the sorted outcomes.
* **`Sorted.perm`** — what is said about the sorted outcomes is said about each outcome once.
* **`report_accounts`** — the report, and the status with which the command ends.
-/

namespace FluentBuilder.Report

open Batch (Outcome Failure)

/-! ## Kinds of outcomes -/

/-- A target whose builder stands in a file. -/
structure Item where
  target : Target
  path   : String
  status : WriteStatus

/-- A target without a builder. -/
structure Fault where
  target : Target
  cause  : Failure

/-- Targets with their outcomes taken apart into the kinds, each in the order of the targets. -/
inductive Sorted :
    List (Target × Outcome) → List GeneratedFile → List Item → List Fault → Prop where
  | nil : Sorted [] [] [] []
  | preview {units : List (Target × Outcome)} {previews : List GeneratedFile} {items : List Item}
      {faults : List Fault} (target : Target) (file : GeneratedFile)
      (h : Sorted units previews items faults) :
      Sorted ((target, .preview file) :: units) (file :: previews) items faults
  | written {units : List (Target × Outcome)} {previews : List GeneratedFile} {items : List Item}
      {faults : List Fault} (target : Target) (path : String) (status : WriteStatus)
      (h : Sorted units previews items faults) :
      Sorted ((target, .written path status) :: units) previews (⟨target, path, status⟩ :: items)
        faults
  | failed {units : List (Target × Outcome)} {previews : List GeneratedFile} {items : List Item}
      {faults : List Fault} (target : Target) (cause : Failure)
      (h : Sorted units previews items faults) :
      Sorted ((target, .failed cause) :: units) previews items (⟨target, cause⟩ :: faults)

/-- Outcomes can always be taken apart. -/
theorem exists_sorted (units : List (Target × Outcome)) :
    ∃ previews items faults, Sorted units previews items faults := by
  induction units with
  | nil => exact ⟨[], [], [], .nil⟩
  | cons unit units ih =>
      obtain ⟨previews, items, faults, h⟩ := ih
      obtain ⟨target, outcome⟩ := unit
      cases outcome with
      | written path status => exact ⟨_, _, _, .written target path status h⟩
      | preview file => exact ⟨_, _, _, .preview target file h⟩
      | failed cause => exact ⟨_, _, _, .failed target cause h⟩

/-! ## What is said -/

/-- What is said about a previewed file: its path and its content. -/
def ofPreview (file : GeneratedFile) : List Event :=
  [.divider file.path, .preformatted file.content]

/-- What is said about a file that was written or was up to date. -/
def ofItem (item : Item) : Event :=
  match item.status with
  | .written => .added s!"{item.path} ({item.target.name})"
  | .unchanged => .unchanged s!"{item.path} ({item.target.name})"

/-- What is said about a target that failed. -/
def ofFault (recovery : Option Go.Recovery) (fault : Fault) : Event :=
  .error (chainText
    (s!"failed to generate builder code for '{fault.target.display}'" ::
      fault.cause.chain recovery))

/-- What is said about a target by its outcome. -/
def ofUnit (recovery : Option Go.Recovery) : Target × Outcome → List Event
  | (_, .preview file) => ofPreview file
  | (target, .written path status) => [ofItem ⟨target, path, status⟩]
  | (target, .failed cause) => [ofFault recovery ⟨target, cause⟩]

/-- The heading above files, if there are any. -/
def heading : List Item → List Event
  | [] => []
  | _ :: _ => [.heading "Builders"]

/-- How many files were previewed, if any. -/
def summary : Nat → List Event
  | 0 => []
  | previews + 1 =>
    [.divider "Summary", .preformatted s!"{previews + 1} files would be generated"]

/-- How many of all targets failed, if any. -/
def tally (all : Nat) : Nat → List Event
  | 0 => []
  | failed + 1 => [.newline, .error s!"{failed + 1} of {all} targets failed"]

namespace Sorted

variable {units : List (Target × Outcome)} {previews : List GeneratedFile} {items : List Item}
  {faults : List Fault}

/-- The first pass finds the previews. -/
theorem previews_eq (h : Sorted units previews items faults) :
    (units.map (·.2)).flatMap previewEvents = previews.flatMap ofPreview ∧
      (units.map (·.2)).countP isPreview = previews.length := by
  induction h with
  | nil => exact ⟨rfl, rfl⟩
  | preview target file _ ih =>
      obtain ⟨hevents, hcount⟩ := ih
      rw [List.map_cons, List.flatMap_cons, List.flatMap_cons, hevents,
        List.countP_cons_of_pos rfl, hcount]
      exact ⟨rfl, rfl⟩
  | written target path status _ ih => exact ih
  | failed target cause _ ih => exact ih

/-- The second pass finds the files. -/
theorem items_eq (h : Sorted units previews items faults) :
    units.flatMap (fun unit => writtenEvents unit.1 unit.2) = items.map ofItem := by
  induction h with
  | nil => rfl
  | preview target file _ ih => exact ih
  | written target path status _ ih =>
      rw [List.flatMap_cons, ih, List.map_cons]
      cases status <;> rfl
  | failed target cause _ ih => exact ih

/-- The third pass finds the failures. -/
theorem faults_eq (h : Sorted units previews items faults) (recovery : Option Go.Recovery) :
    units.flatMap (fun unit => failureEvents recovery unit.1 unit.2) =
        faults.map (ofFault recovery) ∧
      failures (units.map (·.2)) = faults.length := by
  induction h with
  | nil => exact ⟨rfl, rfl⟩
  | preview target file _ ih => exact ih
  | written target path status _ ih => exact ih
  | failed target cause _ ih =>
      obtain ⟨hevents, hcount⟩ := ih
      rw [List.flatMap_cons, hevents, List.map_cons, failures, List.map_cons,
        List.countP_cons_of_pos rfl]
      exact ⟨rfl, congrArg (· + 1) hcount⟩

/-- **What is said about the kinds** is said about each outcome once. -/
theorem perm (h : Sorted units previews items faults) (recovery : Option Go.Recovery) :
    (units.flatMap (ofUnit recovery)).Perm
      (previews.flatMap ofPreview ++ items.map ofItem ++ faults.map (ofFault recovery)) := by
  induction h with
  | nil => exact .nil
  | preview target file _ ih =>
      rw [List.flatMap_cons, List.flatMap_cons, List.append_assoc, List.append_assoc]
      rw [List.append_assoc] at ih
      exact ih.append_left (ofPreview file)
  | @written _ previews items faults target path status _ ih =>
      rw [List.flatMap_cons, List.map_cons, List.append_assoc, List.cons_append]
      rw [List.append_assoc] at ih
      -- what is said about this file moves behind the previews
      exact (ih.cons (ofItem ⟨target, path, status⟩)).trans List.perm_middle.symm
  | failed target cause _ ih =>
      rw [List.flatMap_cons, List.map_cons]
      exact (ih.cons (ofFault recovery ⟨target, cause⟩)).trans List.perm_middle.symm

end Sorted

/-! ## The report -/

/-- **The report is made of the sorted outcomes.** -/
theorem ofGenerate_sorted {units : List (Target × Outcome)} {previews : List GeneratedFile}
    {items : List Item} {faults : List Fault} (h : Sorted units previews items faults)
    (recovery : Option Go.Recovery) :
    ofGenerate (units.map (·.1)) (units.map (·.2)) recovery =
      previews.flatMap ofPreview ++ (heading items ++ items.map ofItem) ++
        faults.map (ofFault recovery) ++ summary previews.length ++
        tally units.length faults.length := by
  obtain ⟨hpreviews, hpreviewed⟩ := h.previews_eq
  obtain ⟨hfaults, hfailed⟩ := h.faults_eq recovery
  have hboth : (units.map (·.1)).zip (units.map (·.2)) = units :=
    List.zip_map'.trans (List.map_id units)
  have hheading : (if (items.map ofItem).isEmpty then [] else
      .heading "Builders" :: items.map ofItem) = heading items ++ items.map ofItem := by
    cases items <;> rfl
  have hsummary : ∀ n : Nat, (if (n == 0) = true then [] else
      [.divider "Summary", .preformatted s!"{n} files would be generated"]) = summary n := by
    rintro (_ | n) <;> rfl
  have htally : ∀ all n : Nat, (if (n == 0) = true then [] else
      [.newline, .error s!"{n} of {all} targets failed"]) = tally all n := by
    rintro all (_ | n) <;> rfl
  unfold ofGenerate
  dsimp only
  rw [hboth, hpreviews, hpreviewed, h.items_eq, hfaults, hfailed, List.length_map, hheading,
    hsummary, htally]

/-- A failure is counted just if there is one. -/
theorem failures_pos_iff {units : List (Target × Outcome)} :
    (failures (units.map (·.2)) != 0) = true ↔ ∃ unit ∈ units, ∃ cause, unit.2 = .failed cause := by
  have hfailed : ∀ outcome : Outcome,
      isFailure outcome = true ↔ ∃ cause, outcome = .failed cause := by
    rintro (⟨path, status⟩ | file | cause) <;> simp [isFailure]
  rw [bne_iff_ne, ← Nat.pos_iff_ne_zero, failures, List.countP_map, List.countP_pos_iff]
  exact exists_congr fun unit => and_congr_right fun _ => hfailed unit.2

/-- The status with which a report ends. -/
theorem status_ofEvents (failed : Bool) (events : List Event) :
    ((Exit.ofEvents failed events).status = 1 ↔ failed = true) ∧
      ((Exit.ofEvents failed events).status = 0 ↔ ¬ failed = true) := by
  cases failed <;> simp [Exit.ofEvents]

/-- **The report accounts for every outcome.** The targets with their outcomes are taken apart into
    the three kinds. First each preview is shown, then the files stand below their heading, then
    each failure is reported; how many previews and failures there are is said at the end, if there
    are any. So each outcome is told once, as what it is, and nothing else is said but the heading
    and the numbers. A command shows this report on its targets and ends with the status 1 if one of
    them failed, and otherwise with the status 0. All that holds whatever a parser finds in a text
    that is no source file. -/
theorem report_accounts (recovery : Option Go.Recovery) :
    (∀ units : List (Target × Outcome), ∃ previews items faults,
      Sorted units previews items faults ∧
      ofGenerate (units.map (·.1)) (units.map (·.2)) recovery =
        previews.flatMap ofPreview ++ (heading items ++ items.map ofItem) ++
          faults.map (ofFault recovery) ++ summary previews.length ++
          tally units.length faults.length ∧
      (ofGenerate (units.map (·.1)) (units.map (·.2)) recovery).Perm
        (units.flatMap (ofUnit recovery) ++
          (heading items ++ summary previews.length ++ tally units.length faults.length))) ∧
    ∀ (dryRun : Bool) (tree : FileTree) (targets : List Target),
      ∃ (units : List (Target × Outcome)) (exit : Exit),
        units.map (·.1) = targets ∧
        units.map (·.2) = (Batch.generate dryRun tree targets).1 ∧
        ((Command.generate dryRun targets).run tree recovery).1 = exit ∧
        exit.output =
          String.join ((ofGenerate targets (units.map (·.2)) recovery).map Event.output) ∧
        exit.errors =
          String.join ((ofGenerate targets (units.map (·.2)) recovery).map Event.errors) ∧
        (exit.status = 1 ↔ ∃ unit ∈ units, ∃ cause, unit.2 = .failed cause) ∧
        (exit.status = 0 ↔ ¬ ∃ unit ∈ units, ∃ cause, unit.2 = .failed cause) := by
  refine ⟨fun units => ?report, fun dryRun tree targets => ?command⟩
  case report =>
    obtain ⟨previews, items, faults, h⟩ := exists_sorted units
    refine ⟨previews, items, faults, h, ofGenerate_sorted h recovery, ?_⟩
    have hperm := List.perm_iff_count.mp (h.perm recovery)
    rw [ofGenerate_sorted h recovery, List.perm_iff_count]
    -- the events are the same up to where the heading stands
    intro event
    have hcount := hperm event
    simp only [List.count_append] at hcount ⊢
    omega
  case command =>
    -- a run leaves one outcome for each target, so the two lists can be paired
    have hlength := (Batch.generateFrom_grows (Batch.generateFrom_empty dryRun tree targets)).1
    let outcomes := (Batch.generate dryRun tree targets).1
    have hfirst : (targets.zip outcomes).map (·.1) = targets := List.map_fst_zip hlength.ge
    have hsecond : (targets.zip outcomes).map (·.2) = outcomes := List.map_snd_zip hlength.le
    refine ⟨targets.zip outcomes, _, hfirst, hsecond, rfl, ?_, ?_, ?_, ?_⟩
    · rw [hsecond]
      rfl
    · rw [hsecond]
      rfl
    · rw [← failures_pos_iff, hsecond]
      exact (status_ofEvents _ _).1
    · rw [← failures_pos_iff, hsecond]
      exact (status_ofEvents _ _).2

end FluentBuilder.Report

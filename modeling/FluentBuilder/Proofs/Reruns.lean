import FluentBuilder.Proofs.Footprint
import FluentBuilder.Proofs.Isolation

/-!
# Reruns — two runs over the same targets

As long as no output is a source, every run over some targets finds the same source files, whether
it writes anything or not and whatever other runs over these targets wrote before it. So two runs
stay in step: their caches are the same all the time, and for every target both build the same file
or none.

* **`generateOne_inStep`** — the step lemma: one target in two states of such runs.
* **`dryRun_foretells`** — what a dry run says about the run that writes.
* **`regeneration_unchanged`** — a run that is repeated finds all its outputs in place.
-/

namespace FluentBuilder.Batch

open FileTree GeneratedFile

/-! ## States in step -/

/-- A state of a run over some targets: its cache is anchored, and of the files that a tree held
    at first only outputs of the targets changed. -/
structure Within (tree : FileTree) (targets : List Target) (state : State) : Prop where
  anchored : Anchored state
  files : Rewrites (OutputOf tree targets) tree state.tree

/-- What serving a target comes to if a certain file is built for it, or none. -/
def Delivers (dryRun : Bool) (target : Target) (before after : FileTree) (outcome : Outcome) :
    Option GeneratedFile → Prop
  | none => (∃ cause, outcome = .failed cause) ∧ after = before
  | some file =>
    deliver dryRun file before = (outcome, after) ∧ file.path = target.outputPath ∧
      ∃ l, before.resolve target.outputPath = .ok l

section

variable {dryRun dryRun' : Bool} {tree : FileTree} {all targets : List Target} {target : Target}
  {before before' after after' last last' : State} {outcome outcome' : Outcome}
  {outcomes outcomes' : List Outcome}

/-- A run starts within its targets. -/
theorem Within.initial (tree : FileTree) (targets : List Target) :
    Within tree targets ⟨{}, tree⟩ := ⟨Anchored.initial tree, Rewrites.refl tree⟩

/-- What a run over some of the targets reports as written are outputs of the targets. -/
theorem outputOf_of_wroteTo (h : Within tree all before) (hsub : ∀ t ∈ targets, t ∈ all)
    {l : Location} (hl : WroteTo before.tree targets outcomes l) : OutputOf tree all l := by
  obtain ⟨i, t, hi, -, hres⟩ := hl
  exact ⟨t, hsub t (List.mem_of_getElem? hi), h.files.resolve_iff.mp hres⟩

/-- A run over some of the targets stays within them. -/
theorem Within.run (h : Within tree all before) (hsub : ∀ t ∈ targets, t ∈ all)
    (hrun : generateFrom dryRun before targets = (outcomes, last)) : Within tree all last := by
  obtain ⟨hanchored, hrewrites⟩ := generateFrom_footprint h.anchored hrun
  exact ⟨hanchored, h.files.trans (hrewrites.mono fun l => outputOf_of_wroteTo h hsub)⟩

/-- One more target that is served leaves a run within its targets. -/
theorem Within.step (h : Within tree all before) (htarget : target ∈ all)
    (hone : generateOne dryRun before target = (outcome, after)) : Within tree all after := by
  obtain ⟨hanchored, hfootprint⟩ := generateOne_footprint h.anchored hone
  refine ⟨hanchored, h.files.trans (hfootprint.rewrites.mono ?_)⟩
  rintro l ⟨-, hres⟩
  exact ⟨target, htarget, h.files.resolve_iff.mp hres⟩

/-- What a target comes to in terms of the file that is built for it. -/
theorem delivers_built (inv : Anchored before)
    (hone : generateOne dryRun before target = (outcome, after)) :
    ∃ found, before.cache.get before.tree target.path = (found, after.cache) ∧
      Delivers dryRun target before.tree after.tree outcome (built found target).toOption := by
  obtain ⟨found, hget, ⟨cause, hbuilt, hfailed, htree⟩ | ⟨file, hbuilt, hdeliver⟩⟩ :=
    generateOne_cases hone
  · refine ⟨found, hget, ?_⟩
    rw [hbuilt]
    exact ⟨⟨cause, hfailed⟩, htree⟩
  · obtain ⟨-, -, hpath, -⟩ := built_eq_ok hbuilt
    refine ⟨found, hget, ?_⟩
    rw [hbuilt]
    exact ⟨hdeliver, hpath, (inv.placed hget hbuilt).resolve⟩

/-- **The step lemma.** Two states of runs over the same targets that have the same cache go on to
    states with the same cache, and for a target both build the same file or none. -/
theorem generateOne_inStep (h : SourcesApart tree all) (hbefore : Within tree all before)
    (hbefore' : Within tree all before') (hcache : before.cache = before'.cache)
    (htarget : target ∈ all) (hone : generateOne dryRun before target = (outcome, after))
    (hone' : generateOne dryRun' before' target = (outcome', after')) :
    after.cache = after'.cache ∧ ∃ file : Option GeneratedFile,
      Delivers dryRun target before.tree after.tree outcome file ∧
      Delivers dryRun' target before'.tree after'.tree outcome' file := by
  obtain ⟨found, hget, hdelivers⟩ := delivers_built hbefore.anchored hone
  obtain ⟨found', hget', hdelivers'⟩ := delivers_built hbefore'.anchored hone'
  have hsource : (readSource before.tree target.path).toOption =
      (readSource before'.tree target.path).toOption :=
    (readSource_of_outputs h (fun _ ht => ht) htarget hbefore.files).trans
      (readSource_of_outputs h (fun _ ht => ht) htarget hbefore'.files).symm
  obtain ⟨hfound, hafter⟩ := SourceCache.get_congr before.cache hsource
  rw [← hcache] at hget'
  rw [hget, hget'] at hfound hafter
  refine ⟨hafter, (built found target).toOption, hdelivers, ?_⟩
  rw [built_toOption, hfound, ← built_toOption]
  exact hdelivers'

/-- **The run lemma.** Runs over the same targets keep the same cache. -/
theorem generateFrom_inStep (h : SourcesApart tree all) (hbefore : Within tree all before)
    (hbefore' : Within tree all before') (hcache : before.cache = before'.cache)
    (hsub : ∀ t ∈ targets, t ∈ all)
    (hrun : generateFrom dryRun before targets = (outcomes, last))
    (hrun' : generateFrom dryRun' before' targets = (outcomes', last')) :
    last.cache = last'.cache := by
  induction targets generalizing before before' outcomes outcomes' with
  | nil =>
      cases hrun
      cases hrun'
      exact hcache
  | cons target targets ih =>
      obtain ⟨outcome, mid, rest, hone, hrest, -⟩ := generateFrom_cons hrun
      obtain ⟨outcome', mid', rest', hone', hrest', -⟩ := generateFrom_cons hrun'
      have htarget := hsub target (.head _)
      obtain ⟨hmid, -⟩ := generateOne_inStep h hbefore hbefore' hcache htarget hone hone'
      exact ih (hbefore.step htarget hone) (hbefore'.step htarget hone') hmid
        (fun t ht => hsub t (.tail _ ht)) hrest hrest'

end

/-! ## Dry runs -/

/-- What the outcome of a target in a dry run says about its outcome in the run that writes:
    a failure is a failure there, and a preview is written there with its content, or cannot be
    written. `after` is the tree behind the step of the target. -/
inductive Foretells (after : FileTree) : Outcome → Outcome → Prop
  | failed (cause cause' : Failure) : Foretells after (.failed cause) (.failed cause')
  | written (file : GeneratedFile) (status : WriteStatus)
      (hread : after.readBytes file.path = .ok file.content.toUTF8) :
      Foretells after (.preview file) (.written file.path status)
  | blocked (file : GeneratedFile) (cause : WriteError) :
      Foretells after (.preview file) (.failed (.write cause))

/-- A preview foretells what becomes of its file. -/
theorem foretells_of_delivers {target : Target} {before before' after after' : FileTree}
    {dry real : Outcome} {file : Option GeneratedFile}
    (hdry : Delivers true target before after dry file)
    (hreal : Delivers false target before' after' real file) : Foretells after' dry real := by
  cases file with
  | none =>
      obtain ⟨⟨cause, rfl⟩, -⟩ := hdry
      obtain ⟨⟨cause', rfl⟩, -⟩ := hreal
      exact .failed cause cause'
  | some file =>
      obtain ⟨hpreview, -⟩ := hdry
      obtain ⟨hdeliver, hpath, l, hres⟩ := hreal
      obtain ⟨rfl, -⟩ := Prod.mk.inj hpreview
      rw [← hpath] at hres
      rcases deliver_cases hres hdeliver with
        ⟨-, -, cause, rfl⟩ | ⟨hsame, rfl, rfl⟩ | ⟨hdir, -, rfl, rfl⟩
      · exact .blocked file cause
      · exact .written file _ (readBytes_eq_ok.mpr ⟨l, hres, hsame⟩)
      · have hroot : l ≠ [] := by rintro rfl; exact hdir rfl
        have hput := insert_file_rewrites file.content.toUTF8 hdir
        exact .written file _
          (readBytes_eq_ok.mpr ⟨l, hput.resolve_iff.mpr hres, at?_insert_self before' hroot _⟩)

/-- **A dry run foretells the run that writes** if no output is a source: it leaves the tree as it
    is, a target that fails in it fails in the other run, and a file that it previews is written
    by the other run, where it is found with exactly this content right behind the step of its
    target, or fails to be written. -/
theorem dryRun_foretells (tree : FileTree) (targets : List Target)
    (h : SourcesApart tree targets) :
    (generate true tree targets).2 = tree ∧
    ∀ (i : Nat) (target : Target), targets[i]? = some target →
      ∃ dry real, (generate true tree targets).1[i]? = some dry ∧
        (generate false tree targets).1[i]? = some real ∧
        Foretells (stateBehind false tree targets (i + 1)).tree dry real := by
  refine ⟨generateFrom_dryRun (generateFrom_empty true tree targets), fun i target hi => ?_⟩
  obtain ⟨dry, hdry, hone⟩ := generate_step true tree hi
  obtain ⟨real, hreal, hone'⟩ := generate_step false tree hi
  have hsub : ∀ t ∈ targets.take i, t ∈ targets := fun t ht => List.mem_of_mem_take ht
  have hrun := generateFrom_empty true tree (targets.take i)
  have hrun' := generateFrom_empty false tree (targets.take i)
  have hinitial := Within.initial tree targets
  -- both runs have come to states in step when they reach the target
  have hcache := generateFrom_inStep h hinitial hinitial rfl hsub hrun hrun'
  obtain ⟨-, file, hfile, hfile'⟩ := generateOne_inStep h (hinitial.run hsub hrun)
    (hinitial.run hsub hrun') hcache (List.mem_of_getElem? hi) hone hone'
  exact ⟨dry, real, hdry, hreal, foretells_of_delivers hfile hfile'⟩

/-- `dryRun_foretells` for two targets: the first one is previewed, and the run that writes leaves
    what was previewed; the second one fails in both runs. -/
theorem dryRun_foretells_mixed :
    SourcesApart mixedTree mixedTargets ∧
    (∃ file, file.path = "a_builder.go" ∧
      (generate true mixedTree mixedTargets).1[0]? = some (.preview file) ∧
      (generate false mixedTree mixedTargets).1[0]? = some (.written "a_builder.go" .written) ∧
      (stateBehind false mixedTree mixedTargets 1).tree.readBytes "a_builder.go" =
        .ok file.content.toUTF8) ∧
    (∃ cause, (generate true mixedTree mixedTargets).1[1]? = some (.failed cause)) ∧
    (generate false mixedTree mixedTargets).1[1]? =
      some (.failed (.source (.malformed (.unexpected "b.go" "func")))) := by
  have h : SourcesApart mixedTree mixedTargets := by
    unfold SourcesApart
    decide +kernel
  obtain ⟨-, hall⟩ := dryRun_foretells mixedTree mixedTargets h
  have hfirst : (generate false mixedTree mixedTargets).1[0]? =
      some (.written "a_builder.go" .written) := by rw [generate_mixed]; rfl
  have hsecond : (generate false mixedTree mixedTargets).1[1]? =
      some (.failed (.source (.malformed (.unexpected "b.go" "func")))) := by
    rw [generate_mixed]; rfl
  refine ⟨h, ?written, ?failed, hsecond⟩
  case written =>
    obtain ⟨dry, real, hdry, hreal, hforetells⟩ := hall 0 ⟨"a.go", "A"⟩ rfl
    cases hforetells with
    | written file status hread =>
        obtain ⟨hpath, -⟩ := Outcome.written.inj (Option.some.inj (hreal.symm.trans hfirst))
        rw [hpath] at hread
        exact ⟨file, hpath, hdry, hfirst, hread⟩
    | failed => cases hreal.symm.trans hfirst
    | blocked => cases hreal.symm.trans hfirst
  case failed =>
    obtain ⟨dry, real, hdry, hreal, hforetells⟩ := hall 1 ⟨"b.go", "B"⟩ rfl
    cases hforetells with
    | failed cause => exact ⟨cause, hdry⟩
    | written => cases hreal.symm.trans hsecond
    | blocked => cases hreal.symm.trans hsecond

/-! ## Repeated runs -/

/-- What becomes of a target when a run is repeated: a failure is a failure again, and an output
    that was written or was there is there. -/
inductive Repeats : Outcome → Outcome → Prop
  | failed (cause cause' : Failure) : Repeats (.failed cause) (.failed cause')
  | written (path : String) (status : WriteStatus) :
      Repeats (.written path status) (.written path .unchanged)

/-- An output that was written is unchanged at the same position of the repeated run. -/
theorem unchanged_of_repeats {outcomes outcomes' : List Outcome}
    (h : List.Forall₂ Repeats outcomes outcomes') {i : Nat} {path : String} {status : WriteStatus}
    (hi : outcomes[i]? = some (.written path status)) :
    outcomes'[i]? = some (.written path .unchanged) := by
  induction h generalizing i with
  | nil => cases hi
  | cons hrepeat hrest ih =>
      cases i with
      | zero =>
          cases hi
          cases hrepeat
          rfl
      | succ i => exact ih hi

section

variable {tree : FileTree} {all targets : List Target} {target : Target}
  {before mid last : State} {outcome : Outcome} {outcomes : List Outcome}

/-- What one target wrote is not written over by others with other outputs. -/
theorem output_kept (hmid : Within tree all mid)
    (hothers : ∀ t ∈ targets, ¬ tree.SameFile target.outputPath t.outputPath)
    (hrest : generateFrom false mid targets = (outcomes, last)) {l : Location}
    (hres : mid.tree.resolve target.outputPath = .ok l) :
    last.tree.at? l = mid.tree.at? l := by
  obtain ⟨-, hrewrites⟩ := generateFrom_footprint hmid.anchored hrest
  refine hrewrites.at?_eq ?_
  rintro ⟨i, t, hi, -, hl⟩
  have ht := List.mem_of_getElem? hi
  exact hothers t ht ⟨l, hmid.files.resolve_iff.mp hres, hmid.files.resolve_iff.mp hl⟩

/-- A file that was delivered is found in place in a later tree that has the same directories and
    still holds what stood at its output. -/
theorem repeats_of_delivers {before after later later' : FileTree} {outcome' : Outcome}
    {only : Location → Prop} {file : Option GeneratedFile} (hlater : Rewrites only after later)
    (hkept : ∀ l, after.resolve target.outputPath = .ok l → later.at? l = after.at? l)
    (h : Delivers false target before after outcome file)
    (h' : Delivers false target later later' outcome' file) :
    later' = later ∧ Repeats outcome outcome' := by
  cases file with
  | none =>
      obtain ⟨⟨cause, rfl⟩, -⟩ := h
      obtain ⟨⟨cause', rfl⟩, htree⟩ := h'
      exact ⟨htree, .failed cause cause'⟩
  | some file =>
      obtain ⟨hdeliver, hpath, l, hres⟩ := h
      obtain ⟨hdeliver', -, l', hres'⟩ := h'
      rw [← hpath] at hres hres' hkept
      have hagain : after.resolve file.path = .ok l →
          after.at? l = some (.file file.content.toUTF8) →
          later' = later ∧ outcome' = .written file.path .unchanged := by
        intro hafter hat
        obtain rfl : l' = l :=
          Except.ok.inj (hres'.symm.trans (hlater.resolve_iff.mpr hafter))
        have hat' := (hkept _ hafter).trans hat
        rcases deliver_cases hres' hdeliver' with
          ⟨hdir, -, -⟩ | ⟨-, htree, hout⟩ | ⟨-, hother, -, -⟩
        · cases hdir.symm.trans hat'
        · exact ⟨htree, hout⟩
        · exact absurd hat' hother
      rcases deliver_cases hres hdeliver with
        ⟨hdir, rfl, cause, rfl⟩ | ⟨hsame, rfl, rfl⟩ | ⟨hdir, -, rfl, rfl⟩
      · obtain rfl : l' = l := Except.ok.inj (hres'.symm.trans (hlater.resolve_iff.mpr hres))
        have hdir' := (hlater.directory_iff _).mpr hdir
        rcases deliver_cases hres' hdeliver' with
          ⟨-, htree, cause', rfl⟩ | ⟨hsame, -, -⟩ | ⟨hfree, -, -, -⟩
        · exact ⟨htree, .failed _ _⟩
        · cases hdir'.symm.trans hsame
        · exact absurd hdir' hfree
      · obtain ⟨htree, rfl⟩ := hagain hres hsame
        exact ⟨htree, .written _ _⟩
      · have hroot : l ≠ [] := by rintro rfl; exact hdir rfl
        have hput := insert_file_rewrites file.content.toUTF8 hdir
        obtain ⟨htree, rfl⟩ :=
          hagain (hput.resolve_iff.mpr hres) (at?_insert_self before hroot _)
        exact ⟨htree, .written _ _⟩

/-- **A run is repeated** from a cache as it was before the run and the tree as it was behind the
    run: it changes nothing, and all its outputs are in place. -/
theorem generateFrom_again (h : SourcesApart tree all) (hbefore : Within tree all before)
    (hsub : ∀ t ∈ targets, t ∈ all)
    (hpairs : targets.Pairwise fun t t' => ¬ tree.SameFile t.outputPath t'.outputPath)
    (hrun : generateFrom false before targets = (outcomes, last)) :
    ∃ outcomes', generateFrom false ⟨before.cache, last.tree⟩ targets = (outcomes', last) ∧
      List.Forall₂ Repeats outcomes outcomes' := by
  induction targets generalizing before outcomes with
  | nil =>
      cases hrun
      exact ⟨[], rfl, .nil⟩
  | cons target targets ih =>
      obtain ⟨outcome, mid, rest, hone, hrest, rfl⟩ := generateFrom_cons hrun
      obtain ⟨hothers, hpairs⟩ := List.pairwise_cons.mp hpairs
      have htarget := hsub target (.head _)
      have hmid := hbefore.step htarget hone
      have hsub' : ∀ t ∈ targets, t ∈ all := fun t ht => hsub t (.tail _ ht)
      obtain ⟨rest', hrest', hrepeats⟩ := ih hmid hsub' hpairs hrest
      have hlater := (generateFrom_footprint hmid.anchored hrest).2
      have hlast : Within tree all ⟨before.cache, last.tree⟩ := by
        have hgrow := (generateFrom_footprint hbefore.anchored hrun).2.grows
        exact ⟨Anchored.grows hbefore.anchored hgrow, (hmid.run hsub' hrest).files⟩
      cases hagain : generateOne false ⟨before.cache, last.tree⟩ target with
      | mk outcome' after =>
          obtain ⟨hcache, file, hfile, hfile'⟩ :=
            generateOne_inStep h hbefore hlast rfl htarget hone hagain
          obtain ⟨htree, hrepeat⟩ := repeats_of_delivers hlater
            (fun l hres => output_kept hmid hothers hrest hres) hfile hfile'
          have hafter : after = ⟨mid.cache, last.tree⟩ := by
            rw [hcache, ← htree]
          refine ⟨outcome' :: rest', ?_, .cons hrepeat hrepeats⟩
          simp only [generateFrom, hagain, hafter, hrest']

end

/-- **Regeneration changes nothing.** If no two outputs are the same file and no output is a source,
    a run that is repeated right behind itself leaves the tree as it is. Outputs that the first run
    reported as written or unchanged are unchanged in the second one, at the same paths, and a
    target fails in it if and only if it failed in the first one. -/
theorem regeneration_unchanged (tree : FileTree) (targets : List Target)
    (hpairs : targets.Pairwise fun t t' => ¬ tree.SameFile t.outputPath t'.outputPath)
    (h : SourcesApart tree targets) :
    (generate false (generate false tree targets).2 targets).2 = (generate false tree targets).2 ∧
    List.Forall₂ Repeats (generate false tree targets).1
      (generate false (generate false tree targets).2 targets).1 := by
  obtain ⟨outcomes, hagain, hrepeats⟩ := generateFrom_again h (Within.initial tree targets)
    (fun t ht => ht) hpairs (generateFrom_empty false tree targets)
  have hrun := generateFrom_empty false (generate false tree targets).2 targets
  rw [generate_tree] at hrun ⊢
  obtain ⟨houtcomes, hlast⟩ := Prod.mk.inj (hrun.symm.trans hagain)
  rw [generate_tree, houtcomes, hlast]
  exact ⟨rfl, hrepeats⟩

/-- The hypotheses of `regeneration_unchanged` are met by two targets, the second of which fails. -/
theorem regeneration_unchanged_mixed :
    ([⟨"a.go", "A"⟩, ⟨"b.go", "B"⟩] : List Target).Pairwise
      (fun t t' => ¬ mixedTree.SameFile t.outputPath t'.outputPath) ∧
    SourcesApart mixedTree [⟨"a.go", "A"⟩, ⟨"b.go", "B"⟩] ∧
    (generate false (generate false mixedTree [⟨"a.go", "A"⟩, ⟨"b.go", "B"⟩]).2
        [⟨"a.go", "A"⟩, ⟨"b.go", "B"⟩]).2 =
      (generate false mixedTree [⟨"a.go", "A"⟩, ⟨"b.go", "B"⟩]).2 ∧
    (generate false (generate false mixedTree [⟨"a.go", "A"⟩, ⟨"b.go", "B"⟩]).2
        [⟨"a.go", "A"⟩, ⟨"b.go", "B"⟩]).1[0]? = some (.written "a_builder.go" .unchanged) := by
  have hpairs : ([⟨"a.go", "A"⟩, ⟨"b.go", "B"⟩] : List Target).Pairwise
      (fun t t' => ¬ mixedTree.SameFile t.outputPath t'.outputPath) := by decide +kernel
  have hsources : SourcesApart mixedTree [⟨"a.go", "A"⟩, ⟨"b.go", "B"⟩] := by
    unfold SourcesApart
    decide +kernel
  have hfirst : (generate false mixedTree [⟨"a.go", "A"⟩, ⟨"b.go", "B"⟩]).1[0]? =
      some (.written "a_builder.go" .written) := by decide +kernel
  obtain ⟨htree, hrepeats⟩ := regeneration_unchanged mixedTree _ hpairs hsources
  exact ⟨hpairs, hsources, htree, unchanged_of_repeats hrepeats hfirst⟩

end FluentBuilder.Batch

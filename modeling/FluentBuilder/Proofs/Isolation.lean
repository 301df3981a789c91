import FluentBuilder.Proofs.Delivery
import FluentBuilder.Proofs.OutputPath
import FluentBuilder.Proofs.Reached
import FluentBuilder.Proofs.Rewriting

/-!
# Isolation — targets of one run do not disturb each other

As long as no output of a run is read or written for another target, a run keeps the directories
of its tree and changes only files that it reports. Every source is then read as it was at first,
and so is every file that is compared before it is written.

* **`generateOne_serves`** — the step lemma: what serving one target comes to is told by the tree
  at the beginning of the run.
* **`generateFrom_serves`** — the run lemma.
* **`batch_isolated`** — each outcome agrees with that of a run for its target alone, and with
  that of the same target in a run in any other order.
-/

namespace FluentBuilder

namespace Batch

open FileTree GeneratedFile

/-- A source that no output names is read as it was. -/
theorem readSource_of_rewrites {only : Location → Prop} {before after : FileTree} {path : String}
    (h : Rewrites only before after) (hpath : ∀ l, before.resolve path = .ok l → ¬ only l) :
    (readSource after path).toOption = (readSource before path).toOption := by
  have htext : (after.readText path).toOption = (before.readText path).toOption := by
    refine Option.ext fun text => ?_
    rw [toOption_eq_some, toOption_eq_some]
    exact h.readText_iff hpath
  rw [readSource_toOption, readSource_toOption, htext]

/-! ## What serving one target comes to -/

/-- The file with the builder for a target, made from the source file that a tree holds. -/
def builderOf (tree : FileTree) (target : Target) : Option GeneratedFile :=
  (readSource tree target.path).toOption.bind fun source => (builderFile source target).toOption

/-- What a target comes to in a run that begins with `tree`; `last` is what the run leaves. -/
inductive Serves (dryRun : Bool) (tree : FileTree) (target : Target) (last : FileTree) :
    Outcome → Prop
  | noBuilder (cause : Failure) (hfile : builderOf tree target = none) :
      Serves dryRun tree target last (.failed cause)
  | preview (file : GeneratedFile) (hdry : dryRun = true)
      (hfile : builderOf tree target = some file) :
      Serves dryRun tree target last (.preview file)
  | blocked (file : GeneratedFile) (l : Location) (cause : Failure) (hdry : dryRun = false)
      (hfile : builderOf tree target = some file) (hres : tree.resolve file.path = .ok l)
      (hat : tree.at? l = some .directory) :
      Serves dryRun tree target last (.failed cause)
  | written (file : GeneratedFile) (l : Location) (status : WriteStatus) (hdry : dryRun = false)
      (hfile : builderOf tree target = some file) (hres : tree.resolve file.path = .ok l)
      (hat : tree.at? l ≠ some .directory)
      (hstatus : status = .unchanged ↔ tree.at? l = some (.file file.content.toUTF8))
      (hlast : last.resolve file.path = .ok l)
      (hcontent : last.at? l = some (.file file.content.toUTF8)) :
      Serves dryRun tree target last (.written file.path status)

/-- The output of a target whose builder can be made leads somewhere. -/
theorem resolve_of_builderOf {tree : FileTree} {target : Target} {file : GeneratedFile}
    (h : builderOf tree target = some file) :
    file.path = target.outputPath ∧ ∃ l, tree.resolve file.path = .ok l := by
  obtain ⟨source, hsource, hfile⟩ := Option.bind_eq_some_iff.mp h
  obtain ⟨hpath, hgen⟩ := builderFile_eq_ok (toOption_eq_some.mp hfile)
  rw [readSource_toOption] at hsource
  obtain ⟨text, htext, hparse⟩ := Option.bind_eq_some_iff.mp hsource
  have hread := readText_eq_ok.mp (toOption_eq_some.mp htext)
  have hword := Go.SourceFile.isWord_of_generate (toOption_eq_some.mp hparse) hgen
  obtain ⟨l, hl⟩ := Target.resolve_outputPath hread hword.noSlash
  exact ⟨hpath, l, hpath ▸ hl⟩

/-! ## The invariant of a run -/

/-- Targets that do not get into each other's way: no two outputs are the same file, no output is
    a source, and paths that are the same are spelled the same. -/
structure Independent (tree : FileTree) (targets : List Target) : Prop where
  outputs : targets.Pairwise fun t t' => ¬ tree.SameFile t.outputPath t'.outputPath
  sources : ∀ t ∈ targets, ∀ t' ∈ targets, ¬ tree.SameFile t.outputPath t'.path
  spelling : ∀ t ∈ targets, ∀ t' ∈ targets, Path.same t.path t'.path = true → t.path = t'.path

/-- No output of the targets is the source of one of them. -/
def SourcesApart (tree : FileTree) (targets : List Target) : Prop :=
  ∀ t ∈ targets, ∀ t' ∈ targets, ¬ tree.SameFile t.outputPath t'.path

/-- A location where the output of one of the targets belongs. -/
def OutputOf (tree : FileTree) (targets : List Target) (l : Location) : Prop :=
  ∃ t ∈ targets, tree.resolve t.outputPath = .ok l

/-- After some targets were served, the state tells what the tree told at first: only their
    outputs changed, and the cache holds what could be read then. -/
structure Faithful (tree : FileTree) (all served : List Target) (state : State) : Prop where
  files : Rewrites (OutputOf tree served) tree state.tree
  known : ∀ known ∈ state.cache.known,
    (∃ t ∈ all, t.path = known.1) ∧ known.2 = (readSource tree known.1).toOption

section

variable {dryRun : Bool} {tree : FileTree} {all served : List Target} {state after : State}
  {target : Target}

/-- A source is read as it was at first while outputs are written that are no sources. -/
theorem readSource_of_outputs (h : SourcesApart tree all) (hserved : ∀ t ∈ served, t ∈ all)
    (htarget : target ∈ all) {left : FileTree}
    (hfiles : Rewrites (OutputOf tree served) tree left) :
    (readSource left target.path).toOption = (readSource tree target.path).toOption := by
  refine readSource_of_rewrites hfiles fun l hl => ?_
  rintro ⟨t, ht, hout⟩
  exact h t (hserved t ht) target htarget ⟨l, hout, hl⟩

/-- The source that a faithful state has for a target is the one that could be read at first. -/
theorem Faithful.get (inv : Faithful tree all served state) (h : Independent tree all)
    (hserved : ∀ t ∈ served, t ∈ all) (htarget : target ∈ all)
    {found : Except SourceError Go.SourceFile} {cache : SourceCache}
    (hget : state.cache.get state.tree target.path = (found, cache)) :
    found.toOption = (readSource tree target.path).toOption ∧
      Faithful tree all served ⟨cache, state.tree⟩ := by
  cases hknown : state.cache.find? target.path with
  | some known =>
      obtain ⟨hfound, rfl⟩ := SourceCache.get_of_known hknown hget
      refine ⟨?_, inv⟩
      obtain ⟨entry, hentry, rfl⟩ := Option.map_eq_some_iff.mp hknown
      have hmem := List.mem_of_find?_eq_some hentry
      have hsame := List.find?_some hentry
      obtain ⟨⟨t, ht, hpath⟩, hread⟩ := inv.known entry hmem
      have hspelled : entry.1 = target.path := by
        rw [← hpath] at hsame ⊢
        exact h.spelling t ht target htarget hsame
      rw [hfound, hread, hspelled]
  | none =>
      obtain ⟨rfl, rfl⟩ := SourceCache.get_of_new hknown hget
      have hread : (readSource state.tree target.path).toOption =
          (readSource tree target.path).toOption :=
        readSource_of_outputs h.sources hserved htarget inv.files
      refine ⟨hread, inv.files, fun known hmem => ?_⟩
      rcases List.mem_append.mp hmem with hmem | hmem
      · exact inv.known known hmem
      · obtain rfl := List.mem_singleton.mp hmem
        exact ⟨⟨target, htarget, rfl⟩, hread⟩

/-- **The step lemma.** In a faithful state a target comes to what the tree told at first, and
    only its output changes. -/
theorem generateOne_serves (inv : Faithful tree all served state) (h : Independent tree all)
    (hserved : ∀ t ∈ served, t ∈ all) (htarget : target ∈ all)
    (hout : ∀ t ∈ served, ¬ tree.SameFile t.outputPath target.outputPath) {outcome : Outcome}
    (hone : generateOne dryRun state target = (outcome, after)) :
    Serves dryRun tree target after.tree outcome ∧
      Rewrites (OutputOf tree [target]) state.tree after.tree ∧
      Faithful tree all served ⟨after.cache, state.tree⟩ := by
  obtain ⟨found, hget, hcases⟩ := generateOne_cases hone
  obtain ⟨hfound, hinv⟩ := inv.get h hserved htarget hget
  have hbuilder : (built found target).toOption = builderOf tree target := by
    rw [built_toOption, hfound, builderOf]
  rcases hcases with ⟨cause, hbuilt, rfl, htree⟩ | ⟨file, hbuilt, hdeliver⟩
  · rw [hbuilt] at hbuilder
    rw [htree]
    exact ⟨.noBuilder _ hbuilder.symm, Rewrites.refl _, hinv⟩
  · rw [hbuilt] at hbuilder
    have hfile : builderOf tree target = some file := hbuilder.symm
    cases hdry : dryRun with
    | true =>
        rw [hdry] at hdeliver
        obtain ⟨rfl, htree⟩ := Prod.mk.inj hdeliver
        rw [← htree]
        exact ⟨.preview file rfl hfile, Rewrites.refl _, hinv⟩
    | false =>
        rw [hdry] at hdeliver
        obtain ⟨hpath, l, hres⟩ := resolve_of_builderOf hfile
        have hplain : ¬ OutputOf tree served l := by
          rintro ⟨t, ht, hl⟩
          exact hout t ht ⟨l, hl, hpath ▸ hres⟩
        have hat := inv.files.at?_eq hplain
        rcases deliver_cases (inv.files.resolve_iff.mpr hres) hdeliver with
          ⟨hdir, htree, cause, rfl⟩ | ⟨hsame, htree, rfl⟩ | ⟨hne, hother, htree, rfl⟩
        · rw [htree]
          exact ⟨.blocked file l _ rfl hfile hres (hat ▸ hdir), Rewrites.refl _, hinv⟩
        · rw [htree]
          refine ⟨.written file l _ rfl hfile hres ?_ ?_ (inv.files.resolve_iff.mpr hres) hsame,
            Rewrites.refl _, hinv⟩
          · rw [← hat, hsame]
            exact nofun
          · rw [← hat]
            exact ⟨fun _ => hsame, fun _ => rfl⟩
        · have hroot : l ≠ [] := by rintro rfl; exact hne rfl
          have hput := insert_file_rewrites file.content.toUTF8 hne
          rw [htree]
          refine ⟨.written file l _ rfl hfile hres (hat ▸ hne) ?_
            (hput.resolve_iff.mpr (inv.files.resolve_iff.mpr hres))
            (at?_insert_self state.tree hroot _), ?_, hinv⟩
          · rw [← hat]
            exact ⟨nofun, fun h => absurd h hother⟩
          · exact hput.mono fun l' hl' => ⟨target, .head _, by rw [hl', ← hpath]; exact hres⟩

/-- What a target comes to stays as long as other outputs are written. -/
theorem Serves.later {last last' : FileTree} {outcome : Outcome} {only : Location → Prop}
    (h : Serves dryRun tree target last outcome) (hrewrites : Rewrites only last last')
    (honly : ∀ l, tree.resolve target.outputPath = .ok l → ¬ only l) :
    Serves dryRun tree target last' outcome := by
  cases h with
  | noBuilder cause hfile => exact .noBuilder cause hfile
  | preview file hdry hfile => exact .preview file hdry hfile
  | blocked file l cause hdry hfile hres hat => exact .blocked file l cause hdry hfile hres hat
  | written file l status hdry hfile hres hat hstatus hlast hcontent =>
      obtain ⟨hpath, -⟩ := resolve_of_builderOf hfile
      refine .written file l status hdry hfile hres hat hstatus
        (hrewrites.resolve_iff.mpr hlast) ?_
      rw [hrewrites.at?_eq (honly l (hpath ▸ hres))]
      exact hcontent

/-- **The run lemma.** From a faithful state on, every target of a run comes to what the tree told
    at first, and only the outputs of the run change. -/
theorem generateFrom_serves {rest : List Target} {outcomes : List Outcome} {last : State}
    (h : Independent tree (served ++ rest)) (inv : Faithful tree (served ++ rest) served state)
    (hrun : generateFrom dryRun state rest = (outcomes, last)) :
    Rewrites (OutputOf tree rest) state.tree last.tree ∧
      ∀ (i : Nat) (target : Target), rest[i]? = some target →
        ∃ outcome, outcomes[i]? = some outcome ∧ Serves dryRun tree target last.tree outcome := by
  induction rest generalizing served state outcomes with
  | nil =>
      cases hrun
      exact ⟨Rewrites.refl _, nofun⟩
  | cons target rest ih =>
      obtain ⟨outcome, mid, others, hone, hrest, rfl⟩ := generateFrom_cons hrun
      obtain ⟨-, hpairs, hacross⟩ := List.pairwise_append.mp h.outputs
      obtain ⟨hlater, -⟩ := List.pairwise_cons.mp hpairs
      obtain ⟨hserves, hrewrites, hknown⟩ := generateOne_serves inv h
        (fun t ht => List.mem_append_left _ ht) (List.mem_append_right _ (.head _))
        (fun t ht => hacross t ht target (.head _)) hone
      have hfiles : Rewrites (OutputOf tree (served ++ [target])) tree mid.tree :=
        (inv.files.mono fun l ⟨t, ht, hl⟩ => ⟨t, List.mem_append_left _ ht, hl⟩).trans
          (hrewrites.mono fun l ⟨t, ht, hl⟩ => ⟨t, List.mem_append_right _ ht, hl⟩)
      rw [List.append_cons] at h hknown
      obtain ⟨hafter, hall⟩ := ih h ⟨hfiles, hknown.known⟩ hrest
      refine ⟨?_, fun i t ht => ?_⟩
      · exact (hrewrites.mono fun l ⟨t, ht, hl⟩ =>
            ⟨t, List.mem_cons.mpr (.inl (List.mem_singleton.mp ht)), hl⟩).trans
          (hafter.mono fun l ⟨t, ht, hl⟩ => ⟨t, .tail _ ht, hl⟩)
      · cases i with
        | zero =>
            cases ht
            refine ⟨outcome, rfl, hserves.later hafter ?_⟩
            rintro l hl ⟨t, ht, hl'⟩
            exact hlater t ht ⟨l, hl, hl'⟩
        | succ i => exact hall i t ht

end

/-! ## Whole runs -/

/-- Two outcomes for a target agree: both are failures, or both preview the same file in a dry run,
    or both report the same file as written in a run that writes, and then it has the same content
    in the trees that the runs leave. -/
inductive Agree (dryRun : Bool) (after after' : FileTree) : Outcome → Outcome → Prop
  | failed (cause cause' : Failure) : Agree dryRun after after' (.failed cause) (.failed cause')
  | preview (hdry : dryRun = true) (file : GeneratedFile) :
      Agree dryRun after after' (.preview file) (.preview file)
  | written (hdry : dryRun = false) (path : String) (status : WriteStatus) (content : ByteArray)
      (h : after.readBytes path = .ok content) (h' : after'.readBytes path = .ok content) :
      Agree dryRun after after' (.written path status) (.written path status)

/-- A status is known if it is known whether it is `unchanged`. -/
theorem status_eq {status status' : WriteStatus}
    (h : status = .unchanged ↔ status' = .unchanged) : status = status' := by
  cases status with
  | unchanged => exact (h.mp rfl).symm
  | written =>
      cases status' with
      | written => rfl
      | unchanged => exact h.mpr rfl

/-- What a target comes to is determined by the tree at the beginning. -/
theorem Serves.agree {dryRun : Bool} {tree last last' : FileTree} {target : Target}
    {outcome outcome' : Outcome} (h : Serves dryRun tree target last outcome)
    (h' : Serves dryRun tree target last' outcome') : Agree dryRun last last' outcome outcome' := by
  cases h with
  | noBuilder cause hfile =>
      cases h' with
      | noBuilder cause' _ => exact .failed cause cause'
      | preview file' _ hfile' => rw [hfile] at hfile'; cases hfile'
      | blocked file' l' cause' _ _ _ _ => exact .failed cause cause'
      | written file' l' _ _ hfile' _ _ _ _ _ => rw [hfile] at hfile'; cases hfile'
  | preview file hdry hfile =>
      cases h' with
      | noBuilder cause' hfile' => rw [hfile] at hfile'; cases hfile'
      | preview file' _ hfile' =>
          rw [hfile] at hfile'
          cases hfile'
          exact .preview hdry file
      | blocked file' l' cause' hdry' _ _ _ => rw [hdry] at hdry'; cases hdry'
      | written file' l' _ hdry' _ _ _ _ _ _ => rw [hdry] at hdry'; cases hdry'
  | blocked file l cause hdry hfile hres hat =>
      cases h' with
      | noBuilder cause' _ => exact .failed cause cause'
      | preview file' hdry' _ => rw [hdry] at hdry'; cases hdry'
      | blocked file' l' cause' _ _ _ _ => exact .failed cause cause'
      | written file' l' _ _ hfile' hres' hat' _ _ _ =>
          obtain rfl := Option.some.inj (hfile.symm.trans hfile')
          obtain rfl := Except.ok.inj (hres.symm.trans hres')
          exact absurd hat hat'
  | written file l status hdry hfile hres hat hstatus hlast hcontent =>
      cases h' with
      | noBuilder cause' hfile' => rw [hfile] at hfile'; cases hfile'
      | preview file' hdry' _ => rw [hdry] at hdry'; cases hdry'
      | blocked file' l' cause' _ hfile' hres' hat' =>
          obtain rfl := Option.some.inj (hfile.symm.trans hfile')
          obtain rfl := Except.ok.inj (hres.symm.trans hres')
          exact absurd hat' hat
      | written file' l' status' _ hfile' hres' _ hstatus' hlast' hcontent' =>
          obtain rfl := Option.some.inj (hfile.symm.trans hfile')
          obtain rfl := Except.ok.inj (hres.symm.trans hres')
          obtain rfl := status_eq (hstatus.trans hstatus'.symm)
          exact .written hdry _ _ _ (readBytes_eq_ok.mpr ⟨l, hlast, hcontent⟩)
            (readBytes_eq_ok.mpr ⟨l, hlast', hcontent'⟩)

/-- Independent targets are independent in any order. -/
theorem Independent.perm {tree : FileTree} {targets targets' : List Target}
    (h : Independent tree targets) (hperm : targets.Perm targets') :
    Independent tree targets' := by
  refine ⟨?_, ?_, ?_⟩
  · refine (hperm.pairwise_iff ?_).mp h.outputs
    rintro t t' hne ⟨l, hl', hl⟩
    exact hne ⟨l, hl, hl'⟩
  · intro t ht t' ht'
    exact h.sources t (hperm.mem_iff.mpr ht) t' (hperm.mem_iff.mpr ht')
  · intro t ht t' ht'
    exact h.spelling t (hperm.mem_iff.mpr ht) t' (hperm.mem_iff.mpr ht')

/-- One of several independent targets is independent. -/
theorem Independent.single {tree : FileTree} {targets : List Target}
    (h : Independent tree targets) {target : Target} (ht : target ∈ targets) :
    Independent tree [target] := by
  refine ⟨List.pairwise_singleton _ _, ?_, ?_⟩
  · intro t hmem t' hmem'
    rw [List.mem_singleton.mp hmem, List.mem_singleton.mp hmem']
    exact h.sources target ht target ht
  · intro t hmem t' hmem' _
    rw [List.mem_singleton.mp hmem, List.mem_singleton.mp hmem']

/-- What each target of a whole run comes to. -/
theorem generate_serves (dryRun : Bool) {tree : FileTree} {targets : List Target}
    (h : Independent tree targets) {i : Nat} {target : Target} (hi : targets[i]? = some target) :
    ∃ outcome, (generate dryRun tree targets).1[i]? = some outcome ∧
      Serves dryRun tree target (generate dryRun tree targets).2 outcome := by
  have inv : Faithful tree ([] ++ targets) [] ⟨{}, tree⟩ := ⟨Rewrites.refl _, nofun⟩
  exact (generateFrom_serves h inv (generateFrom_empty dryRun tree targets)).2 i target hi

/-- A directory with a source file and one that holds no source. -/
def mixedTree : FileTree :=
  ⟨[], [(["a.go".toList], .file "package p;type A struct\x7b\x7d;".toUTF8),
    (["b.go".toList], .file "func".toUTF8)]⟩

/-- A target in each of the two files. -/
def mixedTargets : List Target := [⟨"a.go", "A"⟩, ⟨"b.go", "B"⟩]

/-- The first of the two targets is written, and the second one fails. -/
theorem generate_mixed : (generate false mixedTree mixedTargets).1 =
    [.written "a_builder.go" .written,
      .failed (.source (.malformed (.unexpected "b.go" "func")))] := by
  decide +kernel

/-- **Targets of one run are isolated** from each other if no two outputs are the same file, no
    output is a source and paths that are the same are spelled the same: there is one outcome for
    each target, in the order of the targets, it agrees with the outcome of a run for this target
    alone, and it agrees with the outcome for this target in a run over the same targets in any
    other order. -/
theorem batch_isolated (dryRun : Bool) (tree : FileTree) (targets : List Target)
    (h : Independent tree targets) :
    (generate dryRun tree targets).1.length = targets.length ∧
    (∀ (i : Nat) (target : Target), targets[i]? = some target →
      ∃ outcome alone after, (generate dryRun tree targets).1[i]? = some outcome ∧
        generate dryRun tree [target] = ([alone], after) ∧
        Agree dryRun (generate dryRun tree targets).2 after outcome alone) ∧
    ∀ targets' : List Target, targets.Perm targets' → ∀ (i j : Nat) (target : Target),
      targets[i]? = some target → targets'[j]? = some target →
        ∃ outcome outcome', (generate dryRun tree targets).1[i]? = some outcome ∧
          (generate dryRun tree targets').1[j]? = some outcome' ∧
          Agree dryRun (generate dryRun tree targets).2 (generate dryRun tree targets').2
            outcome outcome' := by
  refine ⟨(generateFrom_grows (generateFrom_empty dryRun tree targets)).1, ?_, ?_⟩
  · intro i target hi
    obtain ⟨outcome, ho, hserves⟩ := generate_serves dryRun h hi
    have hsingle := h.single (List.mem_of_getElem? hi)
    obtain ⟨alone, halone, hserves'⟩ := generate_serves dryRun hsingle (i := 0) rfl
    have hlength := (generateFrom_grows (generateFrom_empty dryRun tree [target])).1
    obtain ⟨only, honly⟩ := List.length_eq_one_iff.mp hlength
    rw [honly] at halone
    cases halone
    exact ⟨outcome, alone, (generate dryRun tree [target]).2, ho, Prod.ext honly rfl,
      hserves.agree hserves'⟩
  · intro targets' hperm i j target hi hj
    obtain ⟨outcome, ho, hserves⟩ := generate_serves dryRun h hi
    obtain ⟨outcome', ho', hserves'⟩ := generate_serves dryRun (h.perm hperm) hj
    exact ⟨outcome, outcome', ho, ho', hserves.agree hserves'⟩

/-- `batch_isolated` for two targets. The first one is written in the run over both, alone and
    behind the other one, and the second one fails as it fails alone. -/
theorem batch_isolated_mixed :
    Independent mixedTree mixedTargets ∧
    (∃ after content, (generate false mixedTree mixedTargets).1[0]? =
        some (.written "a_builder.go" .written) ∧
      generate false mixedTree [⟨"a.go", "A"⟩] =
        ([.written "a_builder.go" .written], after) ∧
      (generate false mixedTree mixedTargets).2.readBytes "a_builder.go" = .ok content ∧
      after.readBytes "a_builder.go" = .ok content) ∧
    (∃ cause after, (generate false mixedTree mixedTargets).1[1]? =
        some (.failed (.source (.malformed (.unexpected "b.go" "func")))) ∧
      generate false mixedTree [⟨"b.go", "B"⟩] = ([.failed cause], after)) ∧
    (generate false mixedTree [⟨"b.go", "B"⟩, ⟨"a.go", "A"⟩]).1[1]? =
      some (.written "a_builder.go" .written) := by
  have h : Independent mixedTree mixedTargets :=
    ⟨by decide +kernel, by decide +kernel, by decide +kernel⟩
  obtain ⟨-, halone, horder⟩ := batch_isolated false mixedTree mixedTargets h
  have hfirst : (generate false mixedTree mixedTargets).1[0]? =
      some (.written "a_builder.go" .written) := by rw [generate_mixed]; rfl
  have hsecond : (generate false mixedTree mixedTargets).1[1]? =
      some (.failed (.source (.malformed (.unexpected "b.go" "func")))) := by
    rw [generate_mixed]; rfl
  refine ⟨h, ?written, ?failed, ?behind⟩
  case written =>
    obtain ⟨outcome, alone, after, ho, hrun, hagree⟩ := halone 0 ⟨"a.go", "A"⟩ rfl
    cases ho.symm.trans hfirst
    cases hagree with
    | written hdry path status content hread hread' =>
        exact ⟨after, content, hfirst, hrun, hread, hread'⟩
  case failed =>
    obtain ⟨outcome, alone, after, ho, hrun, hagree⟩ := halone 1 ⟨"b.go", "B"⟩ rfl
    cases ho.symm.trans hsecond
    cases hagree with
    | failed cause cause' => exact ⟨cause', after, hsecond, hrun⟩
  case behind =>
    obtain ⟨outcome, outcome', ho, ho', hagree⟩ :=
      horder [⟨"b.go", "B"⟩, ⟨"a.go", "A"⟩] (.swap _ _ []) 0 1 ⟨"a.go", "A"⟩ rfl rfl
    cases ho.symm.trans hfirst
    cases hagree with
    | written => exact ho'

end Batch

end FluentBuilder

import FluentBuilder.Proofs.Cache
import FluentBuilder.Proofs.Serving
import FluentBuilder.Results

/-!
# Delivery — which text a file holds after a run

A run serves its targets one after the other, and what one target wrote a later one may write
over. `Delivery` says that a target of a run was written at a location, and with which text.

* **`generateOne_effect`** — serving one target writes at most one file, the one it reports.
* **`generateFrom_content`** — the run lemma: at each location stands the text of the last
  delivery there, or, without one, the file that was there before.
* **`written_holds_last_text`** — a file that was reported as written holds the text of the last
  target written to it, and `ab_builder_written_twice` shows that this need not be its own.
* **`source_kept_unless_written`** — a file that no reported output names is left as it was, and
  `source_written_over` shows that an output can name a source.
-/

namespace FluentBuilder

/-- Two paths that lead to the same location. -/
def FileTree.SameFile (tree : FileTree) (path path' : String) : Prop :=
  ∃ l, tree.resolve path = .ok l ∧ tree.resolve path' = .ok l

instance (tree : FileTree) (path path' : String) : Decidable (tree.SameFile path path') :=
  decidable_of_iff
    (∃ l ∈ (tree.resolve path).toOption, (tree.resolve path').toOption = some l)
    (by
      constructor
      · rintro ⟨l, hl, hl'⟩
        exact ⟨l, toOption_eq_some.mp hl, toOption_eq_some.mp hl'⟩
      · rintro ⟨l, hl, hl'⟩
        exact ⟨l, toOption_eq_some.mpr hl, toOption_eq_some.mpr hl'⟩)

namespace Batch

open FileTree GeneratedFile

/-- The text of the builder for a target, generated from the source file that a cache holds for
    its path. -/
def textFor (cache : SourceCache) (target : Target) : Option String :=
  match cache.find? target.path with
  | some (some source) => (source.generate target.name).toOption
  | _ => none

/-- A cache that holds more generates the same texts. -/
theorem textFor_of_extends {before after : SourceCache} (h : before.Extends after)
    {target : Target} {text : String} (htext : textFor before target = some text) :
    textFor after target = some text := by
  unfold textFor at htext ⊢
  cases hfind : before.find? target.path with
  | none => rw [hfind] at htext; cases htext
  | some known => rw [h _ _ hfind]; rw [hfind] at htext; exact htext

/-! ## One target -/

/-- The builder for a target was written at a location with a text. -/
structure DeliveredTo (last : State) (target : Target) (outcome : Outcome) (l : Location)
    (text : String) : Prop where
  outcome_eq : ∃ status, outcome = .written target.outputPath status
  generated : textFor last.cache target = some text
  leads : last.tree.resolve target.outputPath = .ok l

/-- What serving one target does: it writes its builder at one location, or no file at all. -/
inductive Effect (before after : State) (target : Target) (outcome : Outcome) : Prop where
  | delivered (l : Location) (text : String) (reached : DeliveredTo after target outcome l text)
      (holds : after.tree.at? l = some (.file text.toUTF8))
      (grows : Grows (· = l) before.tree after.tree)
  | idle (unwritten : ∀ path status, outcome ≠ .written path status)
      (grows : Grows (fun _ => False) before.tree after.tree)

/-- **Serving one target writes at most one file**, and the cache only grows. -/
theorem generateOne_effect {dryRun : Bool} {before after : State} {target : Target}
    {outcome : Outcome} (h : generateOne dryRun before target = (outcome, after)) :
    before.cache.Extends after.cache ∧ Effect before after target outcome := by
  obtain ⟨found, hget, hcases⟩ := generateOne_cases h
  refine ⟨SourceCache.get_extends hget, ?_⟩
  rcases hcases with ⟨cause, -, rfl, htree⟩ | ⟨file, hfile, hdeliver⟩
  · exact .idle (fun _ _ heq => by cases heq) (htree ▸ Grows.refl _)
  · obtain ⟨source, rfl, hpath, hgen⟩ := built_eq_ok hfile
    have htext : textFor after.cache target = some file.content := by
      simp only [textFor, SourceCache.get_find? hget, Except.toOption, hgen]
    cases dryRun with
    | true =>
        obtain ⟨rfl, htree⟩ := Prod.mk.inj hdeliver
        exact .idle (fun _ _ heq => by cases heq) (htree ▸ Grows.refl _)
    | false =>
        cases hwrite : file.write before.tree with
        | mk result tree =>
            have heffect := write_effect hwrite
            simp only [deliver, hwrite, Bool.false_eq_true, if_false] at hdeliver
            cases result with
            | error e =>
                obtain ⟨rfl, rfl⟩ := Prod.mk.inj hdeliver
                exact .idle (fun _ _ heq => by cases heq) heffect
            | ok status =>
                obtain ⟨rfl, rfl⟩ := Prod.mk.inj hdeliver
                obtain ⟨l, hl⟩ := heffect
                refine .delivered l file.content ?_ hl.holds hl.grows
                exact ⟨⟨status, by rw [hpath]⟩, htext, hpath ▸ hl.leads⟩

/-- The files that change while one target is served are those of its delivery. -/
theorem Effect.grows_any {before after : State} {target : Target} {outcome : Outcome}
    (h : Effect before after target outcome) :
    Grows (fun _ => True) before.tree after.tree := by
  cases h with
  | delivered l text reached holds grows => exact grows.mono fun _ _ => trivial
  | idle unwritten grows => exact grows.mono fun _ _ => trivial

/-- In a dry run the tree stays as it is. -/
theorem generateOne_dryRun {before after : State} {target : Target} {outcome : Outcome}
    (h : generateOne true before target = (outcome, after)) : after.tree = before.tree := by
  obtain ⟨-, -, ⟨-, -, -, htree⟩ | ⟨file, -, hdeliver⟩⟩ := generateOne_cases h
  · exact htree
  · exact (Prod.mk.inj hdeliver).2.symm

/-! ## A whole run -/

/-- The target at a position of a run was delivered to a location. -/
def Delivery (targets : List Target) (outcomes : List Outcome) (last : State) (i : Nat)
    (l : Location) (text : String) : Prop :=
  ∃ target outcome, targets[i]? = some target ∧ outcomes[i]? = some outcome ∧
    DeliveredTo last target outcome l text

/-- Positions behind the first one are positions of the rest. -/
theorem delivery_succ {target : Target} {targets : List Target} {outcome : Outcome}
    {outcomes : List Outcome} {last : State} {i : Nat} {l : Location} {text : String} :
    Delivery (target :: targets) (outcome :: outcomes) last (i + 1) l text ↔
      Delivery targets outcomes last i l text := by
  simp only [Delivery, List.getElem?_cons_succ]

/-- The first position is that of the first target. -/
theorem delivery_zero {target : Target} {targets : List Target} {outcome : Outcome}
    {outcomes : List Outcome} {last : State} {l : Location} {text : String} :
    Delivery (target :: targets) (outcome :: outcomes) last 0 l text ↔
      DeliveredTo last target outcome l text := by
  simp [Delivery]

/-- A delivery is to one location with one text. -/
theorem Delivery.unique {targets : List Target} {outcomes : List Outcome} {last : State}
    {i : Nat} {l l' : Location} {text text' : String}
    (h : Delivery targets outcomes last i l text)
    (h' : Delivery targets outcomes last i l' text') : l = l' ∧ text = text' := by
  obtain ⟨target, outcome, ht, -, hd⟩ := h
  obtain ⟨target', outcome', ht', -, hd'⟩ := h'
  obtain rfl : target = target' := Option.some.inj (ht.symm.trans ht')
  exact ⟨Except.ok.inj (hd.leads.symm.trans hd'.leads),
    Option.some.inj (hd.generated.symm.trans hd'.generated)⟩

section

variable {dryRun : Bool} {before last : State} {targets : List Target} {outcomes : List Outcome}

/-- Over a run the cache and the tree only grow, and every target has its outcome. -/
theorem generateFrom_grows (h : generateFrom dryRun before targets = (outcomes, last)) :
    outcomes.length = targets.length ∧ before.cache.Extends last.cache ∧
      Grows (fun _ => True) before.tree last.tree := by
  induction targets generalizing before outcomes with
  | nil =>
      cases h
      exact ⟨rfl, SourceCache.Extends.refl _, Grows.refl _⟩
  | cons target targets ih =>
      obtain ⟨outcome, mid, rest, hone, hrest, rfl⟩ := generateFrom_cons h
      obtain ⟨hext, heffect⟩ := generateOne_effect hone
      obtain ⟨hlen, hext', hgrow'⟩ := ih hrest
      exact ⟨congrArg (· + 1) hlen, hext.trans hext', heffect.grows_any.trans hgrow'⟩

/-- A delivery is one for every later state of the run. -/
theorem DeliveredTo.later {target : Target} {outcome : Outcome} {l : Location} {text : String}
    (h : generateFrom dryRun before targets = (outcomes, last))
    (hd : DeliveredTo before target outcome l text) :
    DeliveredTo last target outcome l text := by
  obtain ⟨-, hext, hgrow⟩ := generateFrom_grows h
  exact ⟨hd.outcome_eq, textFor_of_extends hext hd.generated, hgrow.resolve hd.leads⟩

/-- Every outcome that reports a written file is a delivery. -/
theorem delivery_of_written {i : Nat} {path : String} {status : WriteStatus}
    (h : generateFrom dryRun before targets = (outcomes, last))
    (hi : outcomes[i]? = some (.written path status)) :
    ∃ l text, Delivery targets outcomes last i l text := by
  induction targets generalizing before outcomes i with
  | nil =>
      cases h
      cases hi
  | cons target targets ih =>
      obtain ⟨outcome, mid, rest, hone, hrest, rfl⟩ := generateFrom_cons h
      cases i with
      | zero =>
          cases hi
          cases (generateOne_effect hone).2 with
          | delivered l text reached holds grows =>
              exact ⟨l, text, delivery_zero.mpr (reached.later hrest)⟩
          | idle unwritten grows => exact absurd rfl (unwritten path status)
      | succ i =>
          obtain ⟨l, text, hd⟩ := ih hrest hi
          exact ⟨l, text, delivery_succ.mpr hd⟩

/-- **What a location holds after a run**: the text of the last delivery there, or, if there was
    none, the file that stood there before. -/
theorem generateFrom_content (h : generateFrom dryRun before targets = (outcomes, last))
    (l : Location) :
    (∃ i text, Delivery targets outcomes last i l text ∧
        last.tree.at? l = some (.file text.toUTF8) ∧
        ∀ j, i < j → ∀ text', ¬ Delivery targets outcomes last j l text') ∨
      ((∀ i text, ¬ Delivery targets outcomes last i l text) ∧
        ∀ content, before.tree.at? l = some (.file content) →
          last.tree.at? l = some (.file content)) := by
  induction targets generalizing before outcomes with
  | nil =>
      cases h
      refine .inr ⟨?_, fun _ h => h⟩
      rintro i text ⟨target, outcome, ht, -, -⟩
      cases ht
  | cons target targets ih =>
      obtain ⟨outcome, mid, rest, hone, hrest, rfl⟩ := generateFrom_cons h
      rcases ih hrest with ⟨i, text, hd, hat, hlast⟩ | ⟨hnone, hkeep⟩
      · refine .inl ⟨i + 1, text, delivery_succ.mpr hd, hat, ?_⟩
        intro j hj text' hd'
        obtain ⟨j, rfl⟩ : ∃ k, j = k + 1 := ⟨j - 1, by omega⟩
        exact hlast j (by omega) text' (delivery_succ.mp hd')
      · -- nothing later is delivered here, so the first target decides
        cases (generateOne_effect hone).2 with
        | delivered l' text reached holds grows =>
            have hfirst : Delivery (target :: targets) (outcome :: rest) last 0 l' text :=
              delivery_zero.mpr (reached.later hrest)
            by_cases hl : l = l'
            · subst hl
              refine .inl ⟨0, text, hfirst, hkeep _ holds, ?_⟩
              intro j hj text' hd'
              obtain ⟨j, rfl⟩ : ∃ k, j = k + 1 := ⟨j - 1, by omega⟩
              exact hnone j text' (delivery_succ.mp hd')
            · refine .inr ⟨?_, fun content hc => hkeep _ (grows.file hl hc)⟩
              intro i text' hd'
              cases i with
              | zero => exact hl (hd'.unique hfirst).1
              | succ i => exact hnone i text' (delivery_succ.mp hd')
        | idle unwritten grows =>
            refine .inr ⟨?_, fun content hc => hkeep _ (grows.file (fun h => h) hc)⟩
            intro i text' hd'
            cases i with
            | zero =>
                obtain ⟨status, hw⟩ := (delivery_zero.mp hd').outcome_eq
                exact unwritten _ _ hw
            | succ i => exact hnone i text' (delivery_succ.mp hd')

/-- A dry run leaves the tree as it is. -/
theorem generateFrom_dryRun (h : generateFrom true before targets = (outcomes, last)) :
    last.tree = before.tree := by
  induction targets generalizing before outcomes with
  | nil => cases h; rfl
  | cons target targets ih =>
      obtain ⟨outcome, mid, rest, hone, hrest, rfl⟩ := generateFrom_cons h
      exact (ih hrest).trans (generateOne_dryRun hone)

/-! ## What the outcomes say about the files -/

/-- In a run, the outcome at a position reports a file that a path names as well. -/
def WritesTo (outcomes : List Outcome) (tree : FileTree) (path : String) (i : Nat) : Prop :=
  ∃ path' status, outcomes[i]? = some (.written path' status) ∧ tree.SameFile path' path

/-- The outcome at a position is the last one that reports the file of a path. -/
def WritesLastTo (outcomes : List Outcome) (tree : FileTree) (path : String) (i : Nat) : Prop :=
  WritesTo outcomes tree path i ∧ ∀ j, i < j → ¬ WritesTo outcomes tree path j

/-- The outcomes that report the file of a path are the deliveries to its location. -/
theorem writesTo_iff_delivery (h : generateFrom dryRun before targets = (outcomes, last))
    {path : String} {l : Location} (hl : last.tree.resolve path = .ok l) (i : Nat) :
    WritesTo outcomes last.tree path i ↔ ∃ text, Delivery targets outcomes last i l text := by
  constructor
  · rintro ⟨path', status, hi, l', hpath', hpath⟩
    obtain ⟨l'', text, hd⟩ := delivery_of_written h hi
    have hsame : l'' = l := by
      obtain ⟨target, outcome, -, ho, hto⟩ := hd
      obtain ⟨status', rfl⟩ := hto.outcome_eq
      cases ho.symm.trans hi
      exact Except.ok.inj (hto.leads.symm.trans (hpath'.trans (hpath.symm.trans hl)))
    exact ⟨text, hsame ▸ hd⟩
  · rintro ⟨text, target, outcome, -, ho, hto⟩
    obtain ⟨status, rfl⟩ := hto.outcome_eq
    exact ⟨_, status, ho, l, hto.leads, hl⟩

/-- An outcome reports the file of the path that it names. -/
theorem writesTo_of_written (h : generateFrom dryRun before targets = (outcomes, last)) {i : Nat}
    {path : String} {status : WriteStatus} (hi : outcomes[i]? = some (.written path status)) :
    WritesTo outcomes last.tree path i := by
  obtain ⟨l, text, target, outcome, -, ho, hto⟩ := delivery_of_written h hi
  obtain ⟨status', rfl⟩ := hto.outcome_eq
  cases ho.symm.trans hi
  exact ⟨_, status, hi, l, hto.leads, hto.leads⟩

/-- The last delivery to a location is the last outcome that reports its file. -/
theorem writesLastTo_of_delivery (h : generateFrom dryRun before targets = (outcomes, last))
    {path : String} {l : Location} (hl : last.tree.resolve path = .ok l) {i : Nat} {text : String}
    (hd : Delivery targets outcomes last i l text)
    (hlast : ∀ j, i < j → ∀ text', ¬ Delivery targets outcomes last j l text') :
    WritesLastTo outcomes last.tree path i := by
  refine ⟨(writesTo_iff_delivery h hl i).mpr ⟨text, hd⟩, fun j hj hw => ?_⟩
  obtain ⟨text', hd'⟩ := (writesTo_iff_delivery h hl j).mp hw
  exact hlast j hj text' hd'

/-- At most one outcome is the last one. -/
theorem WritesLastTo.unique {tree : FileTree} {path : String} {i j : Nat}
    (hi : WritesLastTo outcomes tree path i) (hj : WritesLastTo outcomes tree path j) : i = j := by
  rcases Nat.lt_trichotomy i j with hlt | heq | hgt
  · exact absurd hj.1 (hi.2 j hlt)
  · exact heq
  · exact absurd hi.1 (hj.2 i hgt)

/-- A path names a file with exactly the text generated for the target at a position. -/
def HoldsTextOf (last : State) (targets : List Target) (path : String) (i : Nat) : Prop :=
  ∃ target text, targets[i]? = some target ∧ textFor last.cache target = some text ∧
    last.tree.readBytes path = .ok text.toUTF8

instance (last : State) (targets : List Target) (path : String) (i : Nat) :
    Decidable (HoldsTextOf last targets path i) :=
  decidable_of_iff
    (∃ text ∈ (targets[i]?).bind (textFor last.cache),
      (last.tree.readText path).toOption = some text)
    (by
      constructor
      · rintro ⟨text, htext, hread⟩
        obtain ⟨target, ht, htext⟩ := Option.bind_eq_some_iff.mp htext
        exact ⟨target, text, ht, htext, readText_eq_ok.mp (toOption_eq_some.mp hread)⟩
      · rintro ⟨target, text, ht, htext, hread⟩
        exact ⟨text, Option.bind_eq_some_iff.mpr ⟨target, ht, htext⟩,
          toOption_eq_some.mpr (readText_eq_ok.mpr hread)⟩)

/-- A file that some outcome reports holds the text of the last target whose outcome does. -/
theorem holdsTextOf_of_writesLastTo (h : generateFrom dryRun before targets = (outcomes, last))
    {path : String} {i : Nat} (hi : WritesLastTo outcomes last.tree path i) :
    HoldsTextOf last targets path i := by
  obtain ⟨-, -, -, l, -, hl⟩ := hi.1
  obtain ⟨text, hd⟩ := (writesTo_iff_delivery h hl i).mp hi.1
  rcases generateFrom_content h l with ⟨j, text', hd', hat, hlast⟩ | ⟨hnone, -⟩
  · obtain rfl := hi.unique (writesLastTo_of_delivery h hl hd' hlast)
    obtain ⟨target, outcome, ht, -, hto⟩ := hd'
    exact ⟨target, text', ht, hto.generated, readBytes_eq_ok.mpr ⟨l, hl, hat⟩⟩
  · exact absurd hd (hnone i text)

end

/-- The state at the end of a run from an empty cache. -/
def finalState (dryRun : Bool) (tree : FileTree) (targets : List Target) : State :=
  (generateFrom dryRun ⟨{}, tree⟩ targets).2

/-- A run is the run from an empty cache. -/
theorem generateFrom_empty (dryRun : Bool) (tree : FileTree) (targets : List Target) :
    generateFrom dryRun ⟨{}, tree⟩ targets =
      ((generate dryRun tree targets).1, finalState dryRun tree targets) := rfl

/-- The tree that a run leaves is that of its last state. -/
theorem generate_tree (dryRun : Bool) (tree : FileTree) (targets : List Target) :
    (generate dryRun tree targets).2 = (finalState dryRun tree targets).tree := rfl

/-- An outcome of a whole run reports the file of the path that it names. -/
theorem generate_writesTo {dryRun : Bool} {tree : FileTree} {targets : List Target} {i : Nat}
    {path : String} {status : WriteStatus}
    (hi : (generate dryRun tree targets).1[i]? = some (.written path status)) :
    WritesTo (generate dryRun tree targets).1 (generate dryRun tree targets).2 path i := by
  rw [generate_tree]
  exact writesTo_of_written (generateFrom_empty dryRun tree targets) hi

/-- A directory with one source file. -/
def pointTree : FileTree :=
  ⟨[], [(["a.go".toList], .file "package p;type A struct\x7b\x7d;".toUTF8)]⟩

/-- A directory with two source files whose structs have the same snake case. -/
def acronymTree : FileTree :=
  ⟨[], [(["a.go".toList], .file "package p;type AB struct\x7b\x7d;".toUTF8),
    (["b.go".toList], .file "package p;type Ab struct\x7b\x7d;".toUTF8)]⟩

/-- A target in each of the two files. -/
def acronymTargets : List Target := [⟨"a.go", "AB"⟩, ⟨"b.go", "Ab"⟩]

/-- Both targets are reported as written to the same path. -/
theorem generate_acronyms : (generate false acronymTree acronymTargets).1 =
    [.written "ab_builder.go" .written, .written "ab_builder.go" .written] := by
  decide +kernel

/-- A directory whose source file has the name of the builder for its struct. -/
def builderTree : FileTree :=
  ⟨[], [(["a_builder.go".toList], .file "package p;type A struct\x7b\x7d;".toUTF8)]⟩

/-- **The last one written stays.** The path that is reported for a target is its output path,
    a text was generated for it, and after the run the path holds the text of the last target
    reported for the same file. That is the target itself if no later one is. -/
theorem written_holds_last_text (tree : FileTree) (targets : List Target) (i : Nat)
    (path : String) (status : WriteStatus)
    (hi : (generate false tree targets).1[i]? = some (.written path status)) :
    (∃ target text, targets[i]? = some target ∧ path = target.outputPath ∧
      textFor (finalState false tree targets).cache target = some text) ∧
    ∃ j, i ≤ j ∧
      WritesLastTo (generate false tree targets).1 (generate false tree targets).2 path j ∧
      HoldsTextOf (finalState false tree targets) targets path j ∧
      ((∀ k, i < k → ¬ WritesTo (generate false tree targets).1
        (generate false tree targets).2 path k) → j = i) := by
  have h := generateFrom_empty false tree targets
  rw [generate_tree]
  obtain ⟨l, text, hd⟩ := delivery_of_written h hi
  have hd' := hd
  obtain ⟨target, outcome, ht, ho, hto⟩ := hd'
  obtain ⟨status', rfl⟩ := hto.outcome_eq
  cases ho.symm.trans hi
  have hwrites := writesTo_of_written h hi
  refine ⟨⟨target, text, ht, rfl, hto.generated⟩, ?_⟩
  rcases generateFrom_content h l with ⟨j, text', hdj, hat, hlast⟩ | ⟨hnone, -⟩
  · have hj := writesLastTo_of_delivery h hto.leads hdj hlast
    have hij : i ≤ j := Nat.le_of_not_lt fun hlt => hj.2 i hlt hwrites
    exact ⟨j, hij, hj, holdsTextOf_of_writesLastTo h hj, fun hown => hj.unique ⟨hwrites, hown⟩⟩
  · exact absurd hd (hnone i text)

/-- `written_holds_last_text` for the first of two targets that share their output: what stays is
    the text of the second one. -/
theorem written_holds_last_text_shared :
    (generate false acronymTree acronymTargets).1[0]? =
      some (.written "ab_builder.go" .written) ∧
    WritesLastTo (generate false acronymTree acronymTargets).1
      (generate false acronymTree acronymTargets).2 "ab_builder.go" 1 ∧
    HoldsTextOf (finalState false acronymTree acronymTargets) acronymTargets "ab_builder.go" 1 := by
  have hi : (generate false acronymTree acronymTargets).1[0]? =
      some (.written "ab_builder.go" .written) := by rw [generate_acronyms]; rfl
  obtain ⟨-, j, -, hlast, hholds, -⟩ := written_holds_last_text _ _ _ _ _ hi
  -- both outcomes report the path, so the last one that does is the second one
  obtain ⟨path, status, hj, -⟩ := hlast.1
  rw [generate_acronyms] at hj
  have hle : j ≤ 1 := Nat.le_of_lt_succ (List.getElem?_eq_some_iff.mp hj).1
  have hother : (generate false acronymTree acronymTargets).1[1]? =
      some (.written "ab_builder.go" .written) := by rw [generate_acronyms]; rfl
  have hge : 1 ≤ j := Nat.le_of_not_lt fun hlt => hlast.2 1 hlt (generate_writesTo hother)
  obtain rfl : j = 1 := Nat.le_antisymm hle hge
  exact ⟨hi, hlast, hholds⟩

/-- **A text can be lost.** `AB` and `Ab` have the same snake case, so the second builder is
    written over the first one, which is reported as written all the same. -/
theorem ab_builder_written_twice :
    ¬ ∀ tree targets i path status,
      (generate false tree targets).1[i]? = some (.written path status) →
        HoldsTextOf (finalState false tree targets) targets path i := by
  intro h
  have hlost : ¬ HoldsTextOf (finalState false acronymTree acronymTargets) acronymTargets
      "ab_builder.go" 0 := by
    rintro ⟨target, text, htarget, htext, hread⟩
    cases htarget
    have hother : ((finalState false acronymTree acronymTargets).tree.readBytes
        "ab_builder.go").toOption.map (·.data.toList) ≠
          (textFor (finalState false acronymTree acronymTargets).cache
            ⟨"a.go", "AB"⟩).map (·.toUTF8.data.toList) := by decide +kernel
    rw [hread, htext] at hother
    exact hother rfl
  refine hlost (h _ _ 0 "ab_builder.go" .written ?_)
  rw [generate_acronyms]
  rfl

/-- **Inputs are left as they are** unless an output names them: a file that a path named before
    a run is kept if no outcome reports it as written, and holds the text of the last target
    reported for it otherwise. A dry run changes nothing at all. -/
theorem source_kept_unless_written (dryRun : Bool) (tree : FileTree) (targets : List Target)
    (path : String) (content : ByteArray) (hread : tree.readBytes path = .ok content) :
    (dryRun = true → (generate dryRun tree targets).2 = tree) ∧
    ((∀ i, ¬ WritesTo (generate dryRun tree targets).1 (generate dryRun tree targets).2 path i) →
      (generate dryRun tree targets).2.readBytes path = .ok content) ∧
    (∀ i, WritesLastTo (generate dryRun tree targets).1 (generate dryRun tree targets).2 path i →
      HoldsTextOf (finalState dryRun tree targets) targets path i) := by
  have h := generateFrom_empty dryRun tree targets
  rw [generate_tree]
  refine ⟨?_, fun hnone => ?_, fun i hi => holdsTextOf_of_writesLastTo h hi⟩
  · rintro rfl
    exact generateFrom_dryRun h
  · obtain ⟨l, hres, hat⟩ := readBytes_eq_ok.mp hread
    obtain ⟨-, -, hgrow⟩ := generateFrom_grows h
    have hl := hgrow.resolve hres
    rcases generateFrom_content h l with ⟨i, text, hd, -, -⟩ | ⟨-, hkeep⟩
    · exact absurd ((writesTo_iff_delivery h hl i).mpr ⟨text, hd⟩) (hnone i)
    · exact readBytes_eq_ok.mpr ⟨l, hl, hkeep content hat⟩

/-- `source_kept_unless_written` for two runs that write: the source `a.go` is kept, since the only
    output is another file, and the source `a_builder.go` holds the text of the builder for its own
    struct. -/
theorem source_kept_unless_written_both :
    pointTree.readBytes "a.go" = .ok "package p;type A struct{};".toUTF8 ∧
    (generate false pointTree [⟨"a.go", "A"⟩]).2.readBytes "a.go" =
      .ok "package p;type A struct{};".toUTF8 ∧
    builderTree.readBytes "a_builder.go" = .ok "package p;type A struct{};".toUTF8 ∧
    HoldsTextOf (finalState false builderTree [⟨"a_builder.go", "A"⟩]) [⟨"a_builder.go", "A"⟩]
      "a_builder.go" 0 := by
  have hread : pointTree.readBytes "a.go" = .ok "package p;type A struct{};".toUTF8 :=
    toOption_eq_some.mp (by decide +kernel)
  have hread' : builderTree.readBytes "a_builder.go" =
      .ok "package p;type A struct{};".toUTF8 := toOption_eq_some.mp (by decide +kernel)
  have hout : (generate false pointTree [⟨"a.go", "A"⟩]).1 =
      [.written "a_builder.go" .written] := by decide +kernel
  have hout' : (generate false builderTree [⟨"a_builder.go", "A"⟩]).1 =
      [.written "a_builder.go" .written] := by decide +kernel
  have hapart : ¬ (generate false pointTree [⟨"a.go", "A"⟩]).2.SameFile "a_builder.go" "a.go" := by
    decide +kernel
  refine ⟨hread, ?_, hread', ?_⟩
  · refine (source_kept_unless_written false pointTree _ _ _ hread).2.1 ?_
    rintro i ⟨path, status, hi, hsame⟩
    rw [hout] at hi
    obtain ⟨hi, hpath⟩ := List.getElem?_eq_some_iff.mp hi
    obtain rfl : i = 0 := Nat.lt_one_iff.mp hi
    cases hpath
    exact hapart hsame
  · have hfirst : (generate false builderTree [⟨"a_builder.go", "A"⟩]).1[0]? =
        some (.written "a_builder.go" .written) := by rw [hout']; rfl
    refine (source_kept_unless_written false builderTree _ _ _ hread').2.2 0
      ⟨generate_writesTo hfirst, ?_⟩
    rintro j hj ⟨path, status, hi, -⟩
    rw [hout'] at hi
    have hlt : j < 1 := (List.getElem?_eq_some_iff.mp hi).1
    omega

/-- **An input can be lost.** The builder for the struct `A` of `a_builder.go` is written over
    its own source. -/
theorem source_written_over :
    ¬ ∀ dryRun tree (targets : List Target) (target : Target) content, target ∈ targets →
      tree.readBytes target.path = .ok content →
        (generate dryRun tree targets).2.readBytes target.path = .ok content := by
  intro h
  have hread : builderTree.readBytes "a_builder.go" =
      .ok "package p;type A struct\x7b\x7d;".toUTF8 := toOption_eq_some.mp (by decide +kernel)
  have hlost : ((generate false builderTree [⟨"a_builder.go", "A"⟩]).2.readBytes
      "a_builder.go").toOption ≠ some "package p;type A struct\x7b\x7d;".toUTF8 := by
    decide +kernel
  exact hlost (toOption_eq_some.mpr
    (h false builderTree [⟨"a_builder.go", "A"⟩] ⟨"a_builder.go", "A"⟩ _ (.head _) hread))

end Batch

end FluentBuilder

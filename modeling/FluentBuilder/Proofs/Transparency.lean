import FluentBuilder.Proofs.History
import FluentBuilder.Proofs.Resolve

/-!
# Transparency — what a cache answers and what reading answers

A cache compares paths by their components and reads them by their text. The two agree on paths
that end in a name, but a path with a slash or a `.` at its end goes on behind the file that it
names and cannot be read. So a cache answers for the first spelling of a path.

* **`resolve_eq_follow_names`** — a path that ends in a name is followed by its components.
* **`readText_congr`** — such paths are read alike if their components are the same.
* **`readBytes_of_not_endsInName`** — no other path can be read.
* **`gets_transparent`** — what the uses of a cache answer while the files stay as they are.
-/

namespace FluentBuilder

namespace Path

/-- Decide whether a path ends in a name, not in a slash or a `.` component. -/
def endsInName (path : String) : Bool := (segments path.toList).getLast?.any isName

/-- The components of a path with a root. -/
theorem components_slash {path : String} {rest : List Char} (h : path.toList = '/' :: rest) :
    components path = ⟨true, false, (segments rest).filter isName⟩ := by
  unfold components
  rw [h]
  rfl

/-- The components of a path without a root. -/
theorem components_of_ne_slash {path : String} (h : ∀ rest, path.toList ≠ '/' :: rest) :
    (components path).rooted = false ∧
      (components path).names = (segments path.toList).filter isName := by
  unfold components
  split
  case h_1 rest hcs => exact absurd hcs (h rest)
  case h_2 =>
    split
    case h_1 hseg => rw [hseg]; exact ⟨rfl, rfl⟩
    case h_2 hseg => exact absurd hseg (segments_ne_nil _)

/-- A path ends in a name if its last segment is one. -/
theorem endsInName_iff {path : String} :
    endsInName path = true ↔
      ∃ last, (segments path.toList).getLast? = some last ∧ isName last = true := by
  unfold endsInName
  cases (segments path.toList).getLast? <;> simp

/-- What a path ends in is what it ends in behind its root. -/
theorem getLast?_segments_slash (rest : List Char) :
    (segments ('/' :: rest)).getLast? = (segments rest).getLast? := by
  rw [show segments ('/' :: rest) = [] :: segments rest from segments_append_slash [] rest]
  cases hrest : segments rest with
  | nil => exact absurd hrest (segments_ne_nil rest)
  | cons s others => exact List.getLast?_cons_cons

end Path

namespace FileTree

open FluentBuilder.Path

variable {tree : FileTree} {path : String}

/-! ## Paths that end in a name -/

/-- Segments that do not count make no difference in front of a name. -/
theorem follow_filter_isName {segments : List (List Char)} {last : List Char}
    (hlast : segments.getLast? = some last) (hname : isName last = true) (start : Location) :
    tree.follow start segments = tree.follow start (segments.filter isName) := by
  induction segments generalizing start with
  | nil => cases hlast
  | cons s rest ih =>
      cases rest with
      | nil =>
          obtain rfl : s = last := by simpa using hlast
          rw [List.filter_cons_of_pos hname, List.filter_nil]
      | cons t more =>
          rw [List.getLast?_cons_cons] at hlast
          by_cases hs : isName s = true
          · rw [List.filter_cons_of_pos hs, follow, ih hlast]
            rfl
          · -- a segment that does not count asks for a directory, as the next one does
            rw [List.filter_cons_of_neg hs, ← ih hlast]
            simp only [follow, step_of_not_name (Bool.not_eq_true _ ▸ hs)]
            split <;> rfl

/-- Where the components of a path are followed from. -/
def base (tree : FileTree) (components : Components) : Location :=
  if components.rooted then [] else tree.workingDirectory

/-- **A path that ends in a name is followed by its components.** -/
theorem resolve_eq_follow_names (h : endsInName path = true) :
    tree.resolve path = tree.follow (tree.base (components path)) (components path).names := by
  obtain ⟨last, hlast, hname⟩ := endsInName_iff.mp h
  have hne : (path == "") = false := by
    refine beq_false_of_ne ?_
    rintro rfl
    cases h
  simp only [resolve, hne, Bool.false_eq_true, if_false]
  unfold beginning
  split
  case h_1 rest hcs =>
    rw [hcs, getLast?_segments_slash] at hlast
    rw [components_slash hcs]
    exact follow_filter_isName hlast hname []
  case h_2 hcs =>
    obtain ⟨hrooted, hnames⟩ := components_of_ne_slash hcs
    rw [hnames, base, hrooted]
    exact follow_filter_isName hlast hname _

/-- **Paths that end in a name are read alike if they are the same.** -/
theorem readText_congr {a b : String} (hsame : same a b = true) (ha : endsInName a = true)
    (hb : endsInName b = true) : tree.readText a = tree.readText b := by
  simp only [readText, readBytes, resolve_eq_follow_names ha, resolve_eq_follow_names hb,
    same_iff.mp hsame]

/-! ## Other paths -/

/-- A path is followed by segments that end as the path does. -/
theorem resolve_eq_follow (tree : FileTree) (hne : path ≠ "") :
    ∃ start segments, tree.resolve path = tree.follow start segments ∧
      segments.getLast? = (Path.segments path.toList).getLast? := by
  simp only [resolve, beq_false_of_ne hne, Bool.false_eq_true, if_false]
  unfold beginning
  split
  case h_1 rest hcs => exact ⟨_, _, rfl, by rw [hcs, getLast?_segments_slash]⟩
  case h_2 => exact ⟨_, _, rfl, rfl⟩

/-- **A path that does not end in a name cannot be read**: it leads to a directory if it leads
    anywhere. -/
theorem readBytes_of_not_endsInName (h : endsInName path = false) (content : ByteArray) :
    tree.readBytes path ≠ .ok content := by
  intro hread
  obtain ⟨l, hres, hat⟩ := readBytes_eq_ok.mp hread
  have hne : path ≠ "" := by
    rintro rfl
    cases hres
  obtain ⟨start, segments, hfollow, hlast⟩ := resolve_eq_follow tree hne
  obtain ⟨last, hsegment⟩ : ∃ last, (Path.segments path.toList).getLast? = some last :=
    ⟨_, List.getLast?_eq_some_getLast (segments_ne_nil _)⟩
  have hname : isName last = false := by
    simpa [endsInName, hsegment] using h
  obtain ⟨front, rfl⟩ := List.getLast?_eq_some_iff.mp (hlast.trans hsegment)
  obtain ⟨mid, -, hstep⟩ := follow_append_eq_ok.mp (hfollow.symm.trans hres)
  obtain ⟨hdir, hl⟩ := follow_cons_eq_ok.mp hstep
  rw [step_of_not_name hname] at hl
  cases hl
  cases hdir.symm.trans hat

end FileTree

/-! ## Uses while the files stay as they are -/

/-- Two paths that are read alike hold the same source file. -/
theorem readSource_congr {tree : FileTree} {a b : String}
    (h : tree.readText a = tree.readText b) :
    (readSource tree a).toOption = (readSource tree b).toOption := by
  have hparse : ∀ source, (Go.SourceFile.parse a source).toOption =
      (Go.SourceFile.parse b source).toOption := by
    intro source
    unfold Go.SourceFile.parse
    cases Go.readTree source with
    | none => rfl
    | some t =>
        simp only
        cases t.toFile? <;> rfl
  rw [readSource_toOption, readSource_toOption, h]
  simp only [hparse]

namespace SourceCache

variable {tree : FileTree} {uses : List Use} {last : SourceCache}

/-- The files are the same at every use if no event changes them. -/
theorem history_tree (cache : SourceCache) (tree : FileTree) (paths : List String) :
    ∀ use ∈ (history cache tree (paths.map .use)).1, use.tree = tree := by
  induction paths generalizing cache with
  | nil => exact nofun
  | cons path paths ih =>
      intro use huse
      rcases List.mem_cons.mp huse with rfl | huse
      · rfl
      · exact ih _ use huse

/-- The spelling of the first use of a path among earlier paths, or its own. -/
def spellingRead (earlier : List String) (path : String) : String :=
  (earlier.find? (Path.same · path)).getD path

/-- The spelling that is read is one of the path. -/
theorem same_spellingRead (earlier : List String) (path : String) :
    Path.same (spellingRead earlier path) path = true := by
  unfold spellingRead
  cases h : earlier.find? (Path.same · path) with
  | none => exact Path.same_refl path
  | some first =>
      have hsame := List.find?_some h
      exact hsame

/-- What a use is answered while the files stay as they are: what its first spelling holds. -/
theorem answerBehind_still {earlier : List Use}
    (hanswers : ∀ before use rest, earlier = before ++ use :: rest →
      use.answer = answerBehind before tree use.path) (path : String) :
    (answerBehind earlier tree path).toOption =
      (readSource tree (spellingRead (earlier.map (·.path)) path)).toOption := by
  have hspelling : spellingRead (earlier.map (·.path)) path =
      ((firstUse? earlier path).map (·.path)).getD path := by
    rw [spellingRead, List.find?_map]
    rfl
  rw [hspelling]
  unfold answerBehind
  cases hfirst : firstUse? earlier path with
  | none => rfl
  | some first =>
      obtain ⟨hsame, before, rest, heq, hbefore⟩ := List.find?_eq_some_iff_append.mp hfirst
      -- the first use of this path is the first one of its own spelling as well
      have hnone : firstUse? before first.path = none := by
        refine List.find?_eq_none.mpr fun use huse h => ?_
        have := hbefore use huse
        rw [← Path.same_congr hsame, h] at this
        cases this
      have hread := hanswers before first rest heq
      rw [answerBehind, hnone] at hread
      simp only [Option.map_some, Option.getD_some, Use.answerAgain, hread]
      cases readSource tree first.path <;> rfl

/-- **A cache is transparent for the first spelling of a path.** While the files stay as they are,
    each use of a path has the source file that reading its first spelling gives on its own, or
    fails if this reading fails. It is what reading the path itself gives if both spellings end
    in a name or neither does; a spelling that does not cannot be read on its own. -/
theorem gets_transparent {paths : List String}
    (hrun : history {} tree (paths.map .use) = (uses, last)) :
    uses.map (·.path) = paths ∧
    ∀ before use rest, uses = before ++ use :: rest →
      use.answer.toOption =
        (readSource tree (spellingRead (before.map (·.path)) use.path)).toOption ∧
      (Path.endsInName (spellingRead (before.map (·.path)) use.path) =
          Path.endsInName use.path →
        use.answer.toOption = (readSource tree use.path).toOption) ∧
      (Path.endsInName use.path = false → (readSource tree use.path).toOption = none) := by
  have hpaths : uses.map (·.path) = paths := by
    have := history_paths {} tree (paths.map .use)
    rw [hrun] at this
    rw [this, List.filterMap_map]
    exact List.filterMap_some
  have htree : ∀ use ∈ uses, use.tree = tree := by
    have := history_tree {} tree paths
    rwa [hrun] at this
  have hanswers : ∀ before use rest, uses = before ++ use :: rest →
      use.answer = answerBehind before tree use.path := by
    intro before use rest heq
    have := (history_answers Remembers.empty hrun).2 before use rest heq
    rwa [List.nil_append, htree use (by rw [heq]; simp)] at this
  refine ⟨hpaths, fun before use rest heq => ?_⟩
  have hread : use.answer.toOption =
      (readSource tree (spellingRead (before.map (·.path)) use.path)).toOption := by
    rw [hanswers before use rest heq]
    refine answerBehind_still (fun front earlier others hbefore => ?_) use.path
    exact hanswers front earlier (others ++ use :: rest) (by rw [heq, hbefore]; simp)
  have hunreadable : ∀ path, Path.endsInName path = false →
      (readSource tree path).toOption = none := by
    intro path hpath
    rw [readSource_toOption]
    cases htext : tree.readText path with
    | error e => rfl
    | ok text =>
        exact absurd (FileTree.readText_eq_ok.mp htext)
          (FileTree.readBytes_of_not_endsInName hpath _)
  refine ⟨hread, fun hends => ?_, hunreadable use.path⟩
  rw [hread]
  by_cases hname : Path.endsInName use.path = true
  · exact readSource_congr
      (FileTree.readText_congr (same_spellingRead _ _) (hends.trans hname) hname)
  · rw [Bool.not_eq_true] at hname
    rw [hunreadable _ hname, hunreadable _ (hends.trans hname)]

/-- The hypotheses of `gets_transparent` are met by a file that is used in two spellings. -/
theorem gets_transparent_respelled :
    ∃ first later last, history {} oneFileTree (["./a.go", ".//a.go"].map .use) =
        ([first, later], last) ∧
      Path.endsInName "./a.go" = Path.endsInName ".//a.go" ∧
      later.answer.toOption = (readSource oneFileTree ".//a.go").toOption := by
  cases hrun : history {} oneFileTree (["./a.go", ".//a.go"].map .use) with
  | mk uses last =>
      obtain ⟨hpaths, htransparent⟩ := gets_transparent hrun
      obtain ⟨first, others, rfl, hfirst, hothers⟩ := List.map_eq_cons_iff.mp hpaths
      obtain ⟨later, none, rfl, hlater, hnone⟩ := List.map_eq_cons_iff.mp hothers
      obtain rfl := List.map_eq_nil_iff.mp hnone
      have hends : Path.endsInName "./a.go" = Path.endsInName ".//a.go" := by decide
      have hread := (htransparent [first] later [] rfl).2.1
      rw [List.map_singleton, hfirst, hlater] at hread
      exact ⟨first, later, last, rfl, hends, hread hends⟩

/-- **A cache is not transparent for every spelling.** The name of a file with a slash behind it
    cannot be read, and after it the cache refuses the file, which can be read. -/
theorem slash_spoils_file :
    ¬ ∀ (tree : FileTree) (paths : List String) (uses : List Use) (last : SourceCache),
      history {} tree (paths.map .use) = (uses, last) → ∀ use ∈ uses,
        use.answer.toOption = (readSource tree use.path).toOption := by
  intro h
  have hall := h oneFileTree ["a.go/", "a.go"] _ _ rfl
  have hsome : ((history {} oneFileTree (["a.go/", "a.go"].map .use)).1.all fun use =>
      use.answer.toOption.isSome == (readSource oneFileTree use.path).toOption.isSome) = false := by
    decide
  rw [List.all_eq_false] at hsome
  obtain ⟨use, huse, hne⟩ := hsome
  exact hne (by rw [hall use huse, beq_self_eq_true])

end SourceCache

end FluentBuilder

import FluentBuilder.Proofs.Transparency

/-!
# Components — parents and joins, component by component

What a path names is told by its components alone, so the parent of a path and a name joined to a
directory are described by what they do to components: the parent drops the last name, and a join
adds one. A file stands in the directory that its components lead to without their last name, and
this directory is the same for every spelling of the path.

* **`components_parent?`** — the parent of a path has its components without the last name.
* **`components_join`** — a name joined to a directory stands behind the names of the directory.
* **`standsIn_of_readBytes`** — a file that can be read stands in a directory.
* **`StandsIn.resolve_sibling`** — a path with the same components but for its last name leads to
  that name in the same directory.
-/

namespace FluentBuilder

namespace Path

/-! ## Components and segments -/

/-- The components of a path can be read off all of its segments. -/
theorem components_eq (path : String) :
    components path = ⟨path.toList.head? == some '/',
      (segments path.toList).head? == some ['.'], (segments path.toList).filter isName⟩ := by
  by_cases hroot : ∃ rest, path.toList = '/' :: rest
  · obtain ⟨rest, hcs⟩ := hroot
    rw [components_slash hcs, hcs,
      show segments ('/' :: rest) = [] :: segments rest from segments_append_slash [] rest]
    rfl
  · have hslash : ∀ rest, path.toList ≠ '/' :: rest := fun rest h => hroot ⟨rest, h⟩
    unfold components
    split
    case h_1 rest hcs => exact absurd hcs (hslash rest)
    case h_2 =>
      have hhead : (path.toList.head? == some '/') = false := by
        refine beq_false_of_ne fun h => ?_
        obtain ⟨rest, hcs⟩ := List.head?_eq_some_iff.mp h
        exact hslash rest hcs
      split
      case h_1 first others hseg =>
        rw [hhead, hseg]
        rfl
      case h_2 hseg => exact absurd hseg (segments_ne_nil _)

/-- They can be read off the head of the path and the segments behind it as well. -/
theorem components_eq_splitHead (path : String) :
    components path = ⟨(splitHead path.toList).1 == ['/'], (splitHead path.toList).1 == ['.'],
      (segments (splitHead path.toList).2).filter isName⟩ := by
  rw [components_eq]
  rcases splitHead_cases path.toList with
    ⟨rest, hcs, hsplit⟩ | ⟨rest, hcs, hrest, hsplit⟩ | ⟨hsplit, hrest⟩
  · rw [hsplit, hcs,
      show segments ('/' :: rest) = [] :: segments rest from segments_append_slash [] rest]
    rfl
  · rw [hsplit, hcs]
    rcases hrest with rfl | ⟨more, rfl⟩
    · rfl
    · rw [show segments ('.' :: '/' :: more) = ['.'] :: segments more from
          segments_append_slash ['.'] more,
        show segments ('/' :: more) = [] :: segments more from segments_append_slash [] more]
      rfl
  · rw [hsplit]
    rcases hrest with hnil | ⟨first, others, hseg, hfirst⟩
    · rw [hnil]
      rfl
    · -- a first name is neither empty nor a dot, so there is no root and no leading dot
      have hroot : (path.toList.head? == some '/') = false := by
        refine beq_false_of_ne fun h => ?_
        obtain ⟨rest, hcs⟩ := List.head?_eq_some_iff.mp h
        rw [hcs] at hseg
        obtain ⟨rfl, -⟩ := List.cons.inj ((segments_append_slash [] rest).symm.trans hseg)
        cases hfirst
      have hdot : ((segments path.toList).head? == some ['.']) = false := by
        rw [hseg]
        refine beq_false_of_ne fun h => ?_
        cases h
        cases hfirst
      rw [hroot, hdot]
      rfl

/-- The name of the file that a path ends in, unless it ends in `..`. -/
def fileName? (path : String) : Option String :=
  ((components path).names.getLast?.filter (· != ['.', '.'])).map String.ofList

/-! ## Parents -/

/-- Segments behind the last name do not count. -/
theorem filter_trimmed (ss : List (List Char)) :
    (ss.reverse.dropWhile (!isName ·)).reverse.filter isName = ss.filter isName := by
  have hcut := List.takeWhile_append_dropWhile (p := (!isName ·)) (l := ss.reverse)
  have hjunk : (ss.reverse.takeWhile (!isName ·)).filter isName = [] := by
    refine List.filter_eq_nil_iff.mpr fun s hs => ?_
    have := List.mem_takeWhile_imp hs
    simpa using this
  calc (ss.reverse.dropWhile (!isName ·)).reverse.filter isName
      = ((ss.reverse.takeWhile (!isName ·) ++ ss.reverse.dropWhile (!isName ·)).filter
          isName).reverse := by rw [List.filter_append, hjunk, List.nil_append, List.filter_reverse]
    _ = ss.filter isName := by rw [hcut, List.filter_reverse, List.reverse_reverse]

/-- Segments that were put together have the names that they had. -/
theorem filter_segments_joinSegments {kept : List (List Char)} (hkept : ∀ s ∈ kept, '/' ∉ s) :
    (segments (joinSegments kept)).filter isName = kept.filter isName := by
  cases kept with
  | nil => rfl
  | cons s rest => rw [segments_joinSegments (List.cons_ne_nil s rest) hkept]

/-- The parent of a path with a name is the text in front of its last name. -/
theorem parent?_of_names {path : String} (hnames : (components path).names ≠ []) :
    ∃ kept junk,
      parent? path = some (String.ofList ((splitHead path.toList).1 ++ joinSegments kept)) ∧
      segments (splitHead path.toList).2 = kept ++ junk ∧ junk ≠ [] ∧
      kept.filter isName = (components path).names.dropLast := by
  rw [components_eq_splitHead] at hnames ⊢
  have hseg := filter_trimmed (segments (splitHead path.toList).2)
  obtain ⟨tail, htail⟩ := trimmed (segments (splitHead path.toList).2)
  unfold parent?
  cases hback : (segments (splitHead path.toList).2).reverse.dropWhile (!isName ·) with
  | nil =>
      rw [hback] at hseg
      exact absurd hseg.symm hnames
  | cons name front =>
      have hname : isName name = true := by
        have := List.head?_dropWhile_not (!isName ·) (segments (splitHead path.toList).2).reverse
        rw [hback] at this
        simpa using this
      obtain ⟨junk, hjunk⟩ := trimmed front.reverse
      have hfront := filter_trimmed front.reverse
      rw [List.reverse_reverse] at hjunk hfront
      rw [hback, List.reverse_cons] at hseg htail
      refine ⟨(front.dropWhile (!isName ·)).reverse, junk ++ name :: tail, ?_, ?_, by simp, ?_⟩
      · simp only [hback]
      · rw [htail, hjunk]
        simp
      · show _ = ((segments (splitHead path.toList).2).filter isName).dropLast
        rw [hfront, ← hseg, List.filter_append, List.filter_cons_of_pos hname, List.filter_nil,
          List.dropLast_concat]

/-- **The parent of a path has its components without the last name.** -/
theorem components_parent? {path : String} (hnames : (components path).names ≠ []) :
    ∃ directory, parent? path = some directory ∧
      components directory =
        { components path with names := (components path).names.dropLast } := by
  obtain ⟨kept, junk, hparent, hcut, hjunk, hkept⟩ := parent?_of_names hnames
  refine ⟨_, hparent, ?_⟩
  have hslash : ∀ s ∈ kept, '/' ∉ s := fun s hs =>
    not_mem_of_mem_segments (hcut ▸ List.mem_append_left junk hs)
  have hsplit : splitHead ((splitHead path.toList).1 ++ joinSegments kept) =
      ((splitHead path.toList).1, joinSegments kept) := by
    by_cases hempty : (splitHead path.toList).1 ++ joinSegments kept = []
    · obtain ⟨hhead, hjoin⟩ := List.append_eq_nil_iff.mp hempty
      rw [hhead, hjoin]
      rfl
    · exact splitHead_kept hcut hjunk hempty
  rw [← hkept, components_eq_splitHead, String.toList_ofList, hsplit,
    filter_segments_joinSegments hslash, components_eq_splitHead]

/-! ## Joins -/

/-- A name joined to a directory is one more segment, in the place of an empty last one. -/
theorem segments_join (directory : String) {name : String} (hname : '/' ∉ name.toList) :
    (directory = "" ∧ (join directory name).toList = name.toList) ∨
      ∃ front, (join directory name).toList = directory.toList ++ front ∧
        directory.toList ≠ [] ∧ ∃ ss, segments (join directory name).toList = ss ++ [name.toList] ∧
          ss ≠ [] ∧ (segments directory.toList = ss ∨ segments directory.toList = ss ++ [[]]) := by
  have hhead : (name.toList.head? == some '/') = false :=
    beq_false_of_ne fun h => hname (List.mem_of_mem_head? h)
  simp only [join, hhead, Bool.false_eq_true, if_false]
  by_cases hempty : directory = ""
  · subst hempty
    refine .inl ⟨rfl, ?_⟩
    rw [if_pos (by simp), String.toList_ofList]
    rfl
  · have hds : directory.toList ≠ [] := fun h => hempty (String.toList_eq_nil_iff.mp h)
    refine .inr ?_
    by_cases hslash : directory.toList.getLast? = some '/'
    · rw [if_pos (by simp [hslash]), String.toList_ofList]
      obtain ⟨front, hfront⟩ := List.getLast?_eq_some_iff.mp hslash
      refine ⟨name.toList, rfl, hds, segments front, ?_, segments_ne_nil front, .inr ?_⟩
      · rw [hfront, List.append_assoc, List.singleton_append, segments_append_slash,
          segments_of_not_mem hname]
      · rw [hfront]
        exact segments_append_slash front []
    · rw [if_neg (by simp [hds, hslash]), String.toList_ofList]
      refine ⟨'/' :: name.toList, rfl, hds, segments directory.toList, ?_, segments_ne_nil _,
        .inl rfl⟩
      rw [segments_append_slash, segments_of_not_mem hname]

/-- **A name joined to a directory stands behind the names of the directory.** -/
theorem components_join {directory name : String} (hname : FileTree.FileName name.toList) :
    components (join directory name) =
      { components directory with names := (components directory).names ++ [name.toList] } := by
  rcases segments_join directory hname.noSlash with
    ⟨rfl, hjoin⟩ | ⟨front, hjoin, hds, ss, hseg, hss, hdirectory⟩
  · have hsegment := segments_of_not_mem hname.noSlash
    have hroot : (name.toList.head? == some '/') = false :=
      beq_false_of_ne fun h => hname.noSlash (List.mem_of_mem_head? h)
    have hdot : ([name.toList].head? == some ['.']) = false := by
      refine beq_false_of_ne fun h => ?_
      have := hname.counts
      rw [show name.toList = ['.'] by simpa using h] at this
      cases this
    rw [components_eq (join "" name), hjoin, hsegment, hroot, hdot,
      List.filter_cons_of_pos hname.counts]
    rfl
  · obtain ⟨c, cs, hcs⟩ := List.exists_cons_of_ne_nil hds
    obtain ⟨s, rest, rfl⟩ := List.exists_cons_of_ne_nil hss
    have hnames : (segments directory.toList).filter isName = (s :: rest).filter isName := by
      rcases hdirectory with h | h
      · rw [h]
      · rw [h, List.filter_append]
        exact List.append_nil _
    have hfirst : (segments directory.toList).head? = some s := by
      rcases hdirectory with h | h <;> rw [h] <;> rfl
    rw [components_eq (join directory name), components_eq directory, hseg, hjoin, hnames, hfirst,
      hcs, List.filter_append, List.filter_cons_of_pos hname.counts]
    rfl

/-- A name joined to a directory ends in a name. -/
theorem endsInName_join {directory name : String} (hname : FileTree.FileName name.toList) :
    endsInName (join directory name) = true := by
  refine endsInName_iff.mpr ⟨name.toList, ?_, hname.counts⟩
  rcases segments_join directory hname.noSlash with
    ⟨-, hjoin⟩ | ⟨-, -, -, ss, hseg, -⟩
  · rw [hjoin, segments_of_not_mem hname.noSlash]
    rfl
  · rw [hseg, List.getLast?_concat]

end Path

namespace FileTree

open FluentBuilder.Path

variable {tree before after : FileTree} {path : String} {d : Location}

/-! ## The directory of a file -/

/-- A path that names something in a directory that is there. -/
structure StandsIn (tree : FileTree) (path : String) (d : Location) : Prop where
  named : (components path).names ≠ []
  leads : tree.follow (tree.base (components path)) (components path).names.dropLast = .ok d
  directory : tree.at? d = some .directory

/-- Every spelling of a path stands in the same directory. -/
theorem StandsIn.congr {a b : String} (h : tree.StandsIn a d) (hsame : same a b = true) :
    tree.StandsIn b d := by
  obtain ⟨hnamed, hleads, hdir⟩ := h
  rw [same_iff.mp hsame] at hnamed hleads
  exact ⟨hnamed, hleads, hdir⟩

/-- The directory of a path stays while a tree grows. -/
theorem StandsIn.grows {only : Location → Prop} (h : before.StandsIn path d)
    (hgrow : Grows only before after) : after.StandsIn path d := by
  refine ⟨h.named, ?_, hgrow.directory h.directory⟩
  have hbase : after.base (components path) = before.base (components path) := by
    rw [base, base, hgrow.workingDirectory]
  rw [hbase]
  exact hgrow.follow _ h.leads

/-- **A file that can be read stands in a directory.** -/
theorem standsIn_of_readBytes {content : ByteArray} (h : tree.readBytes path = .ok content) :
    ∃ d, tree.StandsIn path d := by
  have hends : endsInName path = true := by
    by_contra hother
    exact readBytes_of_not_endsInName (Bool.not_eq_true _ ▸ hother) content h
  obtain ⟨last, hlast, hname⟩ := endsInName_iff.mp hends
  have hnamed : (components path).names ≠ [] := by
    rw [components_eq]
    exact List.ne_nil_of_mem (List.mem_filter.mpr ⟨List.mem_of_getLast? hlast, hname⟩)
  obtain ⟨l, hres, -⟩ := readBytes_eq_ok.mp h
  rw [resolve_eq_follow_names hends, ← List.dropLast_concat_getLast hnamed] at hres
  obtain ⟨d, hleads, hstep⟩ := follow_append_eq_ok.mp hres
  exact ⟨d, hnamed, hleads, (follow_cons_eq_ok.mp hstep).1⟩

/-- **A sibling of a path leads to its own name in the same directory.** -/
theorem StandsIn.resolve_sibling {sibling : String} {name : List Char}
    (h : tree.StandsIn path d) (hname : FileName name) (hends : endsInName sibling = true)
    (hcomponents : components sibling =
      { components path with names := (components path).names.dropLast ++ [name] }) :
    tree.resolve sibling = .ok (d ++ [name]) := by
  rw [resolve_eq_follow_names hends, hcomponents]
  exact follow_append_eq_ok.mpr ⟨d, h.leads, hname.follow h.directory⟩

end FileTree

end FluentBuilder

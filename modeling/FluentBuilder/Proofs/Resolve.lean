import FluentBuilder.Proofs.Growth
import FluentBuilder.Proofs.Paths

/-!
# Resolving paths — the directory that a path stands in

A path leads somewhere only if every directory on the way is there, so the directory that a path
stands in is there as soon as the path leads anywhere.

* **`place_parent`** — the parent of a path that leads somewhere is a directory.
* **`FileName.follow`** — the name of a file leads one step down from a directory.
* **`write_directory`**, **`write_same`**, **`write_other`** — what writing a generated file does
  where its path leads somewhere: it makes no directories and changes at most that file.
-/

namespace FluentBuilder

open FluentBuilder.Path

namespace FileTree

variable {tree : FileTree}

/-! ## Following segments -/

/-- A step is possible in a directory. -/
theorem follow_cons_eq_ok {start l : Location} {segment : List Char} {rest : List (List Char)} :
    tree.follow start (segment :: rest) = .ok l ↔
      tree.at? start = some .directory ∧ tree.follow (start.step segment) rest = .ok l := by
  simp only [follow]
  cases hat : tree.at? start with
  | none => simp
  | some e => cases e <;> simp

/-- Segments are followed one part after the other. -/
theorem follow_append_eq_ok {start l : Location} {front rest : List (List Char)} :
    tree.follow start (front ++ rest) = .ok l ↔
      ∃ mid, tree.follow start front = .ok mid ∧ tree.follow mid rest = .ok l := by
  induction front generalizing start with
  | nil => simp [follow]
  | cons segment front ih =>
      rw [List.cons_append, follow_cons_eq_ok, ih]
      constructor
      · rintro ⟨hdir, mid, hfront, hrest⟩
        exact ⟨mid, follow_cons_eq_ok.mpr ⟨hdir, hfront⟩, hrest⟩
      · rintro ⟨mid, hfront, hrest⟩
        obtain ⟨hdir, hfront⟩ := follow_cons_eq_ok.mp hfront
        exact ⟨hdir, mid, hfront, hrest⟩

/-- A segment that does not count leads nowhere else. -/
theorem step_of_not_name {segment : List Char} (h : isName segment = false) (l : Location) :
    l.step segment = l := by
  have hskip : (segment == [] || segment == ['.']) = true := by
    simp only [isName, Bool.and_eq_false_iff, bne_eq_false_iff_eq] at h
    simpa using h
  rw [Location.step, if_pos hskip]

/-- A segment that does not count may be replaced by another one. -/
theorem follow_replace {s t : List Char} (hs : isName s = false) (ht : isName t = false)
    (start : Location) (rest : List (List Char)) :
    tree.follow start (s :: rest) = tree.follow start (t :: rest) := by
  simp only [follow, step_of_not_name hs, step_of_not_name ht]

/-- An empty segment at the end leads nowhere else. -/
theorem follow_append_nil {start l : Location} {segments : List (List Char)}
    (h : tree.follow start (segments ++ [[]]) = .ok l) :
    tree.follow start segments = .ok l ∧ tree.at? l = some .directory := by
  obtain ⟨mid, hmid, hlast⟩ := follow_append_eq_ok.mp h
  obtain ⟨hdir, hl⟩ := follow_cons_eq_ok.mp hlast
  rw [step_of_not_name rfl] at hl
  cases hl
  exact ⟨hmid, hdir⟩

/-- Where the rest of a path with a head begins. -/
def startOf (tree : FileTree) (head : List Char) : Location :=
  if head == ['/'] then [] else tree.workingDirectory

/-- A path is followed behind its head. -/
theorem resolve_eq {path : String} (hne : path ≠ "") :
    tree.resolve path =
      tree.follow (tree.startOf (splitHead path.toList).1)
        (segments (splitHead path.toList).2) := by
  have hempty : (path == "") = false := beq_false_of_ne hne
  simp only [resolve, hempty, Bool.false_eq_true, if_false, beginning]
  rcases splitHead_cases path.toList with ⟨rest, hcs, hsplit⟩ | ⟨rest, hcs, hrest, hsplit⟩ | ⟨hsplit, hrest⟩
  · rw [hsplit, hcs]
    rfl
  · rw [hsplit, hcs]
    rcases hrest with rfl | ⟨more, rfl⟩
    · exact follow_replace rfl rfl _ _
    · show tree.follow _ (segments ('.' :: '/' :: more)) = _
      rw [show segments ('.' :: '/' :: more) = ['.'] :: segments more from
        segments_append_slash ['.'] more]
      exact follow_replace rfl rfl _ _
  · rw [hsplit]
    split
    case h_1 rest hcs =>
      rcases hrest with hnil | ⟨first, others, hseg, hfirst⟩
      · rw [hnil] at hcs; cases hcs
      · rw [hcs] at hseg
        obtain ⟨rfl, -⟩ := List.cons.inj (hseg.symm.trans (segments_append_slash [] rest))
        cases hfirst
    case h_2 => rfl

/-! ## Directories -/

/-- The location of a directory, where the empty path is the working directory. -/
def place (tree : FileTree) (directory : String) : Except FileError Location :=
  if directory == "" then .ok tree.workingDirectory else tree.resolve directory

/-- Following segments that were put together leads where the segments do. -/
theorem follow_joinSegments {start l : Location} {kept : List (List Char)}
    (hkept : ∀ s ∈ kept, '/' ∉ s) (h : tree.follow start kept = .ok l)
    (hdir : tree.at? l = some .directory) :
    tree.follow start (segments (joinSegments kept)) = .ok l := by
  cases kept with
  | nil =>
      cases h
      exact follow_cons_eq_ok.mpr ⟨hdir, rfl⟩
  | cons s rest =>
      rw [segments_joinSegments (List.cons_ne_nil s rest) hkept]
      exact h

/-- **The parent of a path that leads somewhere is a directory.** -/
theorem place_parent {path directory : String} {l : Location} (hres : tree.resolve path = .ok l)
    (hparent : parent? path = some directory) :
    ∃ d, tree.place directory = .ok d ∧ tree.at? d = some .directory := by
  have hne : path ≠ "" := by
    rintro rfl
    cases hres
  rw [resolve_eq hne] at hres
  rcases parent?_eq_some hparent with ⟨rfl, hdot⟩ | ⟨kept, junk, hseg, hjunk, htext⟩
  · rw [hdot] at hres
    cases hbody : segments (splitHead path.toList).2 with
    | nil => exact absurd hbody (segments_ne_nil _)
    | cons s rest =>
        rw [hbody] at hres
        exact ⟨_, rfl, (follow_cons_eq_ok.mp hres).1⟩
  · rw [hseg] at hres
    obtain ⟨d, hkept, hrest⟩ := follow_append_eq_ok.mp hres
    have hdir : tree.at? d = some .directory := by
      cases junk with
      | nil => exact absurd rfl hjunk
      | cons s rest => exact (follow_cons_eq_ok.mp hrest).1
    refine ⟨d, ?_, hdir⟩
    have hslash : ∀ s ∈ kept, '/' ∉ s := fun s hs =>
      not_mem_of_mem_segments (hseg ▸ List.mem_append_left junk hs)
    have hfollow := follow_joinSegments hslash hkept hdir
    -- the text of the parent has the head of the path, so it is followed from the same place
    by_cases hempty : directory = ""
    · subst hempty
      obtain ⟨hhead, hjoin⟩ := List.append_eq_nil_iff.mp htext.symm
      rw [hhead, hjoin] at hfollow
      obtain ⟨-, hd⟩ := follow_cons_eq_ok.mp hfollow
      exact hd
    · have hplace : tree.place directory = tree.resolve directory := by
        rw [place, if_neg (by simpa using hempty)]
      have hne' : (splitHead path.toList).1 ++ joinSegments kept ≠ [] := by
        rw [← htext]
        exact fun hnil => hempty (String.toList_eq_nil_iff.mp hnil)
      rw [hplace, resolve_eq hempty, htext, splitHead_kept hseg hjunk hne']
      exact hfollow

/-- A text that names one file in a directory. -/
structure FileName (name : List Char) : Prop where
  noSlash : '/' ∉ name
  counts : isName name = true
  notAbove : name ≠ ['.', '.']

/-- A file name leads one step down. -/
theorem FileName.step {name : List Char} (h : FileName name) (l : Location) :
    l.step name = l ++ [name] := by
  have hskip : (name == [] || name == ['.']) = false := by
    have := h.counts
    simp only [isName, Bool.and_eq_true, bne_iff_ne] at this
    simpa using this
  have habove : (name == ['.', '.']) = false := beq_false_of_ne h.notAbove
  simp only [Location.step, hskip, habove, Bool.false_eq_true, if_false]

/-- A file name is followed in one step from a directory. -/
theorem FileName.follow {name : List Char} (h : FileName name) {d : Location}
    (hdir : tree.at? d = some .directory) : tree.follow d [name] = .ok (d ++ [name]) :=
  follow_cons_eq_ok.mpr ⟨hdir, by rw [h.step]; rfl⟩

/-! ## Directories that are there already -/

/-- A text with a beginning is followed from the same location, whatever stands behind it. -/
theorem resolve_extend (tree : FileTree) {front : List Char} (hne : front ≠ []) :
    ∃ start body, ∀ rest, tree.resolve (String.ofList (front ++ rest)) =
      tree.follow start (segments (body ++ rest)) := by
  cases front with
  | nil => exact absurd rfl hne
  | cons c body =>
      have hempty : ∀ rest, (String.ofList (c :: (body ++ rest)) == "") = false := by
        intro rest
        refine beq_false_of_ne fun h => ?_
        have := congrArg String.toList h
        rw [String.toList_ofList] at this
        cases this
      by_cases hc : c = '/'
      · subst hc
        refine ⟨[], body, fun rest => ?_⟩
        rw [List.cons_append]
        simp only [resolve, hempty, Bool.false_eq_true, if_false, beginning,
          String.toList_ofList]
      · refine ⟨tree.workingDirectory, c :: body, fun rest => ?_⟩
        rw [List.cons_append]
        simp only [resolve, hempty, Bool.false_eq_true, if_false, beginning,
          String.toList_ofList]
        split
        case h_1 => exact absurd (List.cons.inj ‹_›).1 hc
        case h_2 => rfl

/-- Slashes at the end of a path lead nowhere else. -/
theorem follow_of_slashes {start l : Location} {body : List Char} (n : Nat)
    (h : tree.follow start (segments (body ++ List.replicate n '/')) = .ok l) :
    tree.follow start (segments body) = .ok l := by
  induction n with
  | zero => simpa using h
  | succ n ih =>
      rw [List.replicate_succ', ← List.append_assoc, segments_append_slash] at h
      exact ih (follow_append_nil h).1

/-- A path without the slashes at its end leads where the path does. -/
theorem resolve_bareName {path : String} {l : Location} (h : tree.resolve path = .ok l) :
    tree.resolve (bareName path) = .ok l := by
  unfold bareName
  have hslashes : ∀ c ∈ path.toList.reverse.takeWhile (· == '/'), c = '/' := fun c hc =>
    beq_iff_eq.mp (List.mem_takeWhile_imp (p := (· == '/')) hc)
  have hall := List.takeWhile_append_dropWhile (p := (· == '/')) (l := path.toList.reverse)
  cases hdrop : path.toList.reverse.dropWhile (· == '/') with
  | nil => exact h
  | cons c backwards =>
      obtain ⟨n, hn⟩ : ∃ n, path.toList.reverse.takeWhile (· == '/') = List.replicate n '/' :=
        ⟨_, List.eq_replicate_of_mem hslashes⟩
      rw [hdrop, hn] at hall
      have hpath : path.toList = (c :: backwards).reverse ++ List.replicate n '/' := by
        rw [← List.reverse_reverse path.toList, ← hall, List.reverse_append, List.reverse_replicate]
      have hne : (c :: backwards).reverse ≠ [] := by simp
      obtain ⟨start, body, hres⟩ := resolve_extend tree hne
      have hbare := hres []
      rw [List.append_nil, List.append_nil] at hbare
      rw [← String.ofList_toList (s := path), hpath, hres] at h
      rw [hbare]
      exact follow_of_slashes _ h

/-- Making directories that are there changes nothing. -/
theorem makeDirectories_of_resolve {path : String} {l : Location}
    (hres : tree.resolve path = .ok l) (hdir : tree.at? l = some .directory) :
    tree.makeDirectories path = (.ok (), tree) := by
  have hmake : tree.makeDirectory path = .error .alreadyExists := by
    simp only [makeDirectory, resolve_bareName hres, hdir]
  have hnames : tree.namesDirectory path = true := by
    simp only [namesDirectory, hres, isDirectory, hdir]
  unfold makeDirectories makeDirectoriesFrom
  by_cases hempty : (path == "") = true
  · rw [if_pos hempty]
  · rw [if_neg hempty, hmake]
    simp only [hnames, if_true]

end FileTree

namespace GeneratedFile

open FileTree

variable {file : GeneratedFile} {tree : FileTree} {l : Location}

/-- A file whose path leads somewhere needs no directories. -/
theorem prepare_of_resolve (hres : tree.resolve file.path = .ok l) :
    file.prepare tree = (.ok (), tree) := by
  unfold prepare directory?
  cases hparent : parent? file.path with
  | none => rfl
  | some directory =>
      obtain ⟨d, hplace, hdir⟩ := place_parent hres hparent
      by_cases hempty : directory = ""
      · subst hempty
        rfl
      · have hne : (directory != "") = true := by simpa using hempty
        rw [place, if_neg (by simpa using hempty)] at hplace
        simp only [Option.filter, hne, if_true, makeDirectories_of_resolve hplace hdir]

/-- A write over a directory fails. -/
theorem write_directory (hres : tree.resolve file.path = .ok l)
    (hat : tree.at? l = some .directory) :
    file.write tree = (.error (.file file.path .isDirectory), tree) := by
  have hread : tree.readText file.path = .error .isDirectory := by
    simp only [readText, readBytes, hres, hat]
  simp only [write, hread, overwrite, prepare_of_resolve hres, writeBytes, hres, hat]

/-- A write over the same content changes nothing. -/
theorem write_same (hres : tree.resolve file.path = .ok l)
    (hat : tree.at? l = some (.file file.content.toUTF8)) :
    file.write tree = (.ok .unchanged, tree) := by
  have hread : tree.readText file.path = .ok file.content :=
    readText_eq_ok.mpr (readBytes_eq_ok.mpr ⟨l, hres, hat⟩)
  simp only [write, hread, beq_self_eq_true, if_true]

/-- Any other write puts the content where the path leads. -/
theorem write_other (hres : tree.resolve file.path = .ok l)
    (hdir : tree.at? l ≠ some .directory)
    (hne : tree.at? l ≠ some (.file file.content.toUTF8)) :
    file.write tree = (.ok .written, tree.insert l (.file file.content.toUTF8)) := by
  have hover : file.overwrite tree =
      (.ok .written, tree.insert l (.file file.content.toUTF8)) := by
    cases hat : tree.at? l with
    | none => simp only [overwrite, prepare_of_resolve hres, writeBytes, hres, hat]
    | some entry =>
        cases entry with
        | file content => simp only [overwrite, prepare_of_resolve hres, writeBytes, hres, hat]
        | directory => exact absurd hat hdir
  rw [write]
  cases hread : tree.readText file.path with
  | error e => exact hover
  | ok existing =>
      obtain ⟨l', hl', hat⟩ := readBytes_eq_ok.mp (readText_eq_ok.mp hread)
      obtain rfl : l' = l := Except.ok.inj (hl'.symm.trans hres)
      have hother : (existing == file.content) = false := by
        refine beq_false_of_ne ?_
        rintro rfl
        exact hne hat
      simp only [hother, Bool.false_eq_true, if_false]
      exact hover

end GeneratedFile

end FluentBuilder

import FluentBuilder.Proofs.Cache

/-!
# Histories of a cache — uses of paths among changes of the files

While paths are used, files come, change and go. Every use is answered by the files of its time or
by an earlier use, and which of the two it is hangs only on the paths that were used before.

* **`Remembers.get`** — the step lemma: a cache that holds the first uses so far answers the next
  one as they say, and holds it with them if it is a first one.
* **`history_answers`** — the run lemma.
* **`first_use_final`** — the first use of a path is final, whatever happens to the files, and the
  paths of a cache are the first uses in their order and spelling.
-/

namespace FluentBuilder

namespace Path

variable {a b c : String}

/-- Paths are the same if their components are. -/
theorem same_iff : same a b = true ↔ components a = components b := beq_iff_eq

/-- The same paths are the same as the same paths. -/
theorem same_congr (h : same a b = true) (c : String) : same c a = same c b := by
  rw [Bool.eq_iff_iff, same_iff, same_iff, same_iff.mp h]

/-- The first spelling of every path in a list. -/
def firstSpellings : List String → List String
  | [] => []
  | path :: rest => path :: (firstSpellings rest).filter fun later => !same path later

/-- A path behind others is a first spelling if none of them is the same. -/
theorem firstSpellings_append_singleton (paths : List String) (path : String) :
    firstSpellings (paths ++ [path]) =
      firstSpellings paths ++ if paths.any (same · path) then [] else [path] := by
  induction paths with
  | nil => rfl
  | cons first rest ih =>
      rw [List.cons_append, firstSpellings, ih, List.filter_append, firstSpellings,
        List.any_cons, List.cons_append]
      by_cases hfirst : same first path = true
      · rw [hfirst, Bool.true_or, if_pos rfl]
        split
        · rfl
        · rw [List.filter_cons_of_neg (by simp [hfirst])]
          rfl
      · have hother : same first path = false := Bool.not_eq_true _ ▸ hfirst
        rw [hother, Bool.false_or]
        split
        · rfl
        · rw [List.filter_cons_of_pos (by simp [hother])]
          rfl

/-- No two first spellings are the same path. -/
theorem firstSpellings_pairwise (paths : List String) :
    (firstSpellings paths).Pairwise fun a b => same a b = false := by
  induction paths with
  | nil => exact .nil
  | cons first rest ih =>
      refine .cons (fun later hlater => ?_) (ih.filter _)
      simpa using (List.mem_filter.mp hlater).2

/-- Every path has a first spelling. -/
theorem exists_firstSpelling {paths : List String} {path : String} (h : path ∈ paths) :
    ∃ first ∈ firstSpellings paths, same first path = true := by
  induction paths with
  | nil => cases h
  | cons head rest ih =>
      by_cases hhead : same head path = true
      · exact ⟨head, .head _, hhead⟩
      · have hrest : path ∈ rest := by
          rcases List.mem_cons.mp h with rfl | hrest
          · exact absurd (same_refl path) hhead
          · exact hrest
        obtain ⟨first, hfirst, hsame⟩ := ih hrest
        refine ⟨first, .tail _ (List.mem_filter.mpr ⟨hfirst, ?_⟩), hsame⟩
        rw [same_congr hsame, Bool.not_eq_true', ← Bool.not_eq_true]
        exact hhead

end Path

namespace SourceCache

/-- What happens while a cache is in use: a path is used, or files are created, changed or
    removed. -/
inductive Event where
  | use (path : String)
  | edit (change : FileTree → FileTree)

/-- The path that an event uses. -/
def Event.used? : Event → Option String
  | .use path => some path
  | .edit _ => none

/-- A use of a path with the files of its time and the answer. -/
structure Use where
  tree   : FileTree
  path   : String
  answer : Except SourceError Go.SourceFile

/-- The uses among events, and the cache behind the last of them. -/
def history (cache : SourceCache) (tree : FileTree) : List Event → List Use × SourceCache
  | [] => ([], cache)
  | .use path :: rest =>
    let (answer, after) := cache.get tree path
    let (uses, last) := history after tree rest
    (⟨tree, path, answer⟩ :: uses, last)
  | .edit change :: rest => history cache (change tree) rest

/-! ## What a use is answered -/

/-- The first of several uses of a path. -/
def firstUse? (uses : List Use) (path : String) : Option Use :=
  uses.find? fun use => Path.same use.path path

/-- What a later use of a path is answered. -/
def Use.answerAgain (first : Use) (path : String) : Except SourceError Go.SourceFile :=
  match first.answer with
  | .ok file => .ok file
  | .error _ => .error (.skipped path)

/-- What a use is answered behind earlier ones: the files of its time decide a first use, and a
    first use decides the others. -/
def answerBehind (earlier : List Use) (tree : FileTree) (path : String) :
    Except SourceError Go.SourceFile :=
  match firstUse? earlier path with
  | none => readSource tree path
  | some first => first.answerAgain path

/-- The first of several uses is not behind the others. -/
theorem firstUse?_append_singleton (uses : List Use) (use : Use) (path : String) :
    firstUse? (uses ++ [use]) path =
      (firstUse? uses path).or (if Path.same use.path path then some use else none) := by
  rw [firstUse?, List.find?_append, List.find?_singleton, firstUse?]

/-- There is a first use of every path that was used. -/
theorem firstUse?_isSome (uses : List Use) (path : String) :
    (firstUse? uses path).isSome = (uses.map (·.path)).any (Path.same · path) := by
  rw [List.any_map]
  exact List.isSome_find?

/-- A cache holds the first uses of paths. -/
structure Remembers (cache : SourceCache) (uses : List Use) : Prop where
  found : ∀ path, cache.find? path = (firstUse? uses path).map (·.answer.toOption)
  paths : cache.paths = Path.firstSpellings (uses.map (·.path))

/-- A fresh cache holds nothing. -/
theorem Remembers.empty : Remembers {} [] := ⟨fun _ => rfl, rfl⟩

variable {cache after last : SourceCache} {tree : FileTree} {path : String}
  {earlier uses : List Use} {answer : Except SourceError Go.SourceFile}

/-- A cache answers as the first uses say that it holds. -/
theorem Remembers.answer_eq (h : Remembers cache earlier)
    (hget : cache.get tree path = (answer, after)) : answer = answerBehind earlier tree path := by
  have hfound := h.found path
  unfold answerBehind
  cases hfirst : firstUse? earlier path with
  | none =>
      rw [hfirst] at hfound
      exact (get_of_new hfound hget).1
  | some first =>
      rw [hfirst, Option.map_some] at hfound
      unfold get at hget
      rw [hfound] at hget
      cases hanswer : first.answer with
      | ok file =>
          rw [hanswer] at hget
          simp only [Use.answerAgain, hanswer]
          exact (Prod.mk.inj hget).1.symm
      | error e =>
          rw [hanswer] at hget
          simp only [Use.answerAgain, hanswer]
          exact (Prod.mk.inj hget).1.symm

/-- **The step lemma**: a use is remembered with the earlier ones. -/
theorem Remembers.get (h : Remembers cache earlier)
    (hget : cache.get tree path = (answer, after)) :
    Remembers after (earlier ++ [⟨tree, path, answer⟩]) := by
  have hfound := h.found path
  cases hfirst : firstUse? earlier path with
  | none =>
      -- a first use goes behind what the cache holds
      rw [hfirst] at hfound
      obtain ⟨-, rfl⟩ := get_of_new hfound hget
      have hany := firstUse?_isSome earlier path
      rw [hfirst] at hany
      constructor
      · intro path'
        rw [find?_append, h.found, firstUse?_append_singleton, Option.map_or]
        split <;> rfl
      · rw [List.map_append, List.map_singleton, Path.firstSpellings_append_singleton, ← hany,
          ← h.paths]
        exact List.map_append
  | some first =>
      rw [hfirst, Option.map_some] at hfound
      obtain ⟨-, rfl⟩ := get_of_known hfound hget
      have hany := firstUse?_isSome earlier path
      rw [hfirst] at hany
      constructor
      · intro path'
        rw [h.found, firstUse?_append_singleton]
        by_cases hsame : Path.same path path' = true
        · -- the earlier use is the first one of this spelling as well
          obtain ⟨first', hfirst'⟩ : ∃ first', firstUse? earlier path' = some first' := by
            rw [← Option.isSome_iff_exists, firstUse?_isSome]
            simp only [← Path.same_congr hsame]
            exact hany.symm
          rw [hfirst']
          rfl
        · rw [if_neg hsame, Option.or_none]
      · rw [List.map_append, List.map_singleton, Path.firstSpellings_append_singleton, ← hany,
          h.paths]
        exact (List.append_nil _).symm

/-- A use behind one of the same path has its answer again. -/
theorem answerBehind_again {before mid : List Use} {first : Use} (tree : FileTree)
    (hfirst : first.answer = answerBehind before first.tree first.path)
    (hsame : Path.same first.path path = true) :
    answerBehind (before ++ first :: mid) tree path = first.answerAgain path := by
  have hspelling : firstUse? before path = firstUse? before first.path := by
    unfold firstUse?
    simp only [Path.same_congr hsame]
  have hfind : firstUse? (before ++ first :: mid) path =
      (firstUse? before first.path).or (some first) := by
    rw [← hspelling, firstUse?, List.find?_append]
    exact congrArg _ (List.find?_cons_of_pos hsame)
  unfold answerBehind at hfirst ⊢
  rw [hfind]
  cases hdecisive : firstUse? before first.path with
  | none => rfl
  | some decisive =>
      -- an earlier use decided the answer of the first one
      rw [hdecisive] at hfirst
      simp only [Option.some_or, Use.answerAgain, hfirst]
      cases decisive.answer <;> rfl

/-! ## Whole histories -/

/-- **The run lemma**: a history is remembered, and each of its uses is answered as the uses before
    it say. -/
theorem history_answers {events : List Event} (h : Remembers cache earlier)
    (hrun : history cache tree events = (uses, last)) :
    Remembers last (earlier ++ uses) ∧ ∀ before use rest, uses = before ++ use :: rest →
      use.answer = answerBehind (earlier ++ before) use.tree use.path := by
  induction events generalizing cache tree earlier uses with
  | nil =>
      cases hrun
      rw [List.append_nil]
      exact ⟨h, fun before use rest heq => absurd heq (by simp)⟩
  | cons event events ih =>
      cases event with
      | edit change => exact ih h hrun
      | use path =>
          cases hget : cache.get tree path with
          | mk answer after =>
              cases htail : history after tree events with
              | mk others last' =>
                  simp only [history, hget, htail] at hrun
                  cases hrun
                  obtain ⟨hlast, hothers⟩ := ih (h.get hget) htail
                  rw [List.append_assoc, List.singleton_append] at hlast
                  refine ⟨hlast, fun before use rest heq => ?_⟩
                  cases before with
                  | nil =>
                      obtain ⟨rfl, -⟩ := List.cons.inj heq
                      rw [List.append_nil]
                      exact h.answer_eq hget
                  | cons first before =>
                      obtain ⟨rfl, hrest⟩ := List.cons.inj heq
                      rw [hothers before use rest hrest, List.append_assoc, List.singleton_append]

/-- The paths of a history are those that its events use. -/
theorem history_paths (cache : SourceCache) (tree : FileTree) (events : List Event) :
    (history cache tree events).1.map (·.path) = events.filterMap Event.used? := by
  induction events generalizing cache tree with
  | nil => rfl
  | cons event events ih =>
      cases event with
      | edit change => exact ih cache (change tree)
      | use path => exact congrArg (path :: ·) (ih _ tree)

/-- A use of a path leaves everything as it was that a cache holds for other paths. -/
theorem get_other (cache : SourceCache) (tree : FileTree) {path other : String}
    (h : Path.same path other = false) :
    (cache.get tree path).2.find? other = cache.find? other := by
  cases hget : cache.get tree path with
  | mk answer after =>
      cases hknown : cache.find? path with
      | some known => rw [(get_of_known hknown hget).2]
      | none =>
          rw [(get_of_new hknown hget).2, find?_append, h]
          exact Option.or_none

/-- **The first use of a path is final.** In a history that begins with a fresh cache, a use of a
    path that was used before, in whatever spelling, has the source file of the earlier use, or is
    reported as skipped if that one failed, whatever the files are by then. The paths of the cache
    are the paths used, each class of equal ones once, in the order and spelling of their first
    use. No use of one path changes what a cache holds for another one. -/
theorem first_use_final {events : List Event}
    (hrun : history {} tree events = (uses, last)) :
    (∀ before first mid later rest, uses = before ++ first :: (mid ++ later :: rest) →
      Path.same first.path later.path = true →
      (∀ file, first.answer = .ok file → later.answer = .ok file) ∧
      (∀ e, first.answer = .error e → ∃ e', later.answer = .error e' ∧
        ∀ recovery, e'.chain recovery = [s!"skipped because '{later.path}' failed to parse"])) ∧
    uses.map (·.path) = events.filterMap Event.used? ∧
    last.paths = Path.firstSpellings (uses.map (·.path)) ∧
    (last.paths.Pairwise fun a b => Path.same a b = false) ∧
    (∀ use ∈ uses, ∃ first ∈ last.paths, Path.same first use.path = true) ∧
    ∀ (cache : SourceCache) (tree : FileTree) (path other : String),
      Path.same path other = false → (cache.get tree path).2.find? other = cache.find? other := by
  obtain ⟨hlast, hanswers⟩ := history_answers Remembers.empty hrun
  simp only [List.nil_append] at hlast hanswers
  have hused : uses.map (·.path) = events.filterMap Event.used? := by
    rw [← history_paths {} tree events, hrun]
  have hpaths := hlast.paths
  refine ⟨?_, hused, hpaths, ?_, ?_, fun cache tree path other => get_other cache tree⟩
  · intro before first mid later rest heq hsame
    have hfirst := hanswers before first (mid ++ later :: rest) heq
    have hlater := hanswers (before ++ first :: mid) later rest (by rw [heq]; simp)
    rw [answerBehind_again _ hfirst hsame] at hlater
    rw [hlater]
    cases h : first.answer with
    | ok file => simp [Use.answerAgain, h]
    | error e => simp [Use.answerAgain, h, SourceError.chain]
  · rw [hpaths]
    exact Path.firstSpellings_pairwise _
  · intro use huse
    rw [hpaths]
    exact Path.exists_firstSpelling (List.mem_map_of_mem huse)

/-- A directory with one source file. -/
def oneFileTree : FileTree := ⟨[], [(["a.go".toList], .file "package p".toUTF8)]⟩

/-- The hypotheses of `first_use_final` are met by a file that is used, removed and used again in
    another spelling. -/
theorem first_use_final_removed :
    ∃ first later last, history {} oneFileTree
        [.use "a.go", .edit (·.erase ["a.go".toList]), .use "a.go/"] = ([first, later], last) ∧
      ∃ file, first.answer = .ok file ∧ later.answer = .ok file := by
  cases hrun : history {} oneFileTree
      [.use "a.go", .edit (·.erase ["a.go".toList]), .use "a.go/"] with
  | mk uses last =>
      obtain ⟨hfinal, hpaths, -⟩ := first_use_final hrun
      obtain ⟨first, others, rfl, hfirst, hothers⟩ := List.map_eq_cons_iff.mp hpaths
      obtain ⟨later, none, rfl, hlater, hnone⟩ := List.map_eq_cons_iff.mp hothers
      obtain rfl := List.map_eq_nil_iff.mp hnone
      have hread : ((history {} oneFileTree
          [.use "a.go", .edit (·.erase ["a.go".toList]), .use "a.go/"]).1.all
            (·.answer.isOk)) = true := by decide
      rw [hrun] at hread
      cases hfile : first.answer with
      | error e => simp [hfile, Except.isOk, Except.toBool] at hread
      | ok file =>
          have hsame : Path.same first.path later.path = true := by
            rw [hfirst, hlater]
            decide
          exact ⟨first, later, last, rfl, file, hfile,
            (hfinal [] first [] later [] rfl hsame).1 file hfile⟩

end SourceCache

end FluentBuilder

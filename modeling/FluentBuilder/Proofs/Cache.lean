import FluentBuilder.SourceCache

/-!
# Source caches — what is known stays known

The first use of a path decides what a cache holds for it and for every path with the same
components. `get_find?` says that the answer to a use is what the cache holds afterwards,
`get_extends` that nothing it held before is lost, and `get_congr` that errors leave no trace in it.
-/

namespace FluentBuilder

namespace Path

/-- A path has the components that it has. -/
@[simp] theorem same_refl (path : String) : same path path = true := beq_self_eq_true _

end Path

/-- What is left of reading a source file when errors are forgotten. -/
theorem readSource_toOption (tree : FileTree) (path : String) :
    (readSource tree path).toOption =
      (tree.readText path).toOption.bind fun text =>
        (Go.SourceFile.parse path text).toOption := by
  unfold readSource
  cases tree.readText path with
  | error e => rfl
  | ok text =>
      cases hparse : Go.SourceFile.parse path text <;>
        simp only [Except.toOption, Option.bind_some, hparse]

namespace SourceCache

/-- One cache holds at least what another one holds. -/
def Extends (before after : SourceCache) : Prop :=
  ∀ path found, before.find? path = some found → after.find? path = some found

/-- A cache holds what it holds. -/
theorem Extends.refl (cache : SourceCache) : Extends cache cache := fun _ _ h => h

/-- Caches that hold more and more. -/
theorem Extends.trans {before mid after : SourceCache} (h₁ : Extends before mid)
    (h₂ : Extends mid after) : Extends before after :=
  fun path found h => h₂ path found (h₁ path found h)

/-- A new entry is found behind all the others. -/
theorem find?_append (cache : SourceCache) (path path' : String)
    (found : Option Go.SourceFile) :
    (SourceCache.mk (cache.known ++ [(path, found)])).find? path' =
      (cache.find? path').or (if Path.same path path' then some found else none) := by
  unfold find?
  cases h : cache.known.find? fun known => Path.same known.1 path' with
  | some known => simp [List.find?_append, h]
  | none =>
      by_cases hsame : Path.same path path' = true
      · simp [List.find?_append, h, hsame]
      · simp [List.find?_append, h, hsame]

/-- A new entry hides nothing. -/
theorem extends_append (cache : SourceCache) (path : String) (found : Option Go.SourceFile) :
    Extends cache ⟨cache.known ++ [(path, found)]⟩ := by
  intro path' found' h
  rw [find?_append, h]
  rfl

/-- A new entry is found where nothing was. -/
theorem find?_append_self {cache : SourceCache} {path : String} (h : cache.find? path = none)
    (found : Option Go.SourceFile) :
    (SourceCache.mk (cache.known ++ [(path, found)])).find? path = some found := by
  rw [find?_append, h, Path.same_refl]
  rfl

variable {cache after : SourceCache} {tree : FileTree} {path : String}
  {found : Except SourceError Go.SourceFile}

/-- A path that was used before has the file of that time, and the cache stays as it is. -/
theorem get_of_known {known : Option Go.SourceFile} (hknown : cache.find? path = some known)
    (h : cache.get tree path = (found, after)) : found.toOption = known ∧ after = cache := by
  unfold get at h
  rw [hknown] at h
  cases known with
  | some file => cases h; exact ⟨rfl, rfl⟩
  | none => cases h; exact ⟨rfl, rfl⟩

/-- A path that is new is read, and remembered with what was read. -/
theorem get_of_new (hnew : cache.find? path = none)
    (h : cache.get tree path = (found, after)) :
    found = readSource tree path ∧ after = ⟨cache.known ++ [(path, found.toOption)]⟩ := by
  unfold get at h
  rw [hnew] at h
  cases hread : readSource tree path with
  | ok file => rw [hread] at h; cases h; exact ⟨rfl, rfl⟩
  | error e => rw [hread] at h; cases h; exact ⟨rfl, rfl⟩

/-- The answer to a use of a path is what the cache holds for it afterwards. -/
theorem get_find? (h : cache.get tree path = (found, after)) :
    after.find? path = some found.toOption := by
  cases hknown : cache.find? path with
  | some known =>
      obtain ⟨hfound, rfl⟩ := get_of_known hknown h
      rw [hknown, hfound]
  | none =>
      obtain ⟨-, rfl⟩ := get_of_new hknown h
      exact find?_append_self hknown _

/-- A use of a path loses nothing that the cache held. -/
theorem get_extends (h : cache.get tree path = (found, after)) : Extends cache after := by
  cases hknown : cache.find? path with
  | some known =>
      obtain ⟨-, rfl⟩ := get_of_known hknown h
      exact Extends.refl _
  | none =>
      obtain ⟨-, rfl⟩ := get_of_new hknown h
      exact extends_append cache path _

/-- A use of a path leads to the same cache in two trees that hold the same source file there. -/
theorem get_congr (cache : SourceCache) {tree' : FileTree}
    (h : (readSource tree path).toOption = (readSource tree' path).toOption) :
    (cache.get tree path).1.toOption = (cache.get tree' path).1.toOption ∧
      (cache.get tree path).2 = (cache.get tree' path).2 := by
  cases hget : cache.get tree path with
  | mk found after =>
      cases hget' : cache.get tree' path with
      | mk found' after' =>
          cases hknown : cache.find? path with
          | some known =>
              obtain ⟨hfound, rfl⟩ := get_of_known hknown hget
              obtain ⟨hfound', rfl⟩ := get_of_known hknown hget'
              exact ⟨hfound.trans hfound'.symm, rfl⟩
          | none =>
              obtain ⟨rfl, rfl⟩ := get_of_new hknown hget
              obtain ⟨rfl, rfl⟩ := get_of_new hknown hget'
              exact ⟨h, by rw [h]⟩

end SourceCache

end FluentBuilder

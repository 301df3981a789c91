import Mathlib.Data.List.TakeWhile
import FluentBuilder.Path

/-!
# Paths — segments, heads and parents

What the text of a path says about its pieces, without a file tree.

* **`segments_joinSegments`** — putting segments together and cutting them again gives them back.
* **`splitHead_cases`** — a path begins with a root, a leading dot or a name.
* **`parent?_eq_some`** — the parent of a path is what stands in front of its last name.
-/

namespace FluentBuilder

namespace Path

/-! ## Segments -/

/-- A text has at least one segment. -/
theorem segments_ne_nil (cs : List Char) : segments cs ≠ [] := by
  cases cs with
  | nil => exact nofun
  | cons c rest =>
      by_cases hc : (c == '/') = true
      · simp [segments, hc]
      · cases hrest : segments rest <;> simp [segments, hc, hrest]

/-- A character that is no slash belongs to the first segment. -/
theorem segments_cons_of_ne {c : Char} (hc : c ≠ '/') {rest first : List Char}
    {others : List (List Char)} (hrest : segments rest = first :: others) :
    segments (c :: rest) = (c :: first) :: others := by
  simp [segments, hc, hrest]

/-- A slash separates segments. -/
theorem segments_append_slash (a b : List Char) :
    segments (a ++ '/' :: b) = segments a ++ segments b := by
  induction a with
  | nil => rfl
  | cons c a ih =>
      by_cases hc : c = '/'
      · subst hc
        simp [segments, ih]
      · cases ha : segments a with
        | nil => exact absurd ha (segments_ne_nil a)
        | cons first others =>
            rw [List.cons_append, segments_cons_of_ne hc ha,
              segments_cons_of_ne hc (by rw [ih, ha]; rfl)]
            rfl

/-- A text without slashes is one segment. -/
theorem segments_of_not_mem {cs : List Char} (h : '/' ∉ cs) : segments cs = [cs] := by
  induction cs with
  | nil => rfl
  | cons c cs ih =>
      have hc : c ≠ '/' := fun hc => h (hc ▸ .head _)
      exact segments_cons_of_ne hc (ih fun hcs => h (.tail _ hcs))

/-- Segments hold no slashes. -/
theorem not_mem_of_mem_segments {cs s : List Char} (hs : s ∈ segments cs) : '/' ∉ s := by
  induction cs generalizing s with
  | nil =>
      obtain rfl : s = [] := by simpa [segments] using hs
      exact nofun
  | cons c cs ih =>
      by_cases hc : c = '/'
      · subst hc
        rcases List.mem_cons.mp hs with rfl | hs
        · exact nofun
        · exact ih hs
      · cases hcs : segments cs with
        | nil => exact absurd hcs (segments_ne_nil cs)
        | cons first others =>
            rw [segments_cons_of_ne hc hcs] at hs
            rcases List.mem_cons.mp hs with rfl | hs
            · have hfirst : '/' ∉ first := ih (hcs ▸ .head _)
              simpa [Ne.symm hc] using hfirst
            · exact ih (hcs ▸ .tail _ hs)

/-- What was put together with slashes is cut at them again. -/
theorem segments_joinSegments {ss : List (List Char)} (hne : ss ≠ [])
    (hs : ∀ s ∈ ss, '/' ∉ s) : segments (joinSegments ss) = ss := by
  induction ss with
  | nil => exact absurd rfl hne
  | cons s rest ih =>
      cases rest with
      | nil =>
          rw [show joinSegments [s] = s by simp [joinSegments]]
          exact segments_of_not_mem (hs s (.head _))
      | cons s' rest =>
          have hjoin : joinSegments (s :: s' :: rest) = s ++ '/' :: joinSegments (s' :: rest) := by
            simp [joinSegments, List.intersperse]
          rw [hjoin, segments_append_slash, segments_of_not_mem (hs s (.head _)),
            ih nofun fun t ht => hs t (.tail _ ht)]
          rfl

/-! ## Heads and parents -/

/-- A path begins with a root, a leading dot or a name. -/
theorem splitHead_cases (cs : List Char) :
    (∃ rest, cs = '/' :: rest ∧ splitHead cs = (['/'], rest)) ∨
    (∃ rest, cs = '.' :: rest ∧ (rest = [] ∨ ∃ more, rest = '/' :: more) ∧
      splitHead cs = (['.'], rest)) ∨
    (splitHead cs = ([], cs) ∧
      (cs = [] ∨ ∃ first others, segments cs = first :: others ∧ isName first = true)) := by
  cases cs with
  | nil => exact .inr (.inr ⟨rfl, .inl rfl⟩)
  | cons c rest =>
      by_cases hslash : c = '/'
      · subst hslash
        exact .inl ⟨rest, rfl, rfl⟩
      · by_cases hdot : c = '.' ∧ (rest = [] ∨ ∃ more, rest = '/' :: more)
        · obtain ⟨rfl, hrest⟩ := hdot
          refine .inr (.inl ⟨rest, rfl, hrest, ?_⟩)
          rcases hrest with rfl | ⟨more, rfl⟩ <;> rfl
        · refine .inr (.inr ⟨?_, .inr ?_⟩)
          · unfold splitHead
            split
            case h_1 => exact absurd (List.cons.inj ‹_›).1 hslash
            case h_2 =>
              obtain ⟨rfl, rfl⟩ := List.cons.inj ‹_›
              exact absurd ⟨rfl, .inl rfl⟩ hdot
            case h_3 =>
              obtain ⟨rfl, rfl⟩ := List.cons.inj ‹_›
              exact absurd ⟨rfl, .inr ⟨_, rfl⟩⟩ hdot
            case h_4 => rfl
          · cases hrest : segments rest with
            | nil => exact absurd hrest (segments_ne_nil rest)
            | cons first others =>
                refine ⟨c :: first, others, segments_cons_of_ne hslash hrest, ?_⟩
                by_cases hc : c = '.'
                · -- a second dot or a letter stands behind the first one
                  subst hc
                  cases rest with
                  | nil => exact absurd ⟨rfl, .inl rfl⟩ hdot
                  | cons d more =>
                      have hd : d ≠ '/' := by
                        rintro rfl
                        exact hdot ⟨rfl, .inr ⟨more, rfl⟩⟩
                      cases hmore : segments more with
                      | nil => exact absurd hmore (segments_ne_nil more)
                      | cons s ss =>
                          rw [segments_cons_of_ne hd hmore] at hrest
                          obtain ⟨rfl, -⟩ := List.cons.inj hrest
                          simp [isName]
                · simp [isName, hc]

/-- A path whose first segment is a name has no head. -/
theorem splitHead_of_name {cs first : List Char} {others : List (List Char)}
    (hcs : segments cs = first :: others) (hfirst : isName first = true) :
    splitHead cs = ([], cs) := by
  rcases splitHead_cases cs with ⟨rest, rfl, -⟩ | ⟨rest, rfl, rfl | ⟨more, rfl⟩, -⟩ | ⟨h, -⟩
  · obtain ⟨rfl, -⟩ := List.cons.inj (hcs.symm.trans (segments_append_slash [] rest))
    cases hfirst
  · obtain ⟨rfl, -⟩ := List.cons.inj hcs
    cases hfirst
  · obtain ⟨rfl, -⟩ := List.cons.inj (hcs.symm.trans (segments_append_slash ['.'] more))
    cases hfirst
  · exact h

/-- Behind the last name of segments stands nothing that counts. -/
theorem trimmed (ss : List (List Char)) :
    ∃ junk, ss = (ss.reverse.dropWhile (!isName ·)).reverse ++ junk := by
  refine ⟨(ss.reverse.takeWhile (!isName ·)).reverse, ?_⟩
  rw [← List.reverse_append, List.takeWhile_append_dropWhile, List.reverse_reverse]

/-- The parent of a path is what stands in front of its last name. -/
theorem parent?_eq_some {path directory : String} (h : parent? path = some directory) :
    (directory = "" ∧ (splitHead path.toList).1 = ['.']) ∨
      ∃ kept junk, segments (splitHead path.toList).2 = kept ++ junk ∧ junk ≠ [] ∧
        directory.toList = (splitHead path.toList).1 ++ joinSegments kept := by
  unfold parent? at h
  obtain ⟨tail, htail⟩ := trimmed (segments (splitHead path.toList).2)
  cases hback : (segments (splitHead path.toList).2).reverse.dropWhile (!isName ·) with
  | nil =>
      simp only [hback] at h
      by_cases hdot : (splitHead path.toList).1 = ['.']
      · rw [if_pos (beq_iff_eq.mpr hdot)] at h
        cases h
        exact .inl ⟨rfl, hdot⟩
      · rw [if_neg (hdot ∘ beq_iff_eq.mp)] at h
        cases h
  | cons name front =>
      simp only [hback, Option.some.injEq] at h
      obtain ⟨junk, hjunk⟩ := trimmed front.reverse
      rw [List.reverse_reverse] at hjunk
      refine .inr ⟨(front.dropWhile (!isName ·)).reverse, junk ++ name :: tail, ?_, by simp, ?_⟩
      · rw [htail, hback, List.reverse_cons, hjunk]
        simp
      · rw [← h, String.toList_ofList]

/-- What stands in front of the last name of a path has the head of the path. -/
theorem splitHead_kept {cs : List Char} {kept junk : List (List Char)}
    (hseg : segments (splitHead cs).2 = kept ++ junk) (hjunk : junk ≠ [])
    (hne : (splitHead cs).1 ++ joinSegments kept ≠ []) :
    splitHead ((splitHead cs).1 ++ joinSegments kept) =
      ((splitHead cs).1, joinSegments kept) := by
  have hslash : ∀ s ∈ kept, '/' ∉ s := fun s hs =>
    not_mem_of_mem_segments (hseg ▸ List.mem_append_left junk hs)
  rcases splitHead_cases cs with ⟨rest, -, hsplit⟩ | ⟨rest, -, hrest, hsplit⟩ | ⟨hsplit, hrest⟩
  · rw [hsplit]
    rfl
  · rw [hsplit] at hseg ⊢
    cases kept with
    | nil => rfl
    | cons s kept =>
        -- the first segment behind a leading dot is empty
        obtain rfl : s = [] := by
          rcases hrest with rfl | ⟨more, rfl⟩
          · exact (List.cons.inj hseg).1.symm
          · exact (List.cons.inj ((segments_append_slash [] more).symm.trans hseg)).1.symm
        cases kept <;> rfl
  · rw [hsplit] at hseg hne ⊢
    rw [List.nil_append] at hne ⊢
    cases kept with
    | nil => exact absurd rfl hne
    | cons s kept =>
        have hkept := segments_joinSegments (List.cons_ne_nil s kept) hslash
        refine splitHead_of_name hkept ?_
        rcases hrest with rfl | ⟨first, others, hfirst, hname⟩
        · obtain ⟨-, hnil⟩ := List.cons.inj hseg
          exact absurd (List.append_eq_nil_iff.mp hnil.symm).2 hjunk
        · rw [hfirst] at hseg
          obtain ⟨rfl, -⟩ := List.cons.inj hseg
          exact hname

end Path

end FluentBuilder

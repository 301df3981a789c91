import Mathlib.Data.List.Chain
import FluentBuilder.Go.Node
import FluentBuilder.Proofs.Unambiguous
import FluentBuilder.Text.Blank

/-!
# Tidiness — white space and brackets in signatures

The blanks of a signature stand behind `chan`, in front of results and behind commas, so always
between two texts that are tidy themselves, and what it puts into brackets is closed by their
counterparts. `Composed` says in which ways a signature is put together; what each of these ways
keeps holds of all signatures.

* **`composed`** — every signature is composed from its names, its lengths and fixed words.
* **`Composed.tidy`** — a composed text is tidy if its lengths are.
* **`Composed.matched`** — its brackets match if those of its lengths do.
* **`Go.TypeExpr.signature_tidy`** — all of it, for the signature of a type.
-/

namespace FluentBuilder

open Go (TypeExpr Param Node)
open Text (isBlank)

/-! ## Tidy texts -/

/-- A text whose only white space are single blanks between other characters. -/
structure Tidy (s : List Char) : Prop where
  ne_nil : s ≠ []
  blank  : ∀ c ∈ s, isBlank c = true → c = ' '
  single : s.IsChain fun c d => c = ' ' → d ≠ ' '
  first  : s.head? ≠ some ' '
  last   : s.getLast? ≠ some ' '

-- The decision for the members of a text is named: there is one for all characters, too, that
-- would go through every one of them.
instance (s : List Char) : Decidable (Tidy s) :=
  haveI : Decidable (∀ c ∈ s, isBlank c = true → c = ' ') := List.decidableBAll _ s
  decidable_of_iff
    (s ≠ [] ∧ (∀ c ∈ s, isBlank c = true → c = ' ') ∧ (s.IsChain fun c d => c = ' ' → d ≠ ' ') ∧
      s.head? ≠ some ' ' ∧ s.getLast? ≠ some ' ')
    ⟨fun ⟨hne, hblank, hsingle, hfirst, hlast⟩ => ⟨hne, hblank, hsingle, hfirst, hlast⟩,
      fun h => ⟨h.ne_nil, h.blank, h.single, h.first, h.last⟩⟩

namespace Tidy

variable {s s' : List Char}

/-- A text without white space is tidy. -/
theorem of_noBlank (hne : s ≠ []) (h : ∀ c ∈ s, isBlank c = false) : Tidy s := by
  have hspace : ' ' ∉ s := fun hmem => absurd (h _ hmem) (by decide)
  refine ⟨hne, ?_, ?_, ?_, ?_⟩
  · intro c hc hblank
    rw [h c hc] at hblank
    cases hblank
  · refine (List.pairwise_of_forall_mem_list ?_).isChain
    rintro c hc - - rfl
    exact absurd hc hspace
  · intro hfirst
    exact hspace (List.mem_of_head? hfirst)
  · intro hlast
    exact hspace (List.mem_of_getLast? hlast)

theorem append (h : Tidy s) (h' : Tidy s') : Tidy (s ++ s') where
  ne_nil := List.append_ne_nil_of_left_ne_nil h.ne_nil s'
  blank := List.forall_mem_append.mpr ⟨h.blank, h'.blank⟩
  single := by
    refine h.single.append h'.single ?_
    rintro c hc - - rfl
    exact absurd hc h.last
  first := by
    rw [List.head?_append_of_ne_nil _ h.ne_nil]
    exact h.first
  last := by
    rw [List.getLast?_append_of_ne_nil _ h'.ne_nil]
    exact h'.last

theorem spaced (h : Tidy s) (h' : Tidy s') : Tidy (s ++ ' ' :: s') where
  ne_nil := List.append_ne_nil_of_left_ne_nil h.ne_nil _
  blank := by
    rw [List.forall_mem_append, List.forall_mem_cons]
    exact ⟨h.blank, fun _ => rfl, h'.blank⟩
  single := by
    refine h.single.append (h'.single.cons ?_) ?_
    · rintro d hd - rfl
      exact h'.first hd
    · rintro c hc - - rfl
      exact absurd hc h.last
  first := by
    rw [List.head?_append_of_ne_nil _ h.ne_nil]
    exact h.first
  last := by
    rw [List.getLast?_append_of_ne_nil _ (List.cons_ne_nil _ _),
      List.getLast?_cons_of_ne_nil h'.ne_nil]
    exact h'.last

/-- A tidy text holds no line breaks and no tabs. -/
theorem not_mem (h : Tidy s) {c : Char} (hblank : isBlank c = true) (hc : c ≠ ' ') : c ∉ s :=
  fun hmem => hc (h.blank c hmem hblank)

end Tidy

/-! ## Matching brackets -/

/-- The brackets, each with the one that closes it. -/
def brackets : List (Char × Char) := [('(', ')'), ('[', ']'), ('\x7b', '\x7d')]

/-- Read a character behind a text with some closing brackets missing, the next one first. Only
brackets of some kinds count, and none but the next one can be closed. -/
def readBracket (kinds : List (Char × Char)) (missing : List Char) (c : Char) :
    Option (List Char) :=
  match kinds.find? (·.1 == c) with
  | some kind => some (kind.2 :: missing)
  | none =>
    if kinds.any (·.2 == c) then if missing.head? = some c then some missing.tail else none
    else some missing

/-- All brackets of some kinds are closed in the order in which they have to be. -/
def Matched (kinds : List (Char × Char)) (s : List Char) : Prop :=
  s.foldlM (readBracket kinds) [] = some []

instance (kinds : List (Char × Char)) (s : List Char) : Decidable (Matched kinds s) :=
  inferInstanceAs (Decidable (s.foldlM (readBracket kinds) [] = some []))

section

variable {kinds : List (Char × Char)}

/-- No bracket is two of the marks. -/
theorem brackets_distinct : ∀ b ∈ brackets, ∀ b' ∈ brackets,
    b.1 ≠ b'.2 ∧ (b.1 = b'.1 → b = b') ∧ (b.2 = b'.2 → b = b') := by
  decide

/-! ### One character -/

theorem readBracket_other {c : Char} (h : ∀ kind ∈ kinds, kind.1 ≠ c ∧ kind.2 ≠ c)
    (missing : List Char) : readBracket kinds missing c = some missing := by
  have hopen : kinds.find? (·.1 == c) = none := by
    rw [List.find?_eq_none]
    intro kind hkind
    simpa using (h kind hkind).1
  have hclose : kinds.any (·.2 == c) = false := by
    rw [List.any_eq_false]
    intro kind hkind
    simpa using (h kind hkind).2
  rw [readBracket, hopen, hclose]
  rfl

theorem readBracket_open (hkinds : kinds ⊆ brackets) {kind : Char × Char} (hkind : kind ∈ kinds)
    (missing : List Char) : readBracket kinds missing kind.1 = some (kind.2 :: missing) := by
  have hopen : kinds.find? (·.1 == kind.1) = some kind := by
    cases hfind : kinds.find? (·.1 == kind.1) with
    | none => exact absurd (beq_self_eq_true _) (List.find?_eq_none.mp hfind kind hkind)
    | some other =>
        have hsame : other.1 = kind.1 := by simpa using List.find?_some hfind
        have hother := hkinds (List.mem_of_find?_eq_some hfind)
        rw [(brackets_distinct other hother kind (hkinds hkind)).2.1 hsame]
  rw [readBracket, hopen]

theorem readBracket_close (hkinds : kinds ⊆ brackets) {kind : Char × Char} (hkind : kind ∈ kinds)
    (missing : List Char) : readBracket kinds (kind.2 :: missing) kind.2 = some missing := by
  have hopen : kinds.find? (·.1 == kind.2) = none := by
    rw [List.find?_eq_none]
    intro other hother
    simpa using (brackets_distinct other (hkinds hother) kind (hkinds hkind)).1
  have hclose : kinds.any (·.2 == kind.2) = true :=
    List.any_eq_true.mpr ⟨kind, hkind, beq_self_eq_true _⟩
  rw [readBracket, hopen, hclose]
  show (if (kind.2 :: missing).head? = some kind.2 then some missing else none) = some missing
  exact if_pos rfl

/-- What is missing from the beginning stays missing. -/
theorem readBracket_below {missing missing' : List Char} {c : Char}
    (h : readBracket kinds missing c = some missing') (below : List Char) :
    readBracket kinds (missing ++ below) c = some (missing' ++ below) := by
  rw [readBracket] at h ⊢
  cases hfind : kinds.find? (·.1 == c) with
  | some kind =>
      rw [hfind] at h
      cases h
      rfl
  | none =>
      rw [hfind] at h
      dsimp only at h ⊢
      by_cases hclose : kinds.any (·.2 == c) = true
      · rw [if_pos hclose] at h ⊢
        obtain ⟨hnext, ⟨⟩⟩ := Option.ite_some_none_eq_some.mp h
        cases missing with
        | nil => cases hnext
        | cons next missing => exact if_pos hnext
      · rw [if_neg hclose] at h ⊢
        cases h
        rfl

/-! ### Texts -/

namespace Matched

variable {s s' : List Char}

theorem nil : Matched kinds [] := rfl

/-- **A matched text closes what it opens**, whatever is missing in front of it. -/
theorem read (h : Matched kinds s) (missing : List Char) :
    s.foldlM (readBracket kinds) missing = some missing := by
  have hbelow : ∀ (s : List Char) {before after : List Char},
      s.foldlM (readBracket kinds) before = some after →
        s.foldlM (readBracket kinds) (before ++ missing) = some (after ++ missing) := by
    intro s
    induction s with
    | nil =>
        rintro _ _ ⟨⟩
        rfl
    | cons c rest ih =>
        intro before after h
        rw [List.foldlM_cons] at h ⊢
        obtain ⟨next, hnext, hrest⟩ := Option.bind_eq_some_iff.mp h
        rw [readBracket_below hnext]
        exact ih hrest
  exact hbelow s h

theorem append (h : Matched kinds s) (h' : Matched kinds s') : Matched kinds (s ++ s') := by
  rw [Matched, List.foldlM_append, h]
  exact h'

/-- A text without brackets is matched. -/
theorem of_noBracket (h : ∀ c ∈ s, ∀ kind ∈ kinds, kind.1 ≠ c ∧ kind.2 ≠ c) :
    Matched kinds s := by
  induction s with
  | nil => rfl
  | cons c rest ih =>
      obtain ⟨hc, hrest⟩ := List.forall_mem_cons.mp h
      rw [Matched, List.foldlM_cons, readBracket_other hc]
      exact ih hrest

/-- Brackets around a matched text, whether they count or not. -/
theorem enclosed (hkinds : kinds ⊆ brackets) (h : Matched kinds s) {kind : Char × Char}
    (hkind : kind ∈ brackets) : Matched kinds (kind.1 :: s ++ [kind.2]) := by
  by_cases hcounts : kind ∈ kinds
  · rw [Matched, List.cons_append, List.foldlM_cons, readBracket_open hkinds hcounts]
    show (s ++ [kind.2]).foldlM (readBracket kinds) [kind.2] = some []
    rw [List.foldlM_append, h.read]
    show (readBracket kinds [kind.2] kind.2).bind pure = some []
    rw [readBracket_close hkinds hcounts]
    rfl
  · have hother : ∀ other ∈ kinds, other.1 ≠ kind.1 ∧ other.1 ≠ kind.2 ∧ other.2 ≠ kind.1 ∧
        other.2 ≠ kind.2 := by
      intro other hmem
      have hne : other ≠ kind := fun heq => hcounts (heq ▸ hmem)
      obtain ⟨hcross, hfirst, hsecond⟩ := brackets_distinct other (hkinds hmem) kind hkind
      have hcross' := (brackets_distinct kind hkind other (hkinds hmem)).1
      exact ⟨fun heq => hne (hfirst heq), hcross, hcross'.symm, fun heq => hne (hsecond heq)⟩
    have hopen : Matched kinds [kind.1] :=
      of_noBracket (by simpa using fun a b hmem => ⟨(hother _ hmem).1, (hother _ hmem).2.2.1⟩)
    have hclose : Matched kinds [kind.2] :=
      of_noBracket (by simpa using fun a b hmem => ⟨(hother _ hmem).2.1, (hother _ hmem).2.2.2⟩)
    exact (hopen.append h).append hclose

end Matched

end

/-! ## How signatures are put together -/

/-- A text without white space and brackets. -/
structure IsBare (s : List Char) : Prop where
  ne_nil    : s ≠ []
  noBlank   : ∀ c ∈ s, isBlank c = false
  noBracket : ∀ c ∈ s, ∀ kind ∈ brackets, kind.1 ≠ c ∧ kind.2 ≠ c

instance (s : List Char) : Decidable (IsBare s) :=
  haveI : Decidable (∀ c ∈ s, isBlank c = false) := List.decidableBAll _ s
  haveI : Decidable (∀ c ∈ s, ∀ kind ∈ brackets, kind.1 ≠ c ∧ kind.2 ≠ c) :=
    List.decidableBAll _ s
  decidable_of_iff
    (s ≠ [] ∧ (∀ c ∈ s, isBlank c = false) ∧
      ∀ c ∈ s, ∀ kind ∈ brackets, kind.1 ≠ c ∧ kind.2 ≠ c)
    ⟨fun ⟨hne, hblank, hbracket⟩ => ⟨hne, hblank, hbracket⟩,
      fun h => ⟨h.ne_nil, h.noBlank, h.noBracket⟩⟩

/-- What is put together from bare texts and from given lengths: one behind the other, with a blank
between them, or in brackets. -/
inductive Composed (lengths : List (List Char)) : List Char → Prop where
  | bare {s : List Char} (h : IsBare s) : Composed lengths s
  | length {s : List Char} (h : s ∈ lengths) : Composed lengths s
  | append {s s' : List Char} (h : Composed lengths s) (h' : Composed lengths s') :
      Composed lengths (s ++ s')
  | spaced {s s' : List Char} (h : Composed lengths s) (h' : Composed lengths s') :
      Composed lengths (s ++ ' ' :: s')
  | empty (kind : Char × Char) (hkind : kind ∈ brackets) : Composed lengths [kind.1, kind.2]
  | enclosed (kind : Char × Char) (hkind : kind ∈ brackets) {s : List Char}
      (h : Composed lengths s) : Composed lengths (kind.1 :: s ++ [kind.2])

/-- A bracket is no white space. -/
theorem brackets_tidy : ∀ kind ∈ brackets, Tidy [kind.1] ∧ Tidy [kind.2] := by
  decide

namespace Composed

variable {lengths : List (List Char)}

/-- **A composed text is tidy** if its lengths are. -/
theorem tidy (hlengths : ∀ length ∈ lengths, Tidy length) {s : List Char}
    (h : Composed lengths s) : Tidy s := by
  induction h with
  | bare h => exact .of_noBlank h.ne_nil h.noBlank
  | length h => exact hlengths _ h
  | append _ _ ih ih' => exact ih.append ih'
  | spaced _ _ ih ih' => exact ih.spaced ih'
  | empty kind hkind =>
      obtain ⟨hopen, hclose⟩ := brackets_tidy _ hkind
      exact hopen.append hclose
  | enclosed kind hkind _ ih =>
      obtain ⟨hopen, hclose⟩ := brackets_tidy _ hkind
      exact (hopen.append ih).append hclose

/-- **The brackets of a composed text match** if those of its lengths do. -/
theorem matched {kinds : List (Char × Char)} (hkinds : kinds ⊆ brackets)
    (hlengths : ∀ length ∈ lengths, Matched kinds length) {s : List Char}
    (h : Composed lengths s) : Matched kinds s := by
  induction h with
  | bare h => exact .of_noBracket fun c hc kind hkind => h.noBracket c hc kind (hkinds hkind)
  | length h => exact hlengths _ h
  | append _ _ ih ih' => exact ih.append ih'
  | spaced _ _ ih ih' =>
      have hspace : ∀ kind ∈ brackets, kind.1 ≠ ' ' ∧ kind.2 ≠ ' ' := by decide
      have hblank : Matched kinds [' '] :=
        .of_noBracket (List.forall_mem_singleton.mpr fun kind hkind => hspace kind (hkinds hkind))
      exact ih.append (hblank.append ih')
  | empty kind hkind => exact Matched.nil.enclosed hkinds hkind
  | enclosed kind hkind _ ih => exact ih.enclosed hkinds hkind

/-- Texts with commas between them. -/
theorem commaSeparated {texts : List (List Char)} (h : ∀ s ∈ texts, Composed lengths s)
    (hne : texts ≠ []) : Composed lengths (commaSeparated texts) := by
  induction texts with
  | nil => exact absurd rfl hne
  | cons s rest ih =>
      obtain ⟨hs, hrest⟩ := List.forall_mem_cons.mp h
      cases rest with
      | nil => exact hs
      | cons s' rest =>
          have hcomma : Composed lengths [','] := .bare (by decide)
          exact hs.append (hcomma.spaced (ih hrest (List.cons_ne_nil s' rest)))

/-- A list in brackets, which may be empty. -/
theorem list {texts : List (List Char)} (h : ∀ s ∈ texts, Composed lengths s)
    (kind : Char × Char) (hkind : kind ∈ brackets) :
    Composed lengths (kind.1 :: FluentBuilder.commaSeparated texts ++ [kind.2]) := by
  cases texts with
  | nil => exact .empty kind hkind
  | cons s rest => exact .enclosed kind hkind (commaSeparated h (List.cons_ne_nil s rest))

/-- Results stand behind the parameters with a blank between them. -/
theorem results {s : List Char} (hs : Composed lengths s) {results : List (Bool × List Char)}
    (h : ∀ result ∈ results, Composed lengths result.2) :
    Composed lengths (s ++ resultText results) := by
  have hlist : Composed lengths
      ('(' :: FluentBuilder.commaSeparated (results.map (·.2)) ++ [')']) :=
    list (List.forall_mem_map.mpr h) ('(', ')') (by decide)
  rw [resultText.eq_def]
  split
  · rwa [List.append_nil]
  · exact hs.spaced (h _ (List.mem_singleton_self _))
  · exact hs.spaced hlist

end Composed

/-! ## The signature of a type -/

/-- The name that a node brings into a signature. -/
def Go.Node.name? : Node → Option String
  | .type (.named name) => some name
  | .type (.qualified _ name) => some name
  | _ => none

/-- The length that a node brings into a signature. -/
def Go.Node.length? : Node → Option String
  | .type (.array length _) => length
  | _ => none

/-- The names in a type, those of packages among them. -/
def Go.TypeExpr.names (t : TypeExpr) : List String := t.nodes.filterMap Node.name?

/-- The lengths of the arrays in a type. -/
def Go.TypeExpr.lengths (t : TypeExpr) : List String := t.nodes.filterMap Node.length?

/-- A node brings a bare name or one of the given lengths into a signature, or nothing. -/
structure Go.Node.Fits (lengths : List (List Char)) (node : Node) : Prop where
  name   : ∀ name, node.name? = some name → IsBare name.toList
  length : ∀ length, node.length? = some length → length.toList ∈ lengths

/-- The words and marks of signatures that are no brackets. -/
def fixedTexts : List (List Char) :=
  [['m', 'a', 'p'], ['c', 'h', 'a', 'n'], ['c', 'h', 'a', 'n', '<', '-'],
    ['<', '-', 'c', 'h', 'a', 'n'], ['f', 'u', 'n', 'c'], ['s', 't', 'r', 'u', 'c', 't'],
    ['i', 'n', 't', 'e', 'r', 'f', 'a', 'c', 'e'], ['*'], ['.'], ['.', '.', '.']]

theorem fixedTexts_bare : ∀ s ∈ fixedTexts, IsBare s := by
  decide

section

variable {lengths : List (List Char)}

namespace Composed

variable {s s' : List Char}

theorem fixed (h : s ∈ fixedTexts) : Composed lengths s := .bare (fixedTexts_bare s h)

/-- A text in brackets in front of another one. -/
theorem bracketed (kind : Char × Char) (hkind : kind ∈ brackets) (h : Composed lengths s)
    (h' : Composed lengths s') : Composed lengths (kind.1 :: s ++ kind.2 :: s') := by
  rw [List.append_cons]
  exact (h.enclosed kind hkind).append h'

/-- A channel in front of the type of its elements. -/
theorem channel (direction : Go.Direction) (h : Composed lengths s) :
    Composed lengths (direction.word ++ s) := by
  cases direction with
  | both => exact (fixed (s := ['c', 'h', 'a', 'n']) (by decide)).spaced h
  | send => exact (fixed (s := ['c', 'h', 'a', 'n', '<', '-']) (by decide)).spaced h
  | receive => exact (fixed (s := ['<', '-', 'c', 'h', 'a', 'n']) (by decide)).spaced h

/-- A word in front of braces that hold nothing. -/
theorem braces (h : s ∈ fixedTexts) : Composed lengths (s ++ ['\x7b', '\x7d']) :=
  (fixed h).append (.empty ('\x7b', '\x7d') (by decide))

end Composed

open Go (typesNodes paramsNodes)

mutual

/-- **A signature is composed** from the names, the lengths and the words in it. -/
theorem composed : ∀ (t : TypeExpr) {s : List Char}, signatureChars t = .ok s →
    (∀ node ∈ t.nodes, node.Fits lengths) → Composed lengths s
  | .named name, s, h, hnodes => by
      cases h
      exact .bare ((List.forall_mem_singleton.mp hnodes).name name rfl)
  | .qualified package name, s, h, hnodes => by
      obtain ⟨hname, hpackage⟩ := List.forall_mem_cons.mp hnodes
      cases package with
      | named package =>
          cases h
          have hfirst : Composed lengths package.toList :=
            .bare ((List.forall_mem_singleton.mp hpackage).name package rfl)
          have hdot : Composed lengths ['.'] := .fixed (by decide)
          exact hfirst.append (hdot.append (.bare (hname.name name rfl)))
      | _ => cases h
  | .array length elem, s, h, hnodes => by
      obtain ⟨hlength, hnodes⟩ := List.forall_mem_cons.mp hnodes
      obtain ⟨e, he, ⟨⟩⟩ := ok_of_bind h
      have helem := composed elem he hnodes
      cases length with
      | none => exact (Composed.empty ('[', ']') (by decide)).append helem
      | some length =>
          have htext := Composed.length (hlength.length length rfl)
          exact htext.bracketed ('[', ']') (by decide) helem
  | .pointer elem, s, h, hnodes => by
      obtain ⟨e, he, ⟨⟩⟩ := ok_of_bind h
      have helem := composed elem he (List.forall_mem_cons.mp hnodes).2
      exact (Composed.fixed (s := ['*']) (by decide)).append helem
  | .map key value, s, h, hnodes => by
      obtain ⟨hkey, hvalue⟩ := List.forall_mem_append.mp (List.forall_mem_cons.mp hnodes).2
      obtain ⟨k, hk, h⟩ := ok_of_bind h
      obtain ⟨v, hv, ⟨⟩⟩ := ok_of_bind h
      have hbehind := (composed key hk hkey).bracketed ('[', ']') (by decide)
        (composed value hv hvalue)
      exact (Composed.fixed (s := ['m', 'a', 'p']) (by decide)).append hbehind
  | .chan direction value, s, h, hnodes => by
      obtain ⟨v, hv, ⟨⟩⟩ := ok_of_bind h
      have hvalue := composed value hv (List.forall_mem_cons.mp hnodes).2
      by_cases hbrackets : needsBrackets direction value = true
      · rw [if_pos hbrackets]
        exact .channel direction (hvalue.enclosed ('(', ')') (by decide))
      · rw [if_neg hbrackets]
        exact .channel direction hvalue
  | .generic base args, s, h, hnodes => by
      obtain ⟨hbase, hargs⟩ := List.forall_mem_append.mp (List.forall_mem_cons.mp hnodes).2
      obtain ⟨b, hb, h⟩ := ok_of_bind h
      obtain ⟨texts, htexts, ⟨⟩⟩ := ok_of_bind h
      rw [List.append_assoc]
      exact (composed base hb hbase).append
        (.list (composed_types args htexts hargs) ('[', ']') (by decide))
  | .paren elem, s, h, hnodes => by
      obtain ⟨e, he, ⟨⟩⟩ := ok_of_bind h
      have helem := composed elem he (List.forall_mem_cons.mp hnodes).2
      exact helem.enclosed ('(', ')') (by decide)
  | .func params results, s, h, hnodes => by
      obtain ⟨hparams, hresults⟩ := List.forall_mem_append.mp (List.forall_mem_cons.mp hnodes).2
      obtain ⟨ps, hps, h⟩ := ok_of_bind h
      obtain ⟨rs, hrs, ⟨⟩⟩ := ok_of_bind h
      have hlist := Composed.list (List.forall_mem_map.mpr (composed_params params hps hparams))
        ('(', ')') (by decide)
      have hhead := (Composed.fixed (s := ['f', 'u', 'n', 'c']) (by decide)).append hlist
      have hall := hhead.results (composed_params results hrs hresults)
      simpa using hall
  | .struct none, s, h, hnodes => by
      cases h
      exact .braces (s := ['s', 't', 'r', 'u', 'c', 't']) (by decide)
  | .struct (some []), s, h, hnodes => by
      cases h
      exact .braces (s := ['s', 't', 'r', 'u', 'c', 't']) (by decide)
  | .struct (some (field :: fields)), s, h, hnodes => by cases h
  | .interface 0, s, h, hnodes => by
      cases h
      exact .braces (s := ['i', 'n', 't', 'e', 'r', 'f', 'a', 'c', 'e']) (by decide)
  | .interface (n + 1), s, h, hnodes => by cases h
  | .other kind, s, h, hnodes => by cases h

/-- The signatures of types are composed. -/
theorem composed_types : ∀ (types : List TypeExpr) {texts : List (List Char)},
    signaturesOf types = .ok texts → (∀ node ∈ typesNodes types, node.Fits lengths) →
    ∀ s ∈ texts, Composed lengths s
  | [], texts, h, hnodes => by
      cases h
      exact nofun
  | t :: rest, texts, h, hnodes => by
      obtain ⟨ht, hrest⟩ := List.forall_mem_append.mp hnodes
      obtain ⟨s, hs, h⟩ := ok_of_bind h
      obtain ⟨ss, hss, ⟨⟩⟩ := ok_of_bind h
      exact List.forall_mem_cons.mpr ⟨composed t hs ht, composed_types rest hss hrest⟩

/-- The signatures of parameters are composed. -/
theorem composed_params : ∀ (params : List Param) {texts : List (Bool × List Char)},
    paramSignatures params = .ok texts → (∀ node ∈ paramsNodes params, node.Fits lengths) →
    ∀ text ∈ texts, Composed lengths text.2
  | [], texts, h, hnodes => by
      cases h
      exact nofun
  | ⟨t, variadic⟩ :: rest, texts, h, hnodes => by
      obtain ⟨ht, hrest⟩ := List.forall_mem_append.mp hnodes
      obtain ⟨s, hs, h⟩ := ok_of_bind h
      obtain ⟨ss, hss, ⟨⟩⟩ := ok_of_bind h
      refine List.forall_mem_cons.mpr ⟨?_, composed_params rest hss hrest⟩
      have htext := composed t hs ht
      cases variadic with
      | true => exact (Composed.fixed (s := ['.', '.', '.']) (by decide)).append htext
      | false => exact htext

end

end

/-- **Signatures are tidy.** If the names in a type are bare and its lengths tidy, its signature is
    not empty, its only white space are single blanks between other characters, and its brackets
    match if those of its lengths do, whether all kinds of brackets count or only some. -/
theorem Go.TypeExpr.signature_tidy {t : TypeExpr} {s : String} (h : t.signature = .ok s)
    (hnames : ∀ name ∈ t.names, IsBare name.toList)
    (hlengths : ∀ length ∈ t.lengths, Tidy length.toList) :
    Tidy s.toList ∧ '\n' ∉ s.toList ∧ '\t' ∉ s.toList ∧
      ∀ kinds ⊆ brackets, (∀ length ∈ t.lengths, Matched kinds length.toList) →
        Matched kinds s.toList := by
  have hfits : ∀ node ∈ t.nodes, node.Fits (t.lengths.map String.toList) := by
    intro node hnode
    refine ⟨fun name hname => ?_, fun length hlength => ?_⟩
    · exact hnames name (List.mem_filterMap.mpr ⟨node, hnode, hname⟩)
    · exact List.mem_map_of_mem (List.mem_filterMap.mpr ⟨node, hnode, hlength⟩)
  have hcomposed := composed t (Go.signature_eq_ok_iff.mp h) hfits
  have htidy := hcomposed.tidy (List.forall_mem_map.mpr hlengths)
  refine ⟨htidy, htidy.not_mem (by decide) (by decide), htidy.not_mem (by decide) (by decide), ?_⟩
  intro kinds hkinds hmatched
  exact hcomposed.matched hkinds (List.forall_mem_map.mpr hmatched)

/-- `signature_tidy` for a function with a length that holds blanks and brackets. -/
theorem Go.TypeExpr.signature_tidy_nested :
    let table := TypeExpr.map (.named "string")
      (.array (some "2 * n[0]") (.chan .both (.chan .receive (.named "T"))))
    let list := TypeExpr.generic (.named "List")
      [.pointer (.qualified (.named "a") "B"), .struct none]
    let t := TypeExpr.func [⟨table, false⟩, ⟨list, true⟩]
      [⟨.interface 0, false⟩, ⟨.named "error", false⟩]
    let s := "func(map[string][2 * n[0]]chan (<-chan T), ...List[*a.B, struct\x7b\x7d]) " ++
      "(interface\x7b\x7d, error)"
    t.signature = .ok s ∧ Tidy s.toList ∧ Matched brackets s.toList := by
  intro table list t s
  have h : t.signature = .ok s := by rfl
  have hnames : ∀ name ∈ t.names, IsBare name.toList := by decide
  have hlengths : ∀ length ∈ t.lengths, Tidy length.toList := by decide
  have hmatched : ∀ length ∈ t.lengths, Matched brackets length.toList := by decide
  obtain ⟨htidy, -, -, hbrackets⟩ := Go.TypeExpr.signature_tidy h hnames hlengths
  exact ⟨h, htidy, hbrackets brackets (List.Subset.refl _) hmatched⟩

end FluentBuilder

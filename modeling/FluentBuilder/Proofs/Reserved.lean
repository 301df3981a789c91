import FluentBuilder.Builder
import FluentBuilder.Go.Source
import FluentBuilder.Proofs.Casing

/-!
# Reserved words — what the search in their table finds

The table of reserved words ascends, so the search that halves the distance finds each of its
entries, and it finds nothing else. An identifier for a name keeps away from the table: it either
was compared with it or begins with an underscore, as no entry does.

* **`bisect_eq_true`** — a word of an ascending table is found, by induction on the steps.
* **`isReserved_iff`** — the reserved words are the entries of the table.
* **`isReserved_unexported`** — no identifier for a name is reserved.
* **`unexported_apart`** — an identifier is neither reserved nor the name that it stands for.
* **`unexported_mem_keywords_iff`** — which names have a keyword as their identifier.
* **`struct_builder_unread`** — the builder for such a name is no source text.
-/

namespace FluentBuilder

/-! ## Search in an ascending table -/

/-- Every entry of a table comes before the ones behind it. -/
def Ascending (table : Array String) : Prop :=
  table.toList.Pairwise fun a b => precedes a.toList b.toList = true

instance (table : Array String) : Decidable (Ascending table) :=
  inferInstanceAs (Decidable (table.toList.Pairwise _))

/-- Of two texts, one at most comes before the other. -/
theorem precedes_asymm {a b : List Char} (h : precedes a b = true) : precedes b a = false := by
  induction a generalizing b with
  | nil =>
      cases b with
      | nil => rfl
      | cons => rfl
  | cons c a ih =>
      cases b with
      | nil => simp [precedes] at h
      | cons d b =>
          simp only [precedes, Bool.or_eq_true, decide_eq_true_eq, Bool.and_eq_true, beq_iff_eq,
            Bool.or_eq_false_iff, decide_eq_false_iff_not, Bool.and_eq_false_imp] at h ⊢
          rcases h with hlt | ⟨rfl, h⟩
          · exact ⟨by omega, fun heq => absurd (heq ▸ hlt) (Nat.lt_irrefl _)⟩
          · exact ⟨Nat.lt_irrefl _, fun _ => ih h⟩

/-- An entry of an ascending table comes before the ones behind it. -/
theorem Ascending.precedes {table : Array String} (h : Ascending table) {i j : Nat}
    (hij : i < j) (hj : j < table.size) : precedes table[i].toList table[j].toList = true := by
  have hlast : j < table.toList.length := by simpa using hj
  simpa only [Array.getElem_toList] using
    List.pairwise_iff_getElem.mp h i j (Nat.lt_trans hij hlast) hlast hij

/-- Whatever is found is an entry of the table. -/
theorem mem_of_bisect {table : Array String} {word : List Char} {steps low high : Nat}
    (h : bisect table word steps low high = true) : ∃ entry ∈ table, entry.toList = word := by
  fun_induction bisect table word steps low high with
  | case1 => cases h
  | case2 => cases h
  | case3 => cases h
  | case4 steps low high hlt middle entry hentry heq =>
      exact ⟨entry, Array.mem_of_getElem? hentry, by simpa using heq⟩
  | case5 steps low high hlt middle entry hentry hne hless ih => exact ih h
  | case6 steps low high hlt middle entry hentry hne hless ih => exact ih h

/-- **A word of an ascending table is found** between two positions around it. -/
theorem bisect_eq_true {table : Array String} (htable : Ascending table) {steps low high k : Nat}
    (hlow : low ≤ k) (hk : k < high) (hhigh : high ≤ table.size) (hsteps : high - low ≤ steps) :
    bisect table table[k].toList steps low high = true := by
  -- The position of the word stays between the two ends, and each step brings these together.
  induction steps generalizing low high with
  | zero => omega
  | succ steps ih =>
      rw [bisect, if_neg (by omega)]
      generalize hmiddle : low + (high - low) / 2 = middle
      have hsize : middle < table.size := by omega
      simp only [Array.getElem?_eq_getElem hsize]
      split
      case isTrue => rfl
      case isFalse hne =>
        have hother : middle ≠ k := by
          rintro rfl
          simp at hne
        split
        case isTrue hless =>
          have hbehind : middle < k := by
            refine Nat.lt_of_not_le fun hle => ?_
            have hback := htable.precedes (Nat.lt_of_le_of_ne hle (Ne.symm hother)) hsize
            rw [precedes_asymm hless] at hback
            cases hback
          exact ih hbehind hk hhigh (by omega)
        case isFalse hless =>
          have hbefore : k < middle := by
            refine Nat.lt_of_not_le fun hle => ?_
            exact hless (htable.precedes (Nat.lt_of_le_of_ne hle hother) (by omega))
          exact ih hlow hbefore (by omega) (by omega)

/-- The table of reserved words ascends. -/
theorem reservedWords_ascending : Ascending reservedWords := by decide +kernel

/-- **The reserved words are the entries of the table.** -/
theorem isReserved_iff {word : String} : isReserved word = true ↔ word ∈ reservedWords := by
  constructor
  · intro h
    obtain ⟨entry, hentry, heq⟩ := mem_of_bisect h
    rwa [← String.toList_inj.mp heq]
  · intro h
    obtain ⟨k, hk, rfl⟩ := Array.mem_iff_getElem.mp h
    exact bisect_eq_true reservedWords_ascending (Nat.zero_le k) hk (Nat.le_refl _) (Nat.sub_le _ _)

/-! ## Identifiers -/

/-- A reserved word begins with a small letter. -/
theorem isLower_of_mem_reservedWords {word : String} (h : word ∈ reservedWords) :
    ∃ c rest, word.toList = c :: rest ∧ c.isLower = true := by
  have hall : ∀ entry ∈ reservedWords.toList,
      entry.toList.head?.any Char.isLower = true := by
    decide
  have hfirst := hall word (Array.mem_toList_iff.mpr h)
  cases hword : word.toList with
  | nil => rw [hword] at hfirst; cases hfirst
  | cons c rest =>
      rw [hword] at hfirst
      exact ⟨c, rest, rfl, hfirst⟩

/-- A text behind an underscore is not reserved. -/
theorem isReserved_escape (name : String) : isReserved (escape name) = false := by
  rw [← Bool.not_eq_true, isReserved_iff]
  intro hmem
  obtain ⟨c, rest, hword, hlower⟩ := isLower_of_mem_reservedWords hmem
  rw [escape, String.toList_ofList] at hword
  obtain ⟨rfl, -⟩ := List.cons.inj hword
  cases hlower

/-- **An identifier for a name is not reserved.** -/
theorem isReserved_unexported (name : String) : isReserved (unexported name) = false := by
  by_cases hempty : name = ""
  · subst hempty
    decide
  · rcases unexported_cases hempty with ⟨hident, -⟩ | ⟨hident, hfree, -⟩
    · rw [hident, isReserved_escape]
    · rw [hident, hfree]

/-- An identifier is not the name that it stands for. -/
theorem unexported_ne_self {name : String} (h : name ≠ "") : unexported name ≠ name := by
  intro heq
  rcases unexported_cases h with ⟨hname, hguard⟩ | ⟨hname, -, hother⟩
  · -- An underscore has no lower case, so a name that begins with one stays behind it.
    have hlist := congrArg String.toList (hname.symm.trans heq)
    rw [escape, String.toList_ofList, String.toList_ofList] at hlist
    obtain ⟨others, hlowered⟩ := lowered_eq_append '_' (lowered name.toList)
    have hunderscore : Text.lowerChar '_' = ['_'] := by decide
    rw [hlist, hunderscore, List.singleton_append] at hlowered
    rcases hguard with hreserved | hsame
    · have hescaped := isReserved_escape (String.ofList others)
      rw [escape, String.toList_ofList, ← hlowered, hreserved] at hescaped
      cases hescaped
    · rw [← String.toList_inj, String.toList_ofList] at hsame
      rw [hsame] at hlist
      exact List.cons_ne_self '_' name.toList hlist
  · exact hother (hname.symm.trans heq)

/-- **An identifier keeps apart** from every entry of the table of reserved words, which are just
    the words that the search in it finds, and from the name that it stands for, unless that is
    empty. -/
theorem unexported_apart :
    (∀ word, isReserved word = true ↔ word ∈ reservedWords) ∧
    ∀ name, unexported name ∉ reservedWords ∧ (unexported name = name ↔ name = "") := by
  refine ⟨fun word => isReserved_iff, fun name => ⟨?_, ?_, ?_⟩⟩
  · rw [← isReserved_iff, isReserved_unexported]
    exact Bool.false_ne_true
  · intro heq
    by_contra hne
    exact unexported_ne_self hne heq
  · rintro rfl
    rfl

/-- An identifier without an underscore in front is the name in lower case. -/
theorem unexported_eq_lowered {name : String} (hne : unexported name ≠ "")
    (h : (unexported name).toList.head? ≠ some '_') :
    (unexported name).toList = lowered name.toList ∧ unexported name ≠ name := by
  have hempty : name ≠ "" := by
    rintro rfl
    exact hne rfl
  rcases unexported_cases hempty with ⟨hident, -⟩ | ⟨hident, -, hother⟩
  · exact absurd (by rw [hident, escape, String.toList_ofList, List.head?_cons]) h
  · rw [hident, String.toList_ofList]
    exact ⟨rfl, hother⟩

/-- **What names a word is the identifier for**: if each of its letters has one capital, these are
    the word with a capital in front and the word in capitals. -/
theorem eq_capitals_of_unexported {name : String} {d : Char} {ds : List Char}
    (hletters : ∀ e ∈ d :: ds, Text.hasOneCapital e = true)
    (h : (unexported name).toList = d :: ds) :
    name.toList = d.toUpper :: ds ∨ name.toList = (d :: ds).map Char.toUpper := by
  have hhead : (unexported name).toList.head? ≠ some '_' := by
    rw [h, List.head?_cons]
    rintro ⟨⟩
    exact absurd (hletters '_' (.head _)) (by decide)
  have hne : unexported name ≠ "" := by
    intro hempty
    rw [hempty] at h
    cases h
  obtain ⟨hlowered, hother⟩ := unexported_eq_lowered hne hhead
  rw [h] at hlowered
  cases hname : name.toList with
  | nil => rw [hname] at hlowered; cases hlowered
  | cons c rest =>
      rw [hname, lowered] at hlowered
      split at hlowered
      case isTrue hcapitals =>
        right
        -- Every character is a letter or its capital, and the upper case leaves it as it is.
        have hsmall : ∀ e ∈ d :: ds, e.isLower = true := fun e he => by
          have hone := hletters e he
          simp only [Text.hasOneCapital, Bool.and_eq_true] at hone
          exact hone.1.1
        have hpairs := Text.letters_of_lowerFrom [] hletters hlowered.symm
        rw [← Text.upperText_of_letters hsmall hpairs]
        exact (beq_iff_eq.mp hcapitals).symm
      case isFalse =>
        left
        rcases Text.lowerChar_cases c with ⟨e, he⟩ | hdotted
        · rw [he] at hlowered
          obtain ⟨rfl, rfl⟩ := List.cons.inj hlowered
          rcases Text.eq_or_capital_of_lowerChar (hletters d (.head _)) he with rfl | rfl
          · exact absurd (String.toList_inj.mp (h.trans hname.symm)) hother
          · rfl
        · rw [hdotted] at hlowered
          obtain ⟨rfl, -⟩ := List.cons.inj hlowered
          exact absurd (hletters 'i' (.head _)) (by decide)

/-! ## Keywords -/

/-- The keywords of Go. -/
def Go.keywords : List String :=
  ["break", "case", "chan", "const", "continue", "default", "defer", "else", "fallthrough", "for",
   "func", "go", "goto", "if", "import", "interface", "map", "package", "range", "return", "select",
   "struct", "switch", "type", "var"]

/-- Of the keywords, the table of reserved words lacks one. -/
theorem keyword_reserved {keyword : String} (h : keyword ∈ Go.keywords) :
    isReserved keyword = true ∨ keyword = "struct" := by
  have hall : ∀ keyword ∈ Go.keywords,
      keyword ∈ reservedWords.toList ∨ keyword = "struct" := by
    decide
  rcases hall keyword h with hmem | heq
  · exact .inl (isReserved_iff.mpr (Array.mem_toList_iff.mp hmem))
  · exact .inr heq

/-- **The identifier for a name is a keyword for two names only**, those whose lower case is the
    keyword that the table of reserved words lacks. -/
theorem unexported_mem_keywords_iff {name : String} :
    unexported name ∈ Go.keywords ↔ name = "Struct" ∨ name = "STRUCT" := by
  constructor
  · intro hmem
    have hstruct : unexported name = "struct" := by
      rcases keyword_reserved hmem with hreserved | hstruct
      · rw [isReserved_unexported] at hreserved
        cases hreserved
      · exact hstruct
    have hletters : ∀ e ∈ "struct".toList, Text.hasOneCapital e = true :=
      List.all_eq_true.mp (by decide)
    have hnames := eq_capitals_of_unexported hletters (congrArg String.toList hstruct)
    exact hnames.imp String.toList_inj.mp String.toList_inj.mp
  · have hnames : ∀ name ∈ ["Struct", "STRUCT"], unexported name = "struct" := by decide
    rintro (rfl | rfl)
    · rw [hnames _ (.head _)]
      decide
    · rw [hnames _ (.tail _ (.head _))]
      decide

/-- The identifier for a field `Struct` is a keyword. -/
theorem unexported_struct :
    ¬ ∀ name : String, name ≠ "" → unexported name ∉ Go.keywords := by
  intro h
  exact h "Struct" (by decide) (by decide)

/-! ## A builder with a keyword for a parameter -/

/-- A text that follows no rule of the grammar has no syntax tree. -/
theorem Go.readTree_eq_none {s : List Char}
    (h : (Go.grammar (Go.depthFor (Go.withoutMark s))).sourceFile.read (Go.withoutMark s) = none) :
    Go.readTree (String.ofList s) = none := by
  unfold Go.readTree
  rw [String.toList_ofList]
  simp only [h]

/-- A syntax tree that names a package is a source file. -/
theorem Go.SourceFile.parse_of_tree (name : String) {source : String} {t : Go.Tree}
    {file : Go.SourceFile} (ht : Go.readTree source = some t) (hfile : t.toFile? = some file) :
    Go.SourceFile.parse name source = .ok file := by
  unfold Go.SourceFile.parse
  rw [ht]
  dsimp only
  rw [hfile]

theorem Go.SourceFile.parse_of_no_tree (name : String) {source : String}
    (h : Go.readTree source = none) :
    Go.SourceFile.parse name source = .error (.unexpected name source) := by
  unfold Go.SourceFile.parse
  rw [h]

/-- The plan for a struct with the field `Struct` alone. -/
def structPlan : Plan := ⟨[⟨⟨"Struct", "int"⟩, "struct"⟩], "b"⟩

/-- **A builder need not be a source text again**: the setter of a field `Struct` has a keyword for
    its parameter. -/
theorem struct_builder_unread :
    ¬ ∀ (name source target text : String) (file : Go.SourceFile),
      Go.SourceFile.parse name source = .ok file → file.generate target = .ok text →
        ∃ again, Go.SourceFile.parse name text = .ok again := by
  intro h
  have hsource : (((Go.readTree "package p;type T struct\x7bStruct int\x7d;").bind
      Go.Tree.toFile?).map fun file =>
        decide (file.blueprint "T" = .ok ⟨"p", "T", [⟨"Struct", "int"⟩]⟩)) = some true := by
    decide +kernel
  obtain ⟨file, hfile, hblueprint⟩ := Option.map_eq_some_iff.mp hsource
  obtain ⟨t, ht, htfile⟩ := Option.bind_eq_some_iff.mp hfile
  have hparse : Go.SourceFile.parse "p.go" "package p;type T struct\x7bStruct int\x7d;" =
      .ok file := Go.SourceFile.parse_of_tree "p.go" ht htfile
  have hplan : Plan.of [⟨"Struct", "int"⟩] = .ok structPlan := by
    have hident : unexported "Struct" = "struct" := by decide
    rw [Plan.of, assignIdents, if_neg (by decide), hident]
    rfl
  have htext : file.generate "T" = .ok (Layout.print .tab (structPlan.layout "p" "T")) := by
    simp only [Go.SourceFile.generate, of_decide_eq_true hblueprint, Blueprint.render, hplan]
  obtain ⟨again, hagain⟩ := h _ _ _ _ _ hparse htext
  have hunread : Go.readTree (Layout.print .tab (structPlan.layout "p" "T")) = none := by
    refine Go.readTree_eq_none (Option.isNone_iff_eq_none.mp ?_)
    decide +kernel
  cases (Go.SourceFile.parse_of_no_tree "p.go" hunread).symm.trans hagain

end FluentBuilder

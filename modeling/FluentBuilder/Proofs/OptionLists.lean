import Mathlib.Data.List.TakeWhile
import FluentBuilder.Options

/-!
# Option lists — what the options of a tag ask for

The entries of an option list are read from left to right, and reading stops at the first one that
is no option. So the outcome can be told from the entries alone: the first unknown one, or whether
`ignore` is among them. Lists put together ask for what they ask for on their own: `both` is
associative, a list without options is its unit, and what was asked for is not asked for again.

* **`foldlM_add`** — the entries of a list, by induction on the list.
* **`FieldOptions.ofTag_eq`** — the options of a tag.
* **`FieldOptions.parse_intercalate`** — several lists with commas between them.
* **`FieldOptions.trimsTo_iff`** — a text without the white space at its ends.
* **`FieldOptions.parse_composes`** — lists of options compose.
-/

namespace FluentBuilder

namespace FieldOptions

/-- The entry that leaves a field out. -/
def ignoreEntry : String := "ignore"

/-- Decide whether an entry without white space around it is neither blank nor an option. -/
def isUnknown (entry : String) : Bool := entry != "" && entry != ignoreEntry

/-- The entries of an option list, without white space around them. -/
def entriesOf (value : String) : List String :=
  (entries value.toList).map fun entry => String.ofList (Text.trimBlank entry)

/-- The entries that the options of a tag are read from; a tag without options has none. -/
def tagEntries (tag : Option String) : List String :=
  match tag.bind (Go.Tag.lookup · tagKey) with
  | none => []
  | some value => entriesOf value

/-- What entries ask for beyond what was asked before. -/
def asked (before : FieldOptions) (found : List String) : Except OptionError FieldOptions :=
  match found.find? isUnknown with
  | some token => .error ⟨token⟩
  | none => .ok ⟨before.ignore || found.contains ignoreEntry⟩

/-- One entry is blank, or the option, or unknown. -/
theorem add_eq (options : FieldOptions) (entry : List Char) :
    options.add entry =
      if isUnknown (String.ofList entry) then .error ⟨String.ofList entry⟩
      else .ok ⟨options.ignore || String.ofList entry == ignoreEntry⟩ := by
  obtain ⟨text, rfl⟩ : ∃ text : String, entry = text.toList := ⟨String.ofList entry, by simp⟩
  have hignore : (text.toList == ['i', 'g', 'n', 'o', 'r', 'e']) = (text == ignoreEntry) := by
    rw [Bool.eq_iff_iff, beq_iff_eq, beq_iff_eq]
    exact (String.toList_inj : text.toList = ignoreEntry.toList ↔ text = ignoreEntry)
  rw [add, String.ofList_toList, hignore, isUnknown]
  by_cases hblank : text = ""
  · subst hblank
    simp [ignoreEntry]
  · have hlist : text.toList.isEmpty = false := by simpa using hblank
    rw [hlist, if_neg Bool.false_ne_true, bne_iff_ne.mpr hblank, Bool.true_and, bne]
    cases text == ignoreEntry with
    | true => simp
    | false => simp

/-- **Entries are read up to the first unknown one.** -/
theorem foldlM_add (before : FieldOptions) (found : List (List Char)) :
    found.foldlM (fun options entry => options.add (Text.trimBlank entry)) before =
      asked before (found.map fun entry => String.ofList (Text.trimBlank entry)) := by
  induction found generalizing before with
  | nil => simp [asked, pure, Except.pure]
  | cons entry rest ih =>
      rw [List.foldlM_cons, add_eq, List.map_cons, asked, List.find?_cons]
      cases isUnknown (String.ofList (Text.trimBlank entry)) with
      | true => rfl
      | false =>
          refine (ih _).trans ?_
          simp only [asked, List.contains_cons, Bool.or_assoc, Bool.beq_comm]

/-- **The options of a list.** -/
theorem parse_eq (value : String) : parse value = asked {} (entriesOf value) := foldlM_add {} _

/-- **The options of a tag.** -/
theorem ofTag_eq (tag : Option String) : ofTag tag = asked {} (tagEntries tag) := by
  unfold ofTag tagEntries
  cases tag.bind (Go.Tag.lookup · tagKey) with
  | none => rfl
  | some value => exact parse_eq value

/-! ## Lists put together -/

/-- What two lists ask for together; what is wrong with the first one is reported first. -/
def both : Except OptionError FieldOptions → Except OptionError FieldOptions →
    Except OptionError FieldOptions
  | .error e, _ => .error e
  | .ok _, .error e => .error e
  | .ok a, .ok b => .ok ⟨a.ignore || b.ignore⟩

section

variable (x y z : Except OptionError FieldOptions)

theorem both_default : both x (.ok {}) = x := by
  cases x with
  | error e => rfl
  | ok a =>
      rw [both, Bool.or_false]

theorem default_both : both (.ok {}) x = x := by
  cases x <;> rfl

theorem both_assoc : both (both x y) z = both x (both y z) := by
  cases x with
  | error e => rfl
  | ok a =>
      cases y with
      | error e => rfl
      | ok b =>
          cases z with
          | error e => rfl
          | ok c =>
              simp only [both, Bool.or_assoc]

/-- What was asked for is not asked for again. -/
theorem both_again : both x (both y (both x z)) = both x (both y z) := by
  cases x with
  | error e => rfl
  | ok a =>
      cases y with
      | error e => rfl
      | ok b =>
          cases z with
          | error e => rfl
          | ok c =>
              simp only [both]
              rw [Bool.or_left_comm b.ignore, ← Bool.or_assoc a.ignore a.ignore, Bool.or_self]

end

/-- What several lists ask for together. -/
def together (results : List (Except OptionError FieldOptions)) :
    Except OptionError FieldOptions :=
  results.foldr both (.ok {})

theorem together_cons (result : Except OptionError FieldOptions)
    (rest : List (Except OptionError FieldOptions)) :
    together (result :: rest) = both result (together rest) := rfl

theorem together_append (results more : List (Except OptionError FieldOptions)) :
    together (results ++ more) = both (together results) (together more) := by
  induction results with
  | nil => exact (default_both _).symm
  | cons result rest ih =>
      rw [List.cons_append, together_cons, together_cons, ih, both_assoc]

/-- Entries in front of others. -/
theorem asked_append (found more : List String) :
    asked {} (found ++ more) = both (asked {} found) (asked {} more) := by
  simp only [asked, List.find?_append]
  cases found.find? isUnknown with
  | some token => rfl
  | none =>
      cases more.find? isUnknown with
      | some token => rfl
      | none =>
          show Except.ok _ = Except.ok _
          simp

theorem entries_eq_splitOn (s : List Char) : entries s = s.splitOn ',' := by
  induction s with
  | nil => rfl
  | cons c rest ih =>
      rw [entries, List.splitOn_cons_eq_if_modifyHead, ih]
      obtain ⟨e, es, hsplit⟩ := List.exists_cons_of_ne_nil (List.splitOn_ne_nil ',' rest)
      rw [hsplit]
      rfl

/-- **Two lists with a comma between them.** -/
theorem parse_append (a b : String) : parse (a ++ "," ++ b) = both (parse a) (parse b) := by
  have hsplit : entries (a ++ "," ++ b).toList = entries a.toList ++ entries b.toList := by
    simp only [entries_eq_splitOn, String.toList_append]
    rw [List.append_assoc]
    exact List.splitOn_append_cons_self a.toList b.toList
  rw [parse_eq, parse_eq, parse_eq, ← asked_append, entriesOf, hsplit, List.map_append]
  rfl

/-- **Several lists with commas between them.** -/
theorem parse_intercalate (texts : List String) :
    parse (",".intercalate texts) = together (texts.map parse) := by
  induction texts with
  | nil => rfl
  | cons text rest ih =>
      rw [List.map_cons, together_cons]
      by_cases hrest : rest = []
      · subst hrest
        rw [String.intercalate_singleton]
        exact (both_default _).symm
      · rw [String.intercalate_cons_of_ne_nil hrest, parse_append, ih]

/-! ## White space around entries -/

/-- A text without the white space at its ends. -/
def TrimsTo (text core : String) : Prop :=
  ∃ before after : List Char, text.toList = before ++ core.toList ++ after ∧
    (∀ c ∈ before, Text.isBlank c = true) ∧ (∀ c ∈ after, Text.isBlank c = true) ∧
    (∀ c ∈ core.toList.head?, Text.isBlank c = false) ∧
    ∀ c ∈ core.toList.getLast?, Text.isBlank c = false

theorem dropWhile_blanks {before rest : List Char} (hbefore : ∀ c ∈ before, Text.isBlank c = true)
    (hrest : ∀ c ∈ rest.head?, Text.isBlank c = false) :
    (before ++ rest).dropWhile Text.isBlank = rest := by
  rw [List.dropWhile_append_of_pos hbefore]
  cases rest with
  | nil => rfl
  | cons c rest => exact List.dropWhile_cons_of_neg (by simpa using hrest c rfl)

/-- What is left behind white space does not begin with any. -/
theorem head?_dropWhile_blank (s : List Char) :
    ∀ c ∈ (s.dropWhile Text.isBlank).head?, Text.isBlank c = false := by
  intro c hc
  have hhead := List.head?_dropWhile_not Text.isBlank s
  rw [Option.mem_def.mp hc] at hhead
  exact hhead

/-- Nothing is left of white space alone. -/
theorem trimBlank_eq_nil {s : List Char} (h : ∀ c ∈ s, Text.isBlank c = true) :
    Text.trimBlank s = [] := by
  rw [Text.trimBlank, List.dropWhile_eq_nil_iff.mpr h]
  rfl

/-- **A text is trimmed in one way.** -/
theorem trimsTo_iff {text core : String} :
    TrimsTo text core ↔ String.ofList (Text.trimBlank text.toList) = core := by
  constructor
  · rintro ⟨before, after, htext, hbefore, hafter, hhead, hlast⟩
    rw [← String.toList_inj, String.toList_ofList, htext]
    cases hcore : core.toList with
    | nil =>
        -- how the white space is split between the two ends does not matter
        rw [List.append_nil]
        exact trimBlank_eq_nil (List.forall_mem_append.mpr ⟨hbefore, hafter⟩)
    | cons c rest =>
        have hblanks : ∀ c ∈ after.reverse, Text.isBlank c = true := fun c hc =>
          hafter c (List.mem_reverse.mp hc)
        rw [hcore] at hhead hlast
        rw [← List.head?_reverse] at hlast
        have hfront : (before ++ (c :: rest ++ after)).dropWhile Text.isBlank =
            c :: rest ++ after := dropWhile_blanks hbefore hhead
        rw [Text.trimBlank, List.append_assoc, hfront, List.reverse_append,
          dropWhile_blanks hblanks hlast, List.reverse_reverse]
  · rintro rfl
    let front := text.toList.takeWhile Text.isBlank
    let rest := text.toList.dropWhile Text.isBlank
    let back := (rest.reverse.takeWhile Text.isBlank).reverse
    have hrest : rest = Text.trimBlank text.toList ++ back := by
      show rest = (rest.reverse.dropWhile Text.isBlank).reverse ++ back
      rw [← List.reverse_append, List.takeWhile_append_dropWhile, List.reverse_reverse]
    refine ⟨front, back, ?_, fun c hc => List.mem_takeWhile_imp hc, fun c hc => ?_, ?_, ?_⟩
    · rw [String.toList_ofList, List.append_assoc, ← hrest, List.takeWhile_append_dropWhile]
    · exact List.mem_takeWhile_imp (List.mem_reverse.mp hc)
    · rw [String.toList_ofList]
      intro c hc
      refine head?_dropWhile_blank text.toList c ?_
      show c ∈ rest.head?
      rw [hrest, List.head?_append, Option.mem_def.mp hc]
      rfl
    · rw [String.toList_ofList, Text.trimBlank, List.getLast?_reverse]
      exact head?_dropWhile_blank _

/-- An entry that is no error: it is blank or the option, up to white space around it. -/
def IsKnown (entry : String) : Prop := TrimsTo entry "" ∨ TrimsTo entry ignoreEntry

/-- The entries of a list without further commas. -/
theorem parse_entries {texts : List String} (h : ∀ text ∈ texts, ',' ∉ text.toList) :
    parse (",".intercalate texts) =
      asked {} (texts.map fun text => String.ofList (Text.trimBlank text.toList)) := by
  rw [parse_intercalate]
  induction texts with
  | nil => rfl
  | cons text rest ih =>
      obtain ⟨htext, hrest⟩ := List.forall_mem_cons.mp h
      have hone : entriesOf text = [String.ofList (Text.trimBlank text.toList)] := by
        rw [entriesOf, entries_eq_splitOn, List.splitOn_eq_singleton htext]
        rfl
      rw [List.map_cons, together_cons, ih hrest, parse_eq, hone, ← asked_append]
      rfl

theorem isKnown_iff {entry : String} :
    IsKnown entry ↔ isUnknown (String.ofList (Text.trimBlank entry.toList)) = false := by
  rw [IsKnown, trimsTo_iff, trimsTo_iff, isUnknown, Bool.and_eq_false_iff, bne_eq_false_iff_eq,
    bne_eq_false_iff_eq]

/-- **Lists that are refused**: the first unknown entry is reported. -/
theorem parse_eq_error_iff {texts : List String} (h : ∀ text ∈ texts, ',' ∉ text.toList)
    {token : String} :
    parse (",".intercalate texts) = .error ⟨token⟩ ↔
      ∃ front text back, texts = front ++ text :: back ∧ (∀ known ∈ front, IsKnown known) ∧
        ¬ IsKnown text ∧ TrimsTo text token := by
  have hfind : ∀ found : List String,
      asked {} found = .error ⟨token⟩ ↔ found.find? isUnknown = some token := by
    intro found
    rw [asked]
    cases found.find? isUnknown <;> simp
  -- the first unknown entry splits the list: all in front of it are known
  rw [parse_entries h, hfind, List.find?_map, Option.map_eq_some_iff]
  simp only [List.find?_eq_some_iff_append, isKnown_iff, trimsTo_iff, Function.comp_apply,
    Bool.not_eq_eq_eq_not, Bool.not_true, Bool.not_eq_false]
  constructor
  · rintro ⟨text, ⟨hunknown, front, back, htexts, hknown⟩, htoken⟩
    exact ⟨front, text, back, htexts, hknown, hunknown, htoken⟩
  · rintro ⟨front, text, back, htexts, hknown, hunknown, htoken⟩
    exact ⟨text, ⟨hunknown, front, back, htexts, hknown⟩, htoken⟩

/-- **Lists that are accepted** have no unknown entry. -/
theorem parse_eq_ok_iff {texts : List String} (h : ∀ text ∈ texts, ',' ∉ text.toList)
    {ignore : Bool} :
    parse (",".intercalate texts) = .ok ⟨ignore⟩ ↔
      (∀ text ∈ texts, IsKnown text) ∧
        (ignore = true ↔ ∃ text ∈ texts, TrimsTo text ignoreEntry) := by
  have hfind : ∀ found : List String, asked {} found = .ok ⟨ignore⟩ ↔
      found.find? isUnknown = none ∧ found.contains ignoreEntry = ignore := by
    intro found
    rw [asked]
    cases found.find? isUnknown <;> simp
  rw [parse_entries h, hfind, List.find?_eq_none, List.forall_mem_map]
  refine and_congr (forall₂_congr fun text _ => ?_) ?_
  · rw [isKnown_iff, Bool.not_eq_true]
  · rw [eq_comm, Bool.eq_iff_iff, List.contains_iff_mem, List.mem_map]
    simp only [trimsTo_iff]

/-- No entry holds a comma. -/
theorem comma_notMem_entries (s : List Char) : ∀ entry ∈ entries s, ',' ∉ entry := by
  induction s with
  | nil => exact List.forall_mem_singleton.mpr List.not_mem_nil
  | cons c rest ih =>
      rw [entries]
      by_cases hc : c = ','
      · rw [if_pos (beq_iff_eq.mpr hc), List.forall_mem_cons]
        exact ⟨List.not_mem_nil, ih⟩
      · rw [if_neg (fun h => hc (beq_iff_eq.mp h))]
        cases hrest : entries rest with
        | nil => exact List.forall_mem_singleton.mpr (by simpa using Ne.symm hc)
        | cons e es =>
            rw [hrest, List.forall_mem_cons] at ih
            rw [List.forall_mem_cons, List.mem_cons, not_or]
            exact ⟨⟨Ne.symm hc, ih.1⟩, ih.2⟩

/-- Every list consists of entries without further commas. -/
theorem exists_entries (value : String) :
    ∃ texts : List String, (∀ text ∈ texts, ',' ∉ text.toList) ∧
      value = ",".intercalate texts := by
  refine ⟨(entries value.toList).map String.ofList, ?_, ?_⟩
  · rw [List.forall_mem_map]
    intro entry hentry
    rw [String.toList_ofList]
    exact comma_notMem_entries value.toList entry hentry
  · rw [← String.toList_inj, String.toList_intercalate, List.map_map, entries_eq_splitOn]
    simp [Function.comp_def]

/-- **One entry** asks for nothing if it is blank, and otherwise it has to be the option. -/
theorem parse_of_trimsTo {text core : String} (hcomma : ',' ∉ text.toList)
    (h : TrimsTo text core) :
    parse text =
      if core = "" then .ok {} else if core = ignoreEntry then .ok ⟨true⟩ else .error ⟨core⟩ := by
  have hone := parse_entries (List.forall_mem_singleton.mpr hcomma)
  rw [String.intercalate_singleton, List.map_singleton, trimsTo_iff.mp h] at hone
  rw [hone, asked]
  by_cases hblank : core = ""
  · subst hblank
    rfl
  · by_cases hignore : core = ignoreEntry
    · subst hignore
      rfl
    · have hunknown : isUnknown core = true := by
        rw [isUnknown, bne_iff_ne.mpr hblank, bne_iff_ne.mpr hignore]
        rfl
      rw [List.find?_cons_of_pos hunknown, if_neg hblank, if_neg hignore]

/-- A blank text asks for nothing. -/
theorem parse_of_blank {text : String} (h : ∀ c ∈ text.toList, Text.isBlank c = true) :
    parse text = .ok {} := by
  have hcomma : ',' ∉ text.toList := fun hmem => absurd (h _ hmem) (by decide)
  have htrim : TrimsTo text "" := trimsTo_iff.mpr (by rw [trimBlank_eq_nil h])
  exact parse_of_trimsTo hcomma htrim

/-- **Lists of options compose.** What two lists ask for with a comma between them is what they ask
    for together, the first one being refused first. An entry without white space around it is
    nothing, or the option, or it is reported. So the first unknown entry of a list is reported, and
    a list is accepted if and only if it has none. Every list consists of entries, and each of them
    is trimmed in one way. A blank entry changes nothing wherever it stands, and neither does an
    entry, or a list, that stood there before. -/
theorem parse_composes :
    (∀ a b : String, parse (a ++ "," ++ b) = both (parse a) (parse b)) ∧
    (∀ text core : String, ',' ∉ text.toList → TrimsTo text core →
      parse text =
        if core = "" then .ok {} else if core = "ignore" then .ok ⟨true⟩ else .error ⟨core⟩) ∧
    (∀ texts : List String, (∀ text ∈ texts, ',' ∉ text.toList) →
      (∀ token, parse (",".intercalate texts) = .error ⟨token⟩ ↔
        ∃ front text back, texts = front ++ text :: back ∧ (∀ known ∈ front, IsKnown known) ∧
          ¬ IsKnown text ∧ TrimsTo text token) ∧
      ∀ ignore, parse (",".intercalate texts) = .ok ⟨ignore⟩ ↔
        (∀ text ∈ texts, IsKnown text) ∧
          (ignore = true ↔ ∃ text ∈ texts, TrimsTo text "ignore")) ∧
    (∀ value : String, ∃ texts : List String, (∀ text ∈ texts, ',' ∉ text.toList) ∧
      value = ",".intercalate texts) ∧
    (∀ text : String, ∃! core, TrimsTo text core) ∧
    (∀ (front : List String) (text : String) (back : List String),
      (∀ c ∈ text.toList, Text.isBlank c = true) →
        parse (",".intercalate (front ++ text :: back)) =
          parse (",".intercalate (front ++ back))) ∧
    ∀ (front : List String) (text : String) (middle back : List String),
      parse (",".intercalate (front ++ text :: (middle ++ text :: back))) =
        parse (",".intercalate (front ++ text :: (middle ++ back))) := by
  refine ⟨parse_append, fun _ _ => parse_of_trimsTo,
    fun texts h => ⟨fun _ => parse_eq_error_iff h, fun _ => parse_eq_ok_iff h⟩, exists_entries,
    fun text => ?trimmed, ?blank, ?again⟩
  case trimmed =>
    exact ⟨_, trimsTo_iff.mpr rfl, fun core h => (trimsTo_iff.mp h).symm⟩
  case blank =>
    intro front text back hblank
    simp only [parse_intercalate, List.map_append, List.map_cons, together_append, together_cons,
      parse_of_blank hblank, default_both]
  case again =>
    intro front text middle back
    simp only [parse_intercalate, List.map_append, List.map_cons, together_append, together_cons,
      both_again]

/-- `parse_composes` for a list with a blank entry and two unknown ones. -/
theorem parse_composes_unknown : parse " ignore ,\u2003, Ignore\t,skip" = .error ⟨"Ignore"⟩ := by
  have hcomma : ∀ text ∈ [" ignore ", "\u2003", " Ignore\t", "skip"], ',' ∉ text.toList := by
    decide
  have hfront : ∀ known ∈ [" ignore ", "\u2003"], IsKnown known := by
    rw [List.forall_mem_cons, List.forall_mem_singleton]
    exact ⟨.inr (trimsTo_iff.mpr (by decide)), .inl (trimsTo_iff.mpr (by decide))⟩
  have hunknown : ¬ IsKnown " Ignore\t" := by
    rw [isKnown_iff]
    decide
  obtain ⟨-, -, hentries, -⟩ := parse_composes
  obtain ⟨hrefused, -⟩ := hentries _ hcomma
  exact (hrefused "Ignore").mpr
    ⟨[" ignore ", "\u2003"], " Ignore\t", ["skip"], rfl, hfront, hunknown,
      trimsTo_iff.mpr (by decide)⟩

end FieldOptions

end FluentBuilder

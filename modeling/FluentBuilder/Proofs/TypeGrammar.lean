import FluentBuilder.Proofs.Lexer

/-!
# Type grammar — which tokens spell a type

`PlainType` is a type apart from how it is written: without brackets around types, and with the
tokens of its lengths in place of their texts. `Spells` is the grammar of types over tokens. What
`chan` stands in front of is never an arrow: an arrow there belongs to `chan` itself.

`readType` reads a type back from the front of a token sequence. Behind a type stands nothing or one
of the closers `]`, `)` and `,`.

* **`Spells.readType`** — the tokens of a type are read as that type.
* **`Spells.unique`** — the same tokens never spell two types.
-/

namespace FluentBuilder.Go

/-- A type without brackets around types, its lengths as tokens. -/
inductive PlainType where
  | named (name : String)
  | qualified (package : PlainType) (name : String)
  | array (length : Option (List Token)) (elem : PlainType)
  | pointer (elem : PlainType)
  | map (key value : PlainType)
  | chan (direction : Direction) (value : PlainType)
  | generic (base : PlainType) (args : List PlainType)
  | func (params results : List (Bool × PlainType))
  | struct (fields : List (List String × PlainType × Option String))
  | interface (elements : Nat)
  | other (kind : String)

/-! ## The grammar -/

/-- A name that a type or a package can have where a type is expected. -/
def IsTypeName (name : String) : Prop := IsWord name.toList ∧ name ∉ Grammar.typeKeywords

/-- How deep the text behind some tokens is in square brackets, or nothing where one is closed that
was not opened. -/
def depthAfter : Nat → List Token → Option Nat
  | depth, [] => some depth
  | depth, t :: ts =>
    if t = ['['] then depthAfter (depth + 1) ts
    else if t = [']'] then
      match depth with
      | 0 => none
      | depth + 1 => depthAfter depth ts
    else depthAfter depth ts

/-- Every square bracket is opened before it is closed, and closed again. -/
def Balanced (ts : List Token) : Prop := depthAfter 0 ts = some 0

/-- Put token sequences behind each other with commas between them. -/
def commaTokens : List (List Token) → List Token
  | [] => []
  | [ts] => ts
  | ts :: rest => ts ++ [','] :: commaTokens rest

/-- A parameter or result and the tokens of its type. -/
structure Item where
  variadic : Bool
  type     : PlainType
  text     : List Token

/-- What an item is in a function type. -/
def Item.plain (item : Item) : Bool × PlainType := (item.variadic, item.type)

/-- The tokens of an item, three dots in front of a variadic one. -/
def Item.tokens (item : Item) : List Token :=
  if item.variadic then ['.', '.', '.'] :: item.text else item.text

/-- The tokens of items between round brackets. -/
def listTokens (items : List Item) : List Token :=
  ['('] :: commaTokens (items.map Item.tokens) ++ [[')']]

/-- How the results of a function type are written. -/
inductive ResultTokens : List Item → List Token → Prop
  | none : ResultTokens [] []
  | one {item : Item} (h : item.variadic = false) : ResultTokens [item] item.text
  | many (items : List Item) : ResultTokens items (listTokens items)

/-- The tokens of a type's name. -/
inductive SpellsName : PlainType → List Token → Prop
  | named {name : String} (h : IsTypeName name) : SpellsName (.named name) [name.toList]
  | qualified {package name : String} (hpackage : IsTypeName package) (h : IsTypeName name) :
      SpellsName (.qualified (.named package) name) [package.toList, ['.'], name.toList]

/-- The tokens that a type is written with. -/
inductive Spells : PlainType → List Token → Prop
  | name {type : PlainType} {ts : List Token} (h : SpellsName type ts) : Spells type ts
  | generic {base : PlainType} {bs : List Token} (args : List (PlainType × List Token))
      (hbase : SpellsName base bs) (hargs : ∀ arg ∈ args, Spells arg.1 arg.2) :
      Spells (.generic base (args.map (·.1)))
        (bs ++ ['['] :: commaTokens (args.map (·.2)) ++ [[']']])
  | paren {type : PlainType} {ts : List Token} (h : Spells type ts) :
      Spells type (['('] :: ts ++ [[')']])
  | pointer {elem : PlainType} {ts : List Token} (h : Spells elem ts) :
      Spells (.pointer elem) (['*'] :: ts)
  | slice {elem : PlainType} {ts : List Token} (h : Spells elem ts) :
      Spells (.array none elem) (['['] :: [']'] :: ts)
  | array {elem : PlainType} {length ts : List Token} (hne : length ≠ [])
      (hlength : Balanced length) (h : Spells elem ts) : Spells (.array (some length) elem) (['['] :: length ++ [']'] :: ts)
  | map {key value : PlainType} {ks vs : List Token} (hkey : Spells key ks)
      (hvalue : Spells value vs) :
      Spells (.map key value) (['m', 'a', 'p'] :: ['['] :: ks ++ [']'] :: vs)
  -- The one case in which the tokens of a part are restricted.
  | chan {value : PlainType} {ts : List Token} (h : Spells value ts)
      (harrow : ts.head? ≠ some ['<', '-']) :
      Spells (.chan .both value) (['c', 'h', 'a', 'n'] :: ts)
  | send {value : PlainType} {ts : List Token} (h : Spells value ts) :
      Spells (.chan .send value) (['c', 'h', 'a', 'n'] :: ['<', '-'] :: ts)
  | receive {value : PlainType} {ts : List Token} (h : Spells value ts) :
      Spells (.chan .receive value) (['<', '-'] :: ['c', 'h', 'a', 'n'] :: ts)
  | func (params results : List Item) {ts : List Token}
      (hparams : ∀ item ∈ params, Spells item.type item.text)
      (hresults : ∀ item ∈ results, Spells item.type item.text) (hts : ResultTokens results ts) :
      Spells (.func (params.map Item.plain) (results.map Item.plain))
        (['f', 'u', 'n', 'c'] :: listTokens params ++ ts)
  | struct : Spells (.struct []) [['s', 't', 'r', 'u', 'c', 't'], ['\x7b'], ['\x7d']]
  | interface :
      Spells (.interface 0) [['i', 'n', 't', 'e', 'r', 'f', 'a', 'c', 'e'], ['\x7b'], ['\x7d']]

/-! ## The reader -/

/-- Take a token from the front. -/
def expect (t : Token) : List Token → Option (List Token)
  | [] => none
  | head :: rest => if head = t then some rest else none

/-- Read the length of an array up to the bracket that closes it. -/
def readLength : Nat → List Token → Option (List Token × List Token)
  | _, [] => none
  | depth, t :: ts =>
    if t = ['['] then (readLength (depth + 1) ts).map fun found => (t :: found.1, found.2)
    else if t = [']'] then
      match depth with
      | 0 => some ([], ts)
      | depth + 1 => (readLength depth ts).map fun found => (t :: found.1, found.2)
    else (readLength depth ts).map fun found => (t :: found.1, found.2)

/-- A reader of something at the front of a token sequence. -/
abbrev Reader (α : Type) := List Token → Option (α × List Token)

variable {α β : Type}

/-- Read at most so many items with commas between them. -/
def readItems (item : Reader α) : Nat → Reader (List α)
  | 0, _ => none
  | bound + 1, ts => do
    let (x, rest) ← item ts
    if rest.head? = some [','] then
      let (xs, rest) ← readItems item bound rest.tail
      return (x :: xs, rest)
    else return ([x], rest)

/-- Read items up to a closing bracket. -/
def readList (item : Reader α) (bound : Nat) (close : Token) : Reader (List α) := fun ts =>
  if ts.head? = some close then some ([], ts.tail)
  else do
    let (xs, rest) ← readItems item bound ts
    let rest ← expect close rest
    return (xs, rest)

/-- Read a parameter. -/
def readParam (type : Reader PlainType) : Reader (Bool × PlainType) := fun ts =>
  if ts.head? = some ['.', '.', '.'] then
    (type ts.tail).map fun found => ((true, found.1), found.2)
  else (type ts).map fun found => ((false, found.1), found.2)

/-- What may stand behind a type. -/
def closers : List Token := [[']'], [')'], [',']]

/-- Read what stands behind the parameters of a function type. -/
def readResults (type : Reader PlainType) (bound : Nat) : Reader (List (Bool × PlainType))
  | [] => some ([], [])
  | head :: rest =>
    if head ∈ closers then some ([], head :: rest)
    else if head = ['('] then readList (readParam type) bound [')'] rest
    else (type (head :: rest)).map fun found => ([(false, found.1)], found.2)

/-- Read a name that begins with a given token. -/
def readName (head : Token) (rest : List Token) : PlainType × List Token :=
  match rest with
  | ['.'] :: name :: rest =>
    (.qualified (.named (String.ofList head)) (String.ofList name), rest)
  | rest => (.named (String.ofList head), rest)

/-- Read a name and the types it is applied to. -/
def readNamed (type : Reader PlainType) (bound : Nat) (head : Token) (rest : List Token) :
    Option (PlainType × List Token) :=
  let (base, rest) := readName head rest
  if rest.head? = some ['['] then
    (readList type bound [']'] rest.tail).map fun found => (.generic base found.1, found.2)
  else some (base, rest)

/-- Read a type that is nested at most so deep. -/
def readType : Nat → Reader PlainType
  | 0, _ | _ + 1, [] => none
  | n + 1, head :: rest =>
    if head = ['*'] then do
      let (elem, rest) ← readType n rest
      return (.pointer elem, rest)
    else if head = ['('] then do
      let (type, rest) ← readType n rest
      let rest ← expect [')'] rest
      return (type, rest)
    else if head = ['['] then do
      let (length, rest) ← readLength 0 rest
      let (elem, rest) ← readType n rest
      return (.array (if length.isEmpty then none else some length) elem, rest)
    else if head = ['<', '-'] then do
      let rest ← expect ['c', 'h', 'a', 'n'] rest
      let (value, rest) ← readType n rest
      return (.chan .receive value, rest)
    else if head = ['c', 'h', 'a', 'n'] then
      if rest.head? = some ['<', '-'] then do
        let (value, rest) ← readType n rest.tail
        return (.chan .send value, rest)
      else do
        let (value, rest) ← readType n rest
        return (.chan .both value, rest)
    else if head = ['m', 'a', 'p'] then do
      let rest ← expect ['['] rest
      let (key, rest) ← readType n rest
      let rest ← expect [']'] rest
      let (value, rest) ← readType n rest
      return (.map key value, rest)
    else if head = ['f', 'u', 'n', 'c'] then do
      let rest ← expect ['('] rest
      let (params, rest) ← readList (readParam (readType n)) n [')'] rest
      let (results, rest) ← readResults (readType n) n rest
      return (.func params results, rest)
    else if head = ['s', 't', 'r', 'u', 'c', 't'] then do
      let rest ← expect ['\x7b'] rest
      let rest ← expect ['\x7d'] rest
      return (.struct [], rest)
    else if head = ['i', 'n', 't', 'e', 'r', 'f', 'a', 'c', 'e'] then do
      let rest ← expect ['\x7b'] rest
      let rest ← expect ['\x7d'] rest
      return (.interface 0, rest)
    else readNamed (readType n) n head rest

/-! ## What stands in front of a type and behind it -/

/-- Behind a type, the text ends or goes on with a closer. -/
def Ends (rest : List Token) : Prop := ∀ t, rest.head? = some t → t ∈ closers

theorem ends_nil : Ends [] := nofun

theorem ends_cons {t : Token} (h : t ∈ closers) (rest : List Token) : Ends (t :: rest) := by
  rintro _ ⟨⟩
  exact h

theorem Ends.head_ne {rest : List Token} (h : Ends rest) {t : Token} (ht : t ∉ closers) :
    rest.head? ≠ some t :=
  fun heq => ht (h t heq)

/-- The marks that another type than a named one begins with, and those that end one. -/
def marks : List Token := closers ++ [['*'], ['('], ['['], ['<', '-'], ['.', '.', '.'], ['.']]

/-- A name of a type is none of the words and marks that other types begin with. -/
theorem IsTypeName.ne {name : String} (h : IsTypeName name) {t : Token}
    (ht : t ∈ marks ++ Grammar.typeKeywords.map String.toList) : name.toList ≠ t := by
  rintro rfl
  rcases List.mem_append.mp ht with hmark | hkeyword
  · have hfirst : ∀ t ∈ marks, t.head?.any Text.isIdentStart = false := by decide
    obtain ⟨c, rest, heq, hc, -⟩ := isWord_iff.mp h.1
    have hnone := hfirst _ hmark
    rw [heq, List.head?_cons, Option.any_some, hc] at hnone
    cases hnone
  · obtain ⟨keyword, hmem, hname⟩ := List.mem_map.mp hkeyword
    exact h.2 (String.toList_inj.mp hname ▸ hmem)

theorem SpellsName.first {type : PlainType} {ts : List Token} (h : SpellsName type ts) :
    ∃ (name : String) (tail : List Token), ts = name.toList :: tail ∧ IsTypeName name := by
  cases h with
  | named h => exact ⟨_, _, rfl, h⟩
  | qualified hpackage h => exact ⟨_, _, rfl, hpackage⟩

/-- A name of a type begins with none of the words and marks that other types begin with. -/
theorem SpellsName.head_ne {type : PlainType} {ts : List Token} (h : SpellsName type ts) {t : Token}
    (ht : t ∈ marks ++ Grammar.typeKeywords.map String.toList) : ts.head? ≠ some t := by
  obtain ⟨name, tail, rfl, hname⟩ := h.first
  exact fun heq => hname.ne ht (Option.some.inj heq)

/-- The first token of a type neither closes anything nor makes a parameter variadic. -/
theorem Spells.first {type : PlainType} {ts : List Token} (h : Spells type ts) :
    ∃ head tail, ts = head :: tail ∧ head ∉ closers ∧ head ≠ ['.', '.', '.'] := by
  have hname : ∀ {name : String}, IsTypeName name →
      name.toList ∉ closers ∧ name.toList ≠ ['.', '.', '.'] := by
    intro name hname
    refine ⟨fun hclose => hname.ne ?_ rfl, hname.ne (by decide)⟩
    exact List.mem_append_left _ (List.mem_append_left _ hclose)
  cases h with
  | name h =>
      obtain ⟨name, tail, rfl, htype⟩ := h.first
      exact ⟨_, _, rfl, hname htype⟩
  | generic args hbase hargs =>
      obtain ⟨name, tail, rfl, htype⟩ := hbase.first
      exact ⟨_, _, rfl, hname htype⟩
  | _ => exact ⟨_, _, rfl, by decide, by decide⟩

theorem Spells.first_ne {type : PlainType} {ts : List Token} (h : Spells type ts) {close : Token}
    (hclose : close ∈ closers) : ∃ head tail, ts = head :: tail ∧ head ≠ close := by
  obtain ⟨head, tail, rfl, hne, -⟩ := h.first
  exact ⟨head, tail, rfl, fun heq => hne (heq ▸ hclose)⟩

/-- What begins with a round bracket is a type between brackets. -/
theorem Spells.of_bracket {type : PlainType} {ts : List Token} (h : Spells type (['('] :: ts)) :
    ∃ inner, Spells type inner ∧ ['('] :: ts = listTokens [⟨false, type, inner⟩] := by
  have hmem : ['('] ∈ marks ++ Grammar.typeKeywords.map String.toList := by decide
  generalize hts : ['('] :: ts = us at h
  cases h with
  | name h => exact absurd (hts ▸ rfl) (h.head_ne hmem)
  | @generic base bs args hbase hargs =>
      obtain ⟨name, tail, rfl, hname⟩ := hbase.first
      exact absurd (List.cons.inj hts).1.symm (hname.ne hmem)
  | paren h => exact ⟨_, h, rfl⟩
  | _ => exact absurd (List.cons.inj hts).1 (by decide)

/-! ## Reading lengths, lists and names -/

theorem readLength_append {depth : Nat} {ts : List Token} (h : depthAfter depth ts = some 0)
    (rest : List Token) : readLength depth (ts ++ [']'] :: rest) = some (ts, rest) := by
  induction ts generalizing depth with
  | nil =>
      cases h
      rfl
  | cons t ts ih =>
      unfold depthAfter at h
      rw [List.cons_append]
      unfold readLength
      split at h
      case isTrue hopen => rw [if_pos hopen, ih h, Option.map_some]
      case isFalse hopen =>
        rw [if_neg hopen]
        split at h
        case isTrue hclose =>
          rw [if_pos hclose]
          cases depth with
          | zero => cases h
          | succ depth => simp only [ih h, Option.map_some]
        case isFalse hclose => rw [if_neg hclose, ih h, Option.map_some]

theorem commaTokens_cons (ts : List Token) {rest : List (List Token)} (h : rest ≠ []) :
    commaTokens (ts :: rest) = ts ++ [','] :: commaTokens rest := by
  cases rest with
  | nil => exact absurd rfl h
  | cons => rfl

/-- There is a comma between any two items. -/
theorem length_le_commaTokens (texts : List (List Token)) :
    texts.length ≤ (commaTokens texts).length + 1 := by
  induction texts with
  | nil => exact Nat.zero_le _
  | cons ts rest ih =>
      by_cases hrest : rest = []
      · subst hrest
        exact Nat.le_add_left 1 _
      · rw [commaTokens_cons ts hrest, List.length_append, List.length_cons, List.length_cons]
        omega

/-- An item is not longer than the list it is in. -/
theorem length_le_of_mem {ts : List Token} {texts : List (List Token)} (h : ts ∈ texts) :
    ts.length ≤ (commaTokens texts).length := by
  induction texts with
  | nil => cases h
  | cons text rest ih =>
      by_cases hrest : rest = []
      · subst hrest
        rw [List.mem_singleton.mp h, commaTokens]
      · rw [commaTokens_cons text hrest, List.length_append, List.length_cons]
        rcases List.mem_cons.mp h with rfl | hmem
        · omega
        · have := ih hmem
          omega

/-- Items are read back one after the other if each of them is. -/
theorem readItems_commaTokens {item : Reader α} {text : β → List Token} {value : β → α}
    {xs : List β} (hne : xs ≠ [])
    (hitem : ∀ x ∈ xs, ∀ rest, Ends rest → item (text x ++ rest) = some (value x, rest))
    {bound : Nat} (hbound : xs.length ≤ bound) {rest : List Token} (hrest : Ends rest)
    (hcomma : rest.head? ≠ some [',']) :
    readItems item bound (commaTokens (xs.map text) ++ rest) = some (xs.map value, rest) := by
  induction xs generalizing bound with
  | nil => exact absurd rfl hne
  | cons x xs ih =>
      rw [List.length_cons] at hbound
      obtain ⟨bound, rfl⟩ : ∃ n, bound = n + 1 := ⟨bound - 1, by omega⟩
      rw [List.forall_mem_cons] at hitem
      by_cases hxs : xs = []
      · subst hxs
        simp [commaTokens, readItems, hitem.1 rest hrest, hcomma]
      · have hmore := ih hxs hitem.2 (Nat.le_of_succ_le_succ hbound)
        have hends := ends_cons (t := [',']) (by decide) (commaTokens (xs.map text) ++ rest)
        rw [List.map_cons, commaTokens_cons _ (by simpa using hxs), List.append_assoc,
          List.cons_append, readItems, hitem.1 _ hends]
        simp [hmore]

/-- Items are read back up to the bracket that closes them. -/
theorem readList_commaTokens {item : Reader α} {text : β → List Token} {value : β → α} {xs : List β}
    {close : Token} (hclose : close ∈ closers) (hcomma : close ≠ [','])
    (hfirst : ∀ x ∈ xs, ∃ head tail, text x = head :: tail ∧ head ≠ close)
    (hitem : ∀ x ∈ xs, ∀ rest, Ends rest → item (text x ++ rest) = some (value x, rest))
    {bound : Nat} (hbound : xs.length ≤ bound) (rest : List Token) :
    readList item bound close (commaTokens (xs.map text) ++ close :: rest) =
      some (xs.map value, rest) := by
  cases xs with
  | nil => simp [readList, commaTokens]
  | cons x xs =>
      have hitems := readItems_commaTokens (List.cons_ne_nil x xs) hitem hbound
        (ends_cons hclose rest) (by simpa using hcomma)
      obtain ⟨head, tail, htext, hhead⟩ := hfirst x List.mem_cons_self
      have hstart : (commaTokens ((x :: xs).map text) ++ close :: rest).head? ≠ some close := by
        cases xs <;> simpa [commaTokens, htext] using hhead
      rw [readList, if_neg hstart, hitems]
      simp [expect]

theorem SpellsName.readName {type : PlainType} {ts : List Token} (h : SpellsName type ts)
    {rest : List Token} (hdot : rest.head? ≠ some ['.']) :
    ∃ (name : String) (tail : List Token), ts = name.toList :: tail ∧ IsTypeName name ∧
      readName name.toList (tail ++ rest) = (type, rest) := by
  cases h with
  | @named name h =>
      refine ⟨name, [], rfl, h, ?_⟩
      rw [List.nil_append, Go.readName]
      · rw [String.ofList_toList]
      · rintro name rest rfl
        exact hdot rfl
  | @qualified package name hpackage h =>
      refine ⟨package, _, rfl, hpackage, ?_⟩
      simp [Go.readName, String.ofList_toList]

/-- In front of a name of a type, a name is read. -/
theorem IsTypeName.readType {name : String} (h : IsTypeName name) (n : Nat) (rest : List Token) :
    readType (n + 1) (name.toList :: rest) = readNamed (readType n) n name.toList rest := by
  have hne := fun t ht => h.ne (t := t) ht
  rw [Go.readType, if_neg (hne _ (by decide)), if_neg (hne _ (by decide)),
    if_neg (hne _ (by decide)), if_neg (hne _ (by decide)),
    if_neg (hne _ (by decide)), if_neg (hne _ (by decide)),
    if_neg (hne _ (by decide)), if_neg (hne _ (by decide)),
    if_neg (hne _ (by decide))]

/-! ## Reading types -/

theorem length_listTokens (items : List Item) :
    (listTokens items).length = (commaTokens (items.map Item.tokens)).length + 2 := by
  simp [listTokens]

theorem Item.length_text_le (item : Item) : item.text.length ≤ item.tokens.length := by
  rw [Item.tokens]
  split
  · exact Nat.le_succ _
  · exact Nat.le_refl _

/-- What a type reader has to do with types shorter than a bound. -/
def Reads (type : Reader PlainType) (bound : Nat) : Prop :=
  ∀ {t ts}, Spells t ts → ts.length < bound → ∀ rest, Ends rest → type (ts ++ rest) = some (t, rest)

namespace Reads

variable {type : Reader PlainType} {bound : Nat}

theorem readParam (hreads : Reads type bound) {item : Item} (h : Spells item.type item.text)
    (hbound : item.tokens.length < bound) {rest : List Token} (hrest : Ends rest) :
    readParam type (item.tokens ++ rest) = some (item.plain, rest) := by
  have hread := hreads h (Nat.lt_of_le_of_lt item.length_text_le hbound) rest hrest
  obtain ⟨variadic, t, text⟩ := item
  cases variadic with
  | true => simp [Item.tokens, Go.readParam, Item.plain, hread]
  | false =>
      obtain ⟨head, tail, rfl, -, hdots⟩ := h.first
      simpa [Item.tokens, Go.readParam, Item.plain, hdots] using hread

/-- The items between two round brackets. -/
theorem readParams (hreads : Reads type bound) {items : List Item}
    (h : ∀ item ∈ items, Spells item.type item.text) (hbound : (listTokens items).length ≤ bound)
    (rest : List Token) :
    (expect ['('] (listTokens items ++ rest)).bind (readList (Go.readParam type) bound [')']) =
      some (items.map Item.plain, rest) := by
  rw [length_listTokens] at hbound
  have hcount := length_le_commaTokens (items.map Item.tokens)
  rw [List.length_map] at hcount
  have hfirst : ∀ item ∈ items, ∃ head tail, item.tokens = head :: tail ∧ head ≠ [')'] := by
    intro item hmem
    rw [Item.tokens]
    split
    · exact ⟨_, _, rfl, by decide⟩
    · exact (h item hmem).first_ne (by decide)
  have hitem : ∀ item ∈ items, ∀ rest, Ends rest →
      Go.readParam type (item.tokens ++ rest) = some (item.plain, rest) := by
    intro item hmem rest hrest
    have hle := length_le_of_mem (List.mem_map_of_mem (f := Item.tokens) hmem)
    exact hreads.readParam (h item hmem) (by omega) hrest
  have hlist : readList (Go.readParam type) bound [')']
      (commaTokens (items.map Item.tokens) ++ [')'] :: rest) = some (items.map Item.plain, rest) :=
    readList_commaTokens (by decide) (by decide) hfirst hitem (by omega) rest
  simpa [listTokens, expect] using hlist

/-- The types between square brackets that a type is applied to. -/
theorem readArgs (hreads : Reads type bound) {args : List (PlainType × List Token)}
    (h : ∀ arg ∈ args, Spells arg.1 arg.2)
    (hbound : (commaTokens (args.map (·.2))).length + 1 ≤ bound) (rest : List Token) :
    readList type bound [']'] (commaTokens (args.map (·.2)) ++ [']'] :: rest) =
      some (args.map (·.1), rest) := by
  have hcount := length_le_commaTokens (args.map (·.2))
  rw [List.length_map] at hcount
  refine readList_commaTokens (by decide) (by decide) (fun arg hmem => ?_) (fun arg hmem => ?_)
    (Nat.le_trans hcount hbound) rest
  · exact (h arg hmem).first_ne (by decide)
  · have hle := length_le_of_mem (List.mem_map_of_mem (f := (·.2)) hmem)
    exact hreads (h arg hmem) (Nat.lt_of_le_of_lt hle hbound)

theorem readResults (hreads : Reads type bound) {items : List Item} {ts : List Token}
    (h : ∀ item ∈ items, Spells item.type item.text) (hts : ResultTokens items ts)
    (hbound : ts.length < bound) {rest : List Token} (hrest : Ends rest) :
    readResults type bound (ts ++ rest) = some (items.map Item.plain, rest) := by
  have hlist : ∀ items : List Item, (∀ item ∈ items, Spells item.type item.text) →
      (listTokens items).length < bound →
      Go.readResults type bound (listTokens items ++ rest) = some (items.map Item.plain, rest) := by
    intro items h hbound
    have hparams := hreads.readParams h (Nat.le_of_lt hbound) rest
    simpa [Go.readResults, listTokens, expect, closers] using hparams
  cases hts with
  | none =>
      cases rest with
      | nil => rfl
      | cons t rest => exact if_pos (hrest t rfl)
  | many items => exact hlist items h hbound
  | @one item hvariadic =>
      obtain ⟨variadic, t, text⟩ := item
      cases hvariadic
      have hspells : Spells t text := h _ (List.mem_singleton_self _)
      obtain ⟨head, tail, rfl, hclose, -⟩ := hspells.first
      by_cases hbracket : head = ['(']
      · subst hbracket
        -- A single result between brackets is read as a list with one item.
        obtain ⟨inner, hinner, htokens⟩ := hspells.of_bracket
        rw [htokens]
        exact hlist _ (by simpa using hinner) (htokens ▸ hbound)
      · have hread := hreads hspells hbound rest hrest
        rw [List.cons_append] at hread
        simp [Go.readResults, hclose, hbracket, hread, Item.plain]

end Reads

/-- The tokens of a type are read as that type. -/
theorem reads_readType (n : Nat) : Reads (readType n) n := by
  -- Induction on how deep the reader goes: what a type is made of is shorter than the type.
  induction n with
  | zero => exact fun _ hlength => absurd hlength (Nat.not_lt_zero _)
  | succ n ih =>
      intro t ts h hlength rest hrest
      cases h with
      | name h =>
          obtain ⟨name, tail, rfl, hname, hread⟩ := h.readName (hrest.head_ne (by decide))
          rw [List.cons_append, hname.readType, readNamed, hread]
          exact if_neg (hrest.head_ne (by decide))
      | @generic base bs args hbase hargs =>
          simp only [List.length_append, List.length_cons] at hlength
          have hlist := ih.readArgs hargs (by omega) rest
          have hdot : (['['] :: (commaTokens (args.map (·.2)) ++ [']'] :: rest)).head? ≠
              some ['.'] := by simp
          obtain ⟨name, tail, rfl, hname, hread⟩ := hbase.readName hdot
          simp only [List.append_assoc, List.cons_append, List.nil_append]
          rw [hname.readType, readNamed, hread]
          simp [hlist]
      | @paren _ ts h =>
          have hends := ends_cons (t := [')']) (by decide) rest
          have hread := ih h (by simp at hlength; omega) _ hends
          simp [readType, hread, expect]
      | pointer h => simp [readType, ih h (Nat.lt_of_succ_lt_succ hlength) rest hrest]
      | slice h =>
          have hread := ih h (by simpa using Nat.lt_of_succ_lt hlength) rest hrest
          simp [readType, readLength, hread]
      | @array elem length ts hne hbalanced h =>
          have hread := ih h (by simp at hlength; omega) rest hrest
          have hlen := readLength_append hbalanced (ts ++ rest)
          simp [readType, hlen, hread, hne]
      | @map key value ks vs hkey hvalue =>
          simp only [List.length_append, List.length_cons] at hlength
          have hk := ih hkey (by omega) ([']'] :: (vs ++ rest)) (ends_cons (by decide) _)
          have hv := ih hvalue (by omega) rest hrest
          simp [readType, expect, hk, hv]
      | chan h harrow =>
          have hread := ih h (Nat.lt_of_succ_lt_succ hlength) rest hrest
          obtain ⟨head, tail, rfl, -⟩ := h.first
          rw [List.cons_append] at hread
          have hhead : head ≠ ['<', '-'] := by simpa using harrow
          simp [readType, hread, hhead]
      | send h =>
          have hread := ih h (by simpa using Nat.lt_of_succ_lt hlength) rest hrest
          simp [readType, hread]
      | receive h =>
          have hread := ih h (by simpa using Nat.lt_of_succ_lt hlength) rest hrest
          simp [readType, hread, expect]
      | @func params results ts hparams hresults hts =>
          simp only [List.length_append, List.length_cons] at hlength
          have hps := ih.readParams hparams (by omega) (ts ++ rest)
          rw [length_listTokens] at hlength
          have hrs := ih.readResults hresults hts (by omega) hrest
          rw [Option.bind_eq_some_iff] at hps
          obtain ⟨_, hopen, hps⟩ := hps
          simp [readType, hopen, hps, hrs]
      | struct => rfl
      | interface => rfl

/-- **The same tokens never spell two types.** -/
theorem Spells.unique {t u : PlainType} {ts : List Token} (ht : Spells t ts) (hu : Spells u ts) :
    t = u := by
  have h₁ := reads_readType _ ht (Nat.lt_succ_self _) [] ends_nil
  have h₂ := reads_readType _ hu (Nat.lt_succ_self _) [] ends_nil
  rw [h₁] at h₂
  cases h₂
  rfl

end FluentBuilder.Go

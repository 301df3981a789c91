import Mathlib.Data.List.Forall2
import FluentBuilder.Proofs.TypeGrammar
import FluentBuilder.Results
import FluentBuilder.Signature

/-!
# Unambiguous signatures — the tokens of a signature tell its type

`Lexes` is said of a text and its tokens, whatever stands behind the text. The text of a signature
lexes to tokens that spell its type (`spelled`), and what tokens spell is unique.

* **`TypeExpr.tokens_signature`** — the signature of a type is read back as that type.
* **`TypeExpr.signature_unambiguous`** — signatures with the same tokens are those of one type,
  apart from brackets and the spaces in lengths.
-/

namespace FluentBuilder.Go

/-! ## Types apart from how they are written -/

/-- The tokens of the text of a length. -/
def lengthTokens (text : String) : List Token := (tokens text.toList).getD []

mutual

/-- A type without its brackets; a struct that lists no fields is one with an empty list. -/
def TypeExpr.plain : TypeExpr → PlainType
  | .named name => .named name
  | .qualified package name => .qualified package.plain name
  | .array length elem => .array (length.map lengthTokens) elem.plain
  | .pointer elem => .pointer elem.plain
  | .map key value => .map key.plain value.plain
  | .chan direction value => .chan direction value.plain
  | .generic base args => .generic base.plain (plainTypes args)
  | .paren elem => elem.plain
  | .func params results => .func (plainParams params) (plainParams results)
  | .struct none => .struct []
  | .struct (some fields) => .struct (plainFields fields)
  | .interface elements => .interface elements
  | .other kind => .other kind

/-- Types without their brackets. -/
def plainTypes : List TypeExpr → List PlainType
  | [] => []
  | t :: rest => t.plain :: plainTypes rest

/-- Parameters without the brackets in their types. -/
def plainParams : List Param → List (Bool × PlainType)
  | [] => []
  | ⟨t, variadic⟩ :: rest => (variadic, t.plain) :: plainParams rest

/-- Fields without the brackets in their types. -/
def plainFields : List Field → List (List String × PlainType × Option String)
  | [] => []
  | ⟨names, t, tag⟩ :: rest => (names, t.plain, tag) :: plainFields rest

end

/-- A type that is a name, perhaps with that of its package. -/
def TypeExpr.isName : TypeExpr → Bool
  | .named _ | .qualified _ _ => true
  | _ => false

/-- A length is not empty and closes the square brackets that it opens. -/
def IsLength (text : String) : Prop :=
  ∃ ts, tokens text.toList = some ts ∧ ts ≠ [] ∧ Balanced ts

mutual

/-- The names of a type are names of types, only names are applied to types, and lengths are
lengths. Of a struct with fields nothing is asked, for it has no signature. -/
def TypeExpr.Regular : TypeExpr → Prop
  | .named name => IsTypeName name
  | .qualified package name => package.Regular ∧ IsTypeName name
  | .array none elem => elem.Regular
  | .array (some length) elem => IsLength length ∧ elem.Regular
  | .pointer elem => elem.Regular
  | .map key value => key.Regular ∧ value.Regular
  | .chan _ value => value.Regular
  | .generic base args => base.isName = true ∧ base.Regular ∧ regularTypes args
  | .paren elem => elem.Regular
  | .func params results => regularParams params ∧ regularParams results
  | .struct _ | .interface _ | .other _ => True

/-- Every type of a list is regular. -/
def regularTypes : List TypeExpr → Prop
  | [] => True
  | t :: rest => t.Regular ∧ regularTypes rest

/-- The type of every parameter is regular. -/
def regularParams : List Param → Prop
  | [] => True
  | ⟨t, _⟩ :: rest => t.Regular ∧ regularParams rest

end

/-! ## Texts and their tokens -/

/-- A text has some tokens, whatever stands behind it that does not go on with its last word. -/
structure Lexes (s : List Char) (ts : List Token) : Prop where
  first : s.head? ≠ some '='
  tokens_append {r : List Char} {us : List Token} (hr : StopsWord r) (h : tokens r = some us) :
    tokens (s ++ r) = some (ts ++ us)

theorem stopsWord_nil : StopsWord [] := nofun

theorem stopsWord_cons {c : Char} (h : Text.isIdentPart c = false) (r : List Char) :
    StopsWord (c :: r) := by
  rintro _ ⟨⟩
  exact h

theorem StopsWord.append {s r : List Char} (hs : StopsWord s) (hr : StopsWord r) :
    StopsWord (s ++ r) := by
  cases s with
  | nil => exact hr
  | cons c s => exact stopsWord_cons (hs c rfl) _

namespace Lexes

variable {s s' w m : List Char} {ts us : List Token}

theorem tokens_eq (h : Lexes s ts) : tokens s = some ts := by
  simpa using h.tokens_append stopsWord_nil (show tokens [] = some [] from rfl)

theorem nil : Lexes [] [] := ⟨nofun, fun _ h => h⟩

theorem append (h : Lexes s ts) (hs : StopsWord s') (h' : Lexes s' us) :
    Lexes (s ++ s') (ts ++ us) where
  first := by
    cases s with
    | nil => exact h'.first
    | cons c s => exact h.first
  tokens_append hr hus := by
    rw [List.append_assoc, List.append_assoc]
    exact h.tokens_append (hs.append hr) (h'.tokens_append hr hus)

theorem space (h : Lexes s ts) : Lexes (' ' :: s) ts where
  first := nofun
  tokens_append hr hus := tokens_space (h.tokens_append hr hus)

theorem word (hw : IsWord w) (hs : StopsWord s) (h : Lexes s ts) : Lexes (w ++ s) (w :: ts) where
  first := by
    obtain ⟨c, rest, rfl, hc, -⟩ := isWord_iff.mp hw
    rintro ⟨⟩
    exact absurd hc (by decide)
  tokens_append hr hus := by
    rw [List.append_assoc]
    exact tokens_word hw (hs.append hr) (h.tokens_append hr hus)

/-- A mark that no other mark begins with. -/
theorem mark (hm : m ∈ [['['], [']'], ['('], [')'], [','], ['\x7b'], ['\x7d'], ['<', '-'],
    ['.', '.', '.']]) (h : Lexes s ts) : Lexes (m ++ s) (m :: ts) := by
  have hpiece : ∀ r, nextPiece (m ++ r) = some (some m, r) := by
    intro r
    simp only [List.mem_cons, List.not_mem_nil, or_false] at hm
    rcases hm with rfl | rfl | rfl | rfl | rfl | rfl | rfl | rfl | rfl <;> rfl
  have hfirst : m.head?.any (· != '=') = true := by
    clear hpiece
    revert m
    decide
  cases m with
  | nil => cases hfirst
  | cons c m =>
      refine ⟨by simpa using hfirst, fun hr hus => ?_⟩
      rw [List.append_assoc]
      exact tokens_mark (hpiece _) (h.tokens_append hr hus)

/-- The star of a pointer stands in front of some token. -/
theorem star (h : Lexes s ts) (hne : ts ≠ []) : Lexes ('*' :: s) (['*'] :: ts) where
  first := nofun
  tokens_append hr hus := by
    cases s with
    -- With nothing in front of it, a mark behind the star could make it another one.
    | nil => exact absurd (Option.some.inj h.tokens_eq).symm hne
    | cons c s => exact tokens_star (by simpa using h.first) (h.tokens_append hr hus)

/-- A name behind the name of its package. -/
theorem qualified {package name : List Char} (hpackage : IsWord package) (hname : IsWord name) :
    Lexes (package ++ '.' :: name) [package, ['.'], name] := by
  have hdot : Lexes ('.' :: name) [['.'], name] := by
    refine ⟨nofun, fun hr hus => ?_⟩
    have h := tokens_word hname hr hus
    obtain ⟨c, rest, rfl, hc, -⟩ := isWord_iff.mp hname
    exact tokens_dot hc h
  exact hdot.word hpackage (stopsWord_cons (by decide) _)

/-- Any text that has tokens, between square brackets. -/
theorem brackets {length : List Char} {ls : List Token} (hlength : tokens length = some ls)
    (h : Lexes s ts) : Lexes ('[' :: length ++ ']' :: s) (['['] :: ls ++ [']'] :: ts) where
  first := nofun
  tokens_append hr hus := by
    have hclose : Lexes (']' :: s) ([']'] :: ts) := h.mark (m := [']']) (by decide)
    have h := tokens_bracket hlength (hclose.tokens_append hr hus)
    simpa using tokens_mark (m := ['[']) rfl h

/-- A closing mark behind a text. -/
theorem closed (h : Lexes s ts) {c : Char} (hc : c = ']' ∨ c = ')') :
    Lexes (s ++ [c]) (ts ++ [[c]]) := by
  refine h.append (stopsWord_cons ?_ []) (nil.mark (m := [c]) ?_)
  · rcases hc with rfl | rfl <;> decide
  · rcases hc with rfl | rfl <;> decide

/-- Texts with commas between them. -/
theorem commaSeparated {texts : List (List Char)} {tokens : List (List Token)}
    (h : List.Forall₂ Lexes texts tokens) : Lexes (commaSeparated texts) (commaTokens tokens) := by
  induction h with
  | nil => exact nil
  | @cons s ts texts tokens hs h ih =>
      cases h with
      | nil => exact hs
      | cons =>
          have hcomma := ih.space.mark (m := [',']) (by decide)
          exact hs.append (stopsWord_cons (by decide) _) hcomma

end Lexes

/-! ## Signatures -/

theorem signature_eq_ok_iff {t : TypeExpr} {s : String} :
    t.signature = .ok s ↔ signatureChars t = .ok s.toList := by
  rw [TypeExpr.signature]
  cases signatureChars t with
  | error e => exact ⟨nofun, nofun⟩
  | ok text =>
      rw [Except.map, Except.ok.injEq, Except.ok.injEq]
      constructor
      · rintro rfl
        exact String.toList_ofList.symm
      · rintro rfl
        exact String.ofList_toList

/-- The text of a parameter has the tokens of an item. -/
def LexesItem (param : Bool × List Char) (item : Item) : Prop :=
  param.1 = item.variadic ∧ Lexes param.2 item.tokens

theorem lexes_items {params : List (Bool × List Char)} {items : List Item}
    (h : List.Forall₂ LexesItem params items) :
    Lexes (commaSeparated (params.map (·.2))) (commaTokens (items.map Item.tokens)) := by
  refine Lexes.commaSeparated ?_
  rw [List.forall₂_map_left_iff, List.forall₂_map_right_iff]
  exact h.imp fun _ _ h => h.2

/-- Items between round brackets. -/
theorem lexes_list {params : List (Bool × List Char)} {items : List Item}
    (h : List.Forall₂ LexesItem params items) :
    Lexes ('(' :: FluentBuilder.commaSeparated (params.map (·.2)) ++ [')']) (listTokens items) :=
  ((lexes_items h).mark (m := ['(']) (by decide)).closed (.inr rfl)

theorem stopsWord_resultText (results : List (Bool × List Char)) :
    StopsWord (resultText results) := by
  unfold resultText
  split
  · exact stopsWord_nil
  · exact stopsWord_cons (by decide) _
  · exact stopsWord_cons (by decide) _

/-- What stands behind the parameters of a function type is a way to write its results. -/
theorem lexes_results {params : List (Bool × List Char)} {items : List Item}
    (h : List.Forall₂ LexesItem params items) :
    ∃ ts, ResultTokens items ts ∧ Lexes (resultText params) ts := by
  have hmany : ∀ {text},
      text = ' ' :: '(' :: FluentBuilder.commaSeparated (params.map (·.2)) ++ [')'] →
      ∃ ts, ResultTokens items ts ∧ Lexes text ts := by
    rintro _ rfl
    exact ⟨_, .many items, (lexes_list h).space⟩
  cases h with
  | nil => exact ⟨_, .none, .nil⟩
  | @cons param item params items hparam h =>
      obtain ⟨variadic, s⟩ := param
      cases variadic with
      | true => exact hmany rfl
      | false =>
          -- Only a single result can do without brackets.
          cases h with
          | cons => exact hmany rfl
          | nil =>
              obtain ⟨hvariadic, hlexes⟩ := hparam
              rw [Item.tokens, ← hvariadic] at hlexes
              exact ⟨_, .one hvariadic.symm, hlexes.space⟩

/-- A text has tokens that spell a type. They begin with an arrow only if, behind `chan`, the type
would need brackets. -/
structure Spelled (t : TypeExpr) (s : List Char) (ts : List Token) : Prop where
  lexes  : Lexes s ts
  spells : Spells t.plain ts
  arrow  : ts.head? = some ['<', '-'] → needsBrackets .both t = true

/-- The text of a name of a type has the tokens of one. -/
theorem lexes_name {t : TypeExpr} (hname : t.isName = true) {s : List Char}
    (h : signatureChars t = .ok s) (hr : t.Regular) : ∃ ts, Lexes s ts ∧ SpellsName t.plain ts := by
  cases t with
  | named name =>
      cases h
      refine ⟨_, ?_, .named hr⟩
      simpa using Lexes.nil.word hr.1 stopsWord_nil
  | qualified package name =>
      cases package with
      | named package =>
          cases h
          exact ⟨_, .qualified hr.1.1 hr.2.1, .qualified hr.1 hr.2⟩
      | _ => cases h
  | _ => cases hname

namespace Spelled

variable {t key value : TypeExpr} {s k v : List Char} {ts ks vs : List Token}

theorem name (hname : t.isName = true) (h : signatureChars t = .ok s) (hr : t.Regular) :
    ∃ ts, Spelled t s ts := by
  obtain ⟨ts, hlexes, hspells⟩ := lexes_name hname h hr
  exact ⟨ts, hlexes, .name hspells, fun heq => absurd heq (hspells.head_ne (by decide))⟩

theorem array (length : Option String) (hlength : ∀ text ∈ length, IsLength text)
    (h : Spelled t s ts) :
    ∃ us, Spelled (.array length t) ('[' :: (length.getD "").toList ++ ']' :: s) us := by
  cases length with
  | none =>
      have hnone : tokens [] = some [] := rfl
      exact ⟨_, h.lexes.brackets hnone, .slice h.spells, by simp⟩
  | some text =>
      obtain ⟨ls, hls, hne, hbalanced⟩ := hlength text rfl
      have hplain : (TypeExpr.array (some text) t).plain = .array (some ls) t.plain := by
        simp [TypeExpr.plain, lengthTokens, hls]
      exact ⟨_, h.lexes.brackets hls, hplain ▸ .array hne hbalanced h.spells, by simp⟩

theorem pointer (h : Spelled t s ts) : Spelled (.pointer t) ('*' :: s) (['*'] :: ts) := by
  have hne : ts ≠ [] := by
    obtain ⟨head, tail, rfl, -⟩ := h.spells.first
    exact List.cons_ne_nil head tail
  exact ⟨h.lexes.star hne, .pointer h.spells, by simp⟩

theorem map (hkey : Spelled key k ks) (hvalue : Spelled value v vs) :
    Spelled (.map key value) ('m' :: 'a' :: 'p' :: '[' :: k ++ ']' :: v)
      (['m', 'a', 'p'] :: ['['] :: ks ++ [']'] :: vs) := by
  have hclose := hvalue.lexes.mark (m := [']']) (by decide)
  have hopen := (hkey.lexes.append (stopsWord_cons (by decide) _) hclose).mark
    (m := ['[']) (by decide)
  have hlexes := hopen.word (w := ['m', 'a', 'p']) rfl (stopsWord_cons (by decide) _)
  exact ⟨hlexes, .map hkey.spells hvalue.spells, by simp⟩

/-- The brackets that some elements of channels are written in keep the arrow in front of them
from being read as that of the outer channel. -/
theorem chan (direction : Direction) (h : Spelled value v ts) :
    ∃ us, Spelled (.chan direction value)
      (direction.word ++ if needsBrackets direction value then '(' :: v ++ [')'] else v) us := by
  have hchan : IsWord ['c', 'h', 'a', 'n'] := rfl
  have hspace : ∀ {s}, StopsWord (' ' :: s) := stopsWord_cons (by decide) _
  cases direction with
  | both =>
      by_cases hbrackets : needsBrackets .both value = true
      -- In brackets, the element begins with one of them. Without, it begins with no arrow.
      · rw [if_pos hbrackets]
        have hlexes := ((h.lexes.mark (m := ['(']) (by decide)).closed (.inr rfl)).space.word hchan
          hspace
        exact ⟨_, hlexes, .chan (.paren h.spells) (by simp), by simp⟩
      · rw [if_neg hbrackets]
        have hlexes := h.lexes.space.word hchan hspace
        exact ⟨_, hlexes, .chan h.spells fun heq => hbrackets (h.arrow heq), by simp⟩
  | send =>
      have hlexes := (h.lexes.space.mark (m := ['<', '-']) (by decide)).word hchan
        (stopsWord_cons (by decide) _)
      exact ⟨_, hlexes, .send h.spells, by simp⟩
  | receive =>
      have hlexes := (h.lexes.space.word hchan hspace).mark (m := ['<', '-']) (by decide)
      exact ⟨_, hlexes, .receive h.spells, fun _ => rfl⟩

theorem generic {base : TypeExpr} {types : List TypeExpr} {b : List Char} {bs : List Token}
    {texts : List (List Char)} (hbase : Lexes b bs) (hname : SpellsName base.plain bs)
    {args : List (PlainType × List Token)} (hplain : args.map (·.1) = plainTypes types)
    (hlexes : List.Forall₂ Lexes texts (args.map (·.2)))
    (hspells : ∀ arg ∈ args, Spells arg.1 arg.2) :
    Spelled (.generic base types) (b ++ '[' :: commaSeparated texts ++ [']'])
      (bs ++ ['['] :: commaTokens (args.map (·.2)) ++ [[']']]) := by
  have hopen := (Lexes.commaSeparated hlexes).mark (m := ['[']) (by decide)
  refine ⟨(hbase.append (stopsWord_cons (by decide) _) hopen).closed (.inl rfl), ?_, ?_⟩
  · rw [TypeExpr.plain, ← hplain]
    exact .generic args hname hspells
  · obtain ⟨first, tail, rfl, hfirst⟩ := hname.first
    exact fun heq => absurd (Option.some.inj heq) (hfirst.ne (by decide))

theorem paren (h : Spelled t s ts) :
    Spelled (.paren t) ('(' :: s ++ [')']) (['('] :: ts ++ [[')']]) :=
  ⟨(h.lexes.mark (m := ['(']) (by decide)).closed (.inr rfl), .paren h.spells, by simp⟩

theorem func {params results : List Param} {ps rs : List (Bool × List Char)}
    {items others : List Item} (hps : List.Forall₂ LexesItem ps items)
    (hrs : List.Forall₂ LexesItem rs others) (hparams : items.map Item.plain = plainParams params)
    (hresults : others.map Item.plain = plainParams results)
    (hitems : ∀ item ∈ items, Spells item.type item.text)
    (hothers : ∀ item ∈ others, Spells item.type item.text) :
    ∃ ts, Spelled (.func params results)
      (['f', 'u', 'n', 'c', '('] ++ commaSeparated (ps.map (·.2)) ++ ')' :: resultText rs) ts := by
  obtain ⟨ts, hresult, hts⟩ := lexes_results hrs
  have hlexes := ((lexes_list hps).append (stopsWord_resultText rs) hts).word
    (w := ['f', 'u', 'n', 'c']) rfl (stopsWord_cons (by decide) _)
  refine ⟨_, by simpa using hlexes, ?_, by simp⟩
  rw [TypeExpr.plain, ← hparams, ← hresults]
  exact .func items others hitems hothers hresult

end Spelled

/-- A type in braces that hold nothing. -/
theorem lexes_braces {w : List Char} (hw : IsWord w) :
    Lexes (w ++ ['\x7b', '\x7d']) [w, ['\x7b'], ['\x7d']] :=
  ((Lexes.nil.mark (m := ['\x7d']) (by decide)).mark (m := ['\x7b']) (by decide)).word hw
    (stopsWord_cons (by decide) _)

theorem lexes_struct : Lexes "struct\x7b\x7d".toList
    [['s', 't', 'r', 'u', 'c', 't'], ['\x7b'], ['\x7d']] :=
  lexes_braces (w := ['s', 't', 'r', 'u', 'c', 't']) rfl

theorem lexes_interface : Lexes "interface\x7b\x7d".toList
    [['i', 'n', 't', 'e', 'r', 'f', 'a', 'c', 'e'], ['\x7b'], ['\x7d']] :=
  lexes_braces (w := ['i', 'n', 't', 'e', 'r', 'f', 'a', 'c', 'e']) rfl

mutual

/-- The text of a signature has tokens that spell its type. -/
theorem spelled : ∀ (t : TypeExpr) {s : List Char}, signatureChars t = .ok s → t.Regular →
    ∃ ts, Spelled t s ts
  | .named name, s, h, hr => Spelled.name rfl h hr
  | .qualified package name, s, h, hr => Spelled.name rfl h hr
  | .array none elem, s, h, hr => by
      obtain ⟨e, he, ⟨⟩⟩ := ok_of_bind h
      obtain ⟨ts, hts⟩ := spelled elem he hr
      exact hts.array none nofun
  | .array (some length) elem, s, h, hr => by
      obtain ⟨e, he, ⟨⟩⟩ := ok_of_bind h
      obtain ⟨ts, hts⟩ := spelled elem he hr.2
      exact hts.array (some length) (by simpa using hr.1)
  | .pointer elem, s, h, hr => by
      obtain ⟨e, he, ⟨⟩⟩ := ok_of_bind h
      obtain ⟨ts, hts⟩ := spelled elem he hr
      exact ⟨_, hts.pointer⟩
  | .map key value, s, h, hr => by
      obtain ⟨k, hk, h⟩ := ok_of_bind h
      obtain ⟨v, hv, ⟨⟩⟩ := ok_of_bind h
      obtain ⟨ks, hks⟩ := spelled key hk hr.1
      obtain ⟨vs, hvs⟩ := spelled value hv hr.2
      exact ⟨_, hks.map hvs⟩
  | .chan direction value, s, h, hr => by
      obtain ⟨v, hv, ⟨⟩⟩ := ok_of_bind h
      obtain ⟨ts, hts⟩ := spelled value hv hr
      exact hts.chan direction
  | .generic base types, s, h, hr => by
      obtain ⟨b, hb, h⟩ := ok_of_bind h
      obtain ⟨texts, htexts, ⟨⟩⟩ := ok_of_bind h
      obtain ⟨bs, hlexes, hname⟩ := lexes_name hr.1 hb hr.2.1
      obtain ⟨args, hplain, hargs, hspells⟩ := spelled_types types htexts hr.2.2
      exact ⟨_, .generic hlexes hname hplain hargs hspells⟩
  | .paren elem, s, h, hr => by
      obtain ⟨e, he, ⟨⟩⟩ := ok_of_bind h
      obtain ⟨ts, hts⟩ := spelled elem he hr
      exact ⟨_, hts.paren⟩
  | .func params results, s, h, hr => by
      obtain ⟨ps, hps, h⟩ := ok_of_bind h
      obtain ⟨rs, hrs, ⟨⟩⟩ := ok_of_bind h
      obtain ⟨items, hparams, hlexes, hitems⟩ := spelled_params params hps hr.1
      obtain ⟨others, hresults, hlexes', hothers⟩ := spelled_params results hrs hr.2
      exact Spelled.func hlexes hlexes' hparams hresults hitems hothers
  | .struct none, s, h, hr => by
      cases h
      exact ⟨_, lexes_struct, .struct, by simp⟩
  | .struct (some []), s, h, hr => by
      cases h
      exact ⟨_, lexes_struct, .struct, by simp⟩
  | .struct (some (field :: fields)), s, h, hr => by cases h
  | .interface 0, s, h, hr => by
      cases h
      exact ⟨_, lexes_interface, .interface, by simp⟩
  | .interface (n + 1), s, h, hr => by cases h
  | .other kind, s, h, hr => by cases h

/-- The signatures of types have tokens that spell them. -/
theorem spelled_types : ∀ (types : List TypeExpr) {texts : List (List Char)},
    signaturesOf types = .ok texts → regularTypes types →
    ∃ args : List (PlainType × List Token), args.map (·.1) = plainTypes types ∧
      List.Forall₂ Lexes texts (args.map (·.2)) ∧ ∀ arg ∈ args, Spells arg.1 arg.2
  | [], texts, h, hr => by
      cases h
      exact ⟨[], rfl, .nil, nofun⟩
  | t :: rest, texts, h, hr => by
      obtain ⟨s, hs, h⟩ := ok_of_bind h
      obtain ⟨ss, hss, ⟨⟩⟩ := ok_of_bind h
      obtain ⟨ts, hts⟩ := spelled t hs hr.1
      obtain ⟨args, hplain, hlexes, hspells⟩ := spelled_types rest hss hr.2
      refine ⟨(t.plain, ts) :: args, ?_, .cons hts.lexes hlexes, ?_⟩
      · rw [List.map_cons, hplain, plainTypes]
      · exact List.forall_mem_cons.mpr ⟨hts.spells, hspells⟩

/-- The signatures of parameters have the tokens of items. -/
theorem spelled_params : ∀ (params : List Param) {texts : List (Bool × List Char)},
    paramSignatures params = .ok texts → regularParams params →
    ∃ items : List Item, items.map Item.plain = plainParams params ∧
      List.Forall₂ LexesItem texts items ∧ ∀ item ∈ items, Spells item.type item.text
  | [], texts, h, hr => by
      cases h
      exact ⟨[], rfl, .nil, nofun⟩
  | ⟨t, variadic⟩ :: rest, texts, h, hr => by
      obtain ⟨s, hs, h⟩ := ok_of_bind h
      obtain ⟨ss, hss, ⟨⟩⟩ := ok_of_bind h
      obtain ⟨ts, hts⟩ := spelled t hs hr.1
      obtain ⟨items, hplain, hlexes, hspells⟩ := spelled_params rest hss hr.2
      refine ⟨⟨variadic, t.plain, ts⟩ :: items, ?_, .cons ⟨rfl, ?_⟩ hlexes, ?_⟩
      · rw [List.map_cons, hplain, plainParams]
        rfl
      · cases variadic with
        | true => exact hts.lexes.mark (m := ['.', '.', '.']) (by decide)
        | false => exact hts.lexes
      · exact List.forall_mem_cons.mpr ⟨hts.spells, hspells⟩

end

/-- The signature of a type has tokens that spell it. -/
theorem TypeExpr.tokens_signature {t : TypeExpr} {s : String} (h : t.signature = .ok s)
    (hr : t.Regular) : ∃ ts, tokens s.toList = some ts ∧ Spells t.plain ts := by
  obtain ⟨ts, hts⟩ := spelled t (signature_eq_ok_iff.mp h) hr
  exact ⟨ts, hts.lexes.tokens_eq, hts.spells⟩

/-- **Signatures with the same tokens are those of one type**, apart from brackets around types,
from how a struct says that it has no fields, and from what stands between the tokens of a
length. -/
theorem TypeExpr.signature_unambiguous {t u : TypeExpr} {s s' : String} (h : t.signature = .ok s)
    (h' : u.signature = .ok s') (hr : t.Regular) (hr' : u.Regular)
    (heq : tokens s.toList = tokens s'.toList) : t.plain = u.plain := by
  obtain ⟨ts, hts, hspells⟩ := t.tokens_signature h hr
  obtain ⟨us, hus, hspells'⟩ := u.tokens_signature h' hr'
  rw [heq, hus] at hts
  cases hts
  exact hspells.unique hspells'

/-- Two ways to write a map of arrays of channels of channels to receive from. -/
theorem TypeExpr.signature_unambiguous_nested :
    let elem := TypeExpr.chan .receive (.struct none)
    let other := TypeExpr.chan .receive (.struct (some []))
    let t := TypeExpr.map (.named "string") (.array (some "2*n[0]") (.chan .both elem))
    let u := TypeExpr.map (.named "string") (.array (some "2 * n[0]") (.chan .both (.paren other)))
    t.signature = .ok "map[string][2*n[0]]chan (<-chan struct\x7b\x7d)" ∧
      u.signature = .ok "map[string][2 * n[0]]chan (<-chan struct\x7b\x7d)" ∧ t.plain = u.plain := by
  intro elem other t u
  have hstring : IsTypeName "string" := ⟨rfl, by decide⟩
  have hlength : ∀ text ∈ ["2*n[0]", "2 * n[0]"], IsLength text := by
    have htokens : ∀ text ∈ ["2*n[0]", "2 * n[0]"],
        tokens text.toList = some [['2'], ['*'], ['n'], ['['], ['0'], [']']] := by
      decide
    exact fun text hmem => ⟨_, htokens text hmem, by decide, rfl⟩
  have ht : t.signature = .ok "map[string][2*n[0]]chan (<-chan struct\x7b\x7d)" := by rfl
  have hu : u.signature = .ok "map[string][2 * n[0]]chan (<-chan struct\x7b\x7d)" := by rfl
  refine ⟨ht, hu, TypeExpr.signature_unambiguous ht hu ?_ ?_ (by decide)⟩
  · exact ⟨hstring, hlength _ (by decide), trivial⟩
  · exact ⟨hstring, hlength _ (by decide), trivial⟩

end FluentBuilder.Go

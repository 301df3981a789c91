import FluentBuilder.Proofs.FunctionReading

/-!
# Reading signatures — the signature of a type is read as a type with this signature

Not every type that has a signature is read back from it. `TypeExpr.Legible` asks that names are
words that begin no type, that a length is an expression without quotes, braces and square brackets,
and that no word or mark of a signature is taken for a part of something else:

* `chan<- chan T` is a channel of channels to receive from;
* `func(a, map[K]V)` has parameters `a` and `map` of the type `[K]V`, and `chan T` and `func(T)` are
  read like that behind `a` as well;
* `func() (T)` has a list of results.

What a signature begins with decides how it is read behind a name (`Opening`), so it is carried
along with the reading (`ReadsBack`).

* **`reads_signature`** — the signature of a legible type is read back.
-/

namespace FluentBuilder.Go

/-! ## Legible types -/

/-- A type whose signature begins with the word `chan`. -/
def TypeExpr.beginsChan : TypeExpr → Bool
  | .chan .both _ | .chan .send _ => true
  | _ => false

/-- A type whose signature goes on as a type does behind its first word. -/
def TypeExpr.goesOn : TypeExpr → Bool
  | .map _ _ | .chan .both _ | .func [⟨_, false⟩] [] => true
  | _ => false

/-- Parameters that are not read as names with a type behind them. -/
def Apart (params : List Param) : Prop :=
  params.IsChain fun param next =>
    (∃ name, param = ⟨.named name, false⟩) → next.variadic = false → next.type.goesOn = false

mutual

/-- A type that can be read back from its signature. -/
def TypeExpr.Legible : TypeExpr → Prop
  | .named name => IsTypeName name
  | .qualified package name => package.Legible ∧ IsWord name.toList
  | .array none elem => elem.Legible
  | .array (some length) elem => IsExpr .whole length.toList ∧ elem.Legible
  | .pointer elem => elem.Legible
  | .map key value => key.Legible ∧ value.Legible
  | .chan direction value => value.Legible ∧ (direction = .send → value.beginsChan = false)
  | .generic base args => base.isName = true ∧ base.Legible ∧ args ≠ [] ∧ legibleTypes args
  | .paren elem => elem.Legible
  | .func params results =>
    (legibleParams params ∧ Apart params) ∧ (legibleParams results ∧ Apart results) ∧
      ∀ t, results ≠ [⟨.paren t, false⟩]
  | .struct _ | .interface _ | .other _ => True

/-- Every type of a list is legible. -/
def legibleTypes : List TypeExpr → Prop
  | [] => True
  | t :: rest => t.Legible ∧ legibleTypes rest

/-- The type of every parameter is legible. -/
def legibleParams : List Param → Prop
  | [] => True
  | ⟨t, _⟩ :: rest => t.Legible ∧ legibleParams rest

end

/-! ## How signatures begin -/

/-- How the signature of a type begins: it is a name, or it begins with a word or with a mark. If
what stands behind the word goes on as a type does, the word is one of the grammar. -/
inductive Opening : TypeExpr → List Char → Prop
  | named {name : String} (h : IsTypeName name) : Opening (.named name) name.toList
  | wordThen {t : TypeExpr} {w : List Char} {c : Char} {s : List Char} (hw : IsWord w)
      (hc : Text.isIdentPart c = false) (hchan : w = "chan".toList → t.beginsChan = true)
      (hmore : (t.goesOn = true ∧ w ∈ Grammar.typeKeywords.map String.toList) ∨ NoType (c :: s)) :
      Opening t (w ++ c :: s)
  | mark {t : TypeExpr} {c : Char} {s : List Char} (hc : c ∈ typeMarks)
      (harrow : c = '<' → ∃ value, t = .chan .receive value)
      (hbracket : c = '(' → ∃ elem, t = .paren elem) : Opening t (c :: s)

/-- No word begins with a mark. -/
theorem word_mark {c : Char} (hc : c ∈ typeMarks) (s : List Char) : word (c :: s) = none := by
  have hstart : ∀ c ∈ typeMarks, Text.isIdentStart c = false := by decide
  simp only [word, hstart c hc, Bool.false_eq_true, if_false]

namespace Opening

variable {t : TypeExpr} {s : List Char}

/-- A name that more follows. -/
theorem ofName {name : String} {c : Char} (h : IsTypeName name) (hc : Text.isIdentPart c = false)
    (hmore : NoType (c :: s)) : Opening t (name.toList ++ c :: s) :=
  .wordThen h.1 hc (fun hchan => absurd (hchan ▸ by decide) h.notMem) (.inr hmore)

/-- A word of the grammar. -/
theorem ofKeyword {w : String} {c : Char} (hw : w ∈ Grammar.typeKeywords)
    (hc : Text.isIdentPart c = false) (hchan : w = "chan" → t.beginsChan = true)
    (hmore : t.goesOn = true ∨ NoType (c :: s)) : Opening t (w.toList ++ c :: s) := by
  have hword : ∀ w ∈ Grammar.typeKeywords, IsWord w.toList := by decide
  exact .wordThen (hword w hw) hc (fun heq => hchan (String.toList_inj.mp heq))
    (hmore.imp_left fun hgoesOn => ⟨hgoesOn, List.mem_map_of_mem hw⟩)

/-- The first word of a signature is all of a name, or more follows. -/
theorem firstWord (h : Opening t s) {w more : List Char} (hword : word s = some (w, more)) :
    (∃ name, t = .named name ∧ w = name.toList ∧ IsTypeName name ∧ more = []) ∨
      (more ≠ [] ∧ (w = "chan".toList → t.beginsChan = true) ∧
        ((t.goesOn = true ∧ w ∈ Grammar.typeKeywords.map String.toList) ∨ NoType more)) := by
  cases h with
  | @named name h =>
      have heq := word_append h.1 stopsWord_nil
      rw [List.append_nil, hword] at heq
      cases heq
      exact .inl ⟨name, rfl, rfl, h, rfl⟩
  | wordThen hw hc hchan hmore =>
      rw [word_append hw (stopsWord_cons hc _)] at hword
      cases hword
      exact .inr ⟨List.cons_ne_nil _ _, hchan, hmore⟩
  | mark hc =>
      rw [word_mark hc] at hword
      cases hword

/-- A signature that begins with a mark is that of a channel to receive from if the mark is an
arrow, and in brackets if it is a bracket. -/
theorem firstMark (h : Opening t s) {c : Char} {cs : List Char} (hs : s = c :: cs)
    (hc : c ∈ typeMarks) : (c = '<' → ∃ value, t = .chan .receive value) ∧
      (c = '(' → ∃ elem, t = .paren elem) := by
  have hnone : word s = none := hs ▸ word_mark hc cs
  cases h with
  | named h =>
      have hsome := word_append h.1 stopsWord_nil
      rw [List.append_nil, hnone] at hsome
      cases hsome
  | wordThen hw hplain =>
      rw [word_append hw (stopsWord_cons hplain _)] at hnone
      cases hnone
  | mark _ harrow hbracket =>
      cases hs
      exact ⟨harrow, hbracket⟩

/-- Only the signature of a name is a word. -/
theorem named_of_isWord (h : Opening t s) (hs : IsWord s) : ∃ name, t = .named name := by
  have hword := word_append hs stopsWord_nil
  rw [List.append_nil] at hword
  rcases h.firstWord hword with ⟨name, hname, -⟩ | ⟨hne, -⟩
  · exact ⟨name, hname⟩
  · exact absurd rfl hne

theorem endsAtWord (h : Opening t s) (hgoesOn : t.goesOn = false) : EndsAtWord s := by
  intro w more hword
  rcases h.firstWord hword with ⟨-, -, -, -, hnil⟩ | ⟨-, -, ⟨hmore, -⟩ | hnone⟩
  · exact .inl hnil
  · rw [hgoesOn] at hmore
    cases hmore
  · exact .inr hnone

/-- Only a channel type begins with the word `chan`. -/
theorem word_ne_chan (h : Opening t s) (hchan : t.beginsChan = false) (more : List Char) :
    word s ≠ some (['c', 'h', 'a', 'n'], more) := by
  intro hword
  rcases h.firstWord hword with ⟨name, -, heq, hname, -⟩ | ⟨-, hbegins, -⟩
  · exact hname.notMem (heq ▸ by decide)
  · rw [hbegins rfl] at hchan
    cases hchan

/-- A signature is the text of a parameter. -/
theorem readsAsParam (h : Opening t s) (htype : ReadsAsType s) : ReadsAsParam s := by
  cases h with
  | named h => exact .name h
  | wordThen hw hc _ hmore =>
      refine .type htype fun w more hword => ?_
      rw [word_append hw (stopsWord_cons hc _)] at hword
      cases hword
      exact hmore.imp_left And.right
  | mark hc =>
      refine .type htype fun w more hword => ?_
      rw [word_mark hc] at hword
      cases hword

end Opening

/-- A text is read as a type, and it begins as the signature of a type does. -/
structure ReadsBack (t : TypeExpr) (s : List Char) : Prop where
  type    : ReadsAsType s
  opening : Opening t s

/-! ## Parameters -/

/-- The text of a parameter and of its type. -/
theorem paramSignatures_cons {t : TypeExpr} {variadic : Bool} {params : List Param}
    {items : List (Bool × List Char)} (h : paramSignatures (⟨t, variadic⟩ :: params) = .ok items) :
    ∃ s others, signatureChars t = .ok s ∧ paramSignatures params = .ok others ∧
      items = (variadic, if variadic then '.' :: '.' :: '.' :: s else s) :: others := by
  obtain ⟨s, hs, h⟩ := ok_of_bind h
  obtain ⟨others, hothers, ⟨⟩⟩ := ok_of_bind h
  exact ⟨s, others, hs, hothers, rfl⟩

/-- The texts of parameters whose types are read back. -/
def ReadsBackParams : List Param → List (Bool × List Char) → Prop :=
  List.Forall₂ fun param item => ∃ s, ReadsBack param.type s ∧
    item = (param.variadic, if param.variadic then '.' :: '.' :: '.' :: s else s)

namespace ReadsBackParams

variable {params : List Param} {items : List (Bool × List Char)}

/-- They are texts of parameters, -/
theorem readsAsParam (h : ReadsBackParams params items) :
    ∀ item ∈ items, ReadsAsParam item.2 ∧ paramItem item.2 = item := by
  induction h with
  | nil => exact List.forall_mem_nil _
  | @cons param item params items hparam _ ih =>
      obtain ⟨t, variadic⟩ := param
      obtain ⟨s, hs, rfl⟩ := hparam
      refine List.forall_mem_cons.mpr ⟨?_, ih⟩
      cases variadic with
      | true => exact ⟨.variadic hs.type, rfl⟩
      | false =>
          obtain ⟨c, cs, heq, -, -, -, hdot⟩ := hs.type.front_plain
          exact ⟨hs.opening.readsAsParam hs.type, by simp [paramItem, heq, hdot]⟩

/-- and not read as names if the parameters are apart. -/
theorem unnamed (h : ReadsBackParams params items) (hapart : Apart params) :
    Unnamed (items.map (·.2)) := by
  induction h with
  | nil => exact .nil
  | @cons param item params items hparam hparams ih =>
      have hrest := ih hapart.tail
      cases hparams with
      | nil => exact .singleton _
      | @cons next nextItem params items hnext _ =>
          obtain ⟨t, variadic⟩ := param
          obtain ⟨u, nextVariadic⟩ := next
          obtain ⟨s, hs, rfl⟩ := hparam
          obtain ⟨r, hr, rfl⟩ := hnext
          refine List.isChain_cons_cons.mpr ⟨fun hword => ?_, hrest⟩
          -- a word is the text of a name, and a variadic parameter begins with no word
          cases variadic with
          | true => cases hword
          | false =>
              obtain ⟨name, hname⟩ := hs.opening.named_of_isWord hword
              cases nextVariadic with
              | true => exact fun _ _ hnext => nomatch hnext
              | false =>
                  exact hr.opening.endsAtWord
                    ((List.isChain_cons_cons.mp hapart).1 ⟨name, congrArg (Param.mk · false) hname⟩
                      rfl)

/-- A result alone that is not in brackets has no text in brackets. -/
theorem unbracketed (h : ReadsBackParams params items)
    (hbrackets : ∀ t, params ≠ [⟨.paren t, false⟩]) : Unbracketed (items.map (·.2)) := by
  intro text htext hbracket
  cases h with
  | nil => cases htext
  | @cons param item params items hparam hparams =>
      obtain ⟨t, variadic⟩ := param
      obtain ⟨s, hs, rfl⟩ := hparam
      obtain ⟨rfl, hnil⟩ := List.cons.inj htext
      obtain rfl := List.map_eq_nil_iff.mp hnil
      cases hparams
      cases variadic with
      | true => cases hbracket
      | false =>
          obtain ⟨cs, heq⟩ := List.head?_eq_some_iff.mp hbracket
          obtain ⟨elem, rfl⟩ := (hs.opening.firstMark heq (by decide)).2 rfl
          exact hbrackets elem rfl

/-- Behind the word `func`, only one parameter without a result goes on as a type does. -/
theorem noType {results : List Param} {more : List (Bool × List Char)}
    (h : ReadsBackParams params items) (hresults : ReadsBackParams results more)
    (hgoesOn : (TypeExpr.func params results).goesOn = false) :
    ∀ text, items.map (·.2) = [text] → text.head? ≠ some '.' → more.map (·.2) ≠ [] := by
  intro text htext hdot hmore
  obtain rfl := List.map_eq_nil_iff.mp hmore
  cases hresults
  cases h with
  | nil => cases htext
  | @cons param item params items hparam hparams =>
      obtain ⟨t, variadic⟩ := param
      obtain ⟨s, -, rfl⟩ := hparam
      obtain ⟨rfl, hnil⟩ := List.cons.inj htext
      obtain rfl := List.map_eq_nil_iff.mp hnil
      cases hparams
      cases variadic with
      | true => exact hdot rfl
      | false => cases hgoesOn

end ReadsBackParams

/-! ## Signatures -/

namespace ReadsBack

variable {t : TypeExpr} {s n : List Char}

/-- A name of a type. -/
theorem name (hname : t.isName = true) (h : signatureChars t = .ok s) (hlegible : t.Legible) :
    ReadsBack t s ∧ IsTypeText s := by
  match t, hname with
  | .named name, _ =>
      cases h
      exact ⟨⟨.name (.plain hlegible), .named hlegible⟩, .plain hlegible⟩
  | .qualified (.named package) name, _ =>
      cases h
      have htext : IsTypeText _ := .qualified hlegible.1 hlegible.2
      refine ⟨⟨.name htext, .ofName hlegible.1 (by decide) ?_⟩, htext⟩
      have hmore := NoType.selector hlegible.2 []
      rwa [List.append_nil] at hmore

/-- A name with types in brackets. -/
theorem generic (h : IsTypeText n) {first : List Char} {others : List (List Char)}
    (hargs : ∀ arg ∈ first :: others, ReadsAsType arg) :
    ReadsBack t (n ++ '[' :: (commaSeparated (first :: others) ++ [']'])) := by
  refine ⟨.generic h hargs, ?_⟩
  cases h with
  | plain h =>
      exact .ofName h (by decide) (.brackets
        (.commaSeparated fun arg harg => (hargs arg harg).paired)
        ((hargs first (.head _)).front.commaSeparated others))
  | qualified hpackage h =>
      rw [List.append_assoc, List.cons_append]
      exact .ofName hpackage (by decide) (.selector h _)

/-- A channel to send to and to receive from: only the text of a channel to receive from begins with
an arrow, and it is put in brackets. -/
theorem both (h : ReadsBack t s) : ReadsAsType ('c' :: 'h' :: 'a' :: 'n' :: ' ' ::
    (if needsBrackets .both t then '(' :: (s ++ [')']) else s)) := by
  cases hbrackets : needsBrackets .both t with
  | true => exact h.type.paren.both nofun
  | false =>
      refine h.type.both fun harrow => ?_
      obtain ⟨cs, rfl⟩ : ∃ cs, s = '<' :: cs := List.head?_eq_some_iff.mp harrow
      obtain ⟨elem, rfl⟩ := (h.opening.firstMark rfl (by decide)).1 rfl
      cases hbrackets

/-- A function type. -/
theorem func {params results : List Param} {ps rs : List (Bool × List Char)}
    (hparams : ReadsBackParams params ps) (hresults : ReadsBackParams results rs)
    (hapart : Apart params) (hapart' : Apart results)
    (hbrackets : ∀ t, results ≠ [⟨.paren t, false⟩]) :
    ReadsBack (.func params results) ('f' :: 'u' :: 'n' :: 'c' :: '(' ::
      (commaSeparated (ps.map (·.2)) ++ ')' :: resultText rs)) := by
  have hreadParams := List.forall_mem_map.mpr fun item hitem =>
    (hparams.readsAsParam item hitem).1
  have hreadResults := List.forall_mem_map.mpr fun item hitem =>
    (hresults.readsAsParam item hitem).1
  have hresult : resultsText (rs.map (·.2)) = resultText rs := by
    rw [resultsText, List.map_map]
    exact congrArg resultText ((List.map_congr_left fun item hitem =>
      (hresults.readsAsParam item hitem).2).trans (List.map_id rs))
  rw [← hresult]
  refine ⟨.func hreadParams (hparams.unnamed hapart) hreadResults (hresults.unnamed hapart')
    (hresults.unbracketed hbrackets), ?_⟩
  refine .ofKeyword (w := "func") (by decide) (by decide) (fun hchan => absurd hchan (by decide)) ?_
  cases hgoesOn : (TypeExpr.func params results).goesOn with
  | true => exact .inl rfl
  | false => exact .inr (.params hreadParams hreadResults (hparams.noType hresults hgoesOn))

end ReadsBack

mutual

/-- **The signature of a legible type is read as a type with this signature.** -/
theorem reads_signature : ∀ (t : TypeExpr) {s : List Char}, signatureChars t = .ok s → t.Legible →
    ReadsBack t s
  | .named name, s, h, hlegible => (ReadsBack.name rfl h hlegible).1
  | .qualified package name, s, h, hlegible => by
      cases package with
      | named package => exact (ReadsBack.name rfl h hlegible).1
      | _ => cases h
  | .array none elem, s, h, hlegible => by
      obtain ⟨e, he, ⟨⟩⟩ := ok_of_bind h
      exact ⟨(reads_signature elem he hlegible).type.slice, .mark (by decide) nofun nofun⟩
  | .array (some length) elem, s, h, hlegible => by
      obtain ⟨e, he, ⟨⟩⟩ := ok_of_bind h
      exact ⟨.array hlegible.1 (reads_signature elem he hlegible.2).type,
        .mark (by decide) nofun nofun⟩
  | .pointer elem, s, h, hlegible => by
      obtain ⟨e, he, ⟨⟩⟩ := ok_of_bind h
      exact ⟨(reads_signature elem he hlegible).type.pointer, .mark (by decide) nofun nofun⟩
  | .map key value, s, h, hlegible => by
      obtain ⟨k, hk, h⟩ := ok_of_bind h
      obtain ⟨v, hv, ⟨⟩⟩ := ok_of_bind h
      have hkey := reads_signature key hk hlegible.1
      have hvalue := reads_signature value hv hlegible.2
      exact ⟨hkey.type.map hvalue.type,
        .ofKeyword (w := "map") (by decide) (by decide) nofun (.inl rfl)⟩
  | .chan .receive value, s, h, hlegible => by
      obtain ⟨v, hv, ⟨⟩⟩ := ok_of_bind h
      exact ⟨(reads_signature value hv hlegible.1).type.receive,
        .mark (by decide) (fun _ => ⟨value, rfl⟩) nofun⟩
  | .chan .send value, s, h, hlegible => by
      obtain ⟨v, hv, ⟨⟩⟩ := ok_of_bind h
      have hread := reads_signature value hv hlegible.1
      have hchan := hread.opening.word_ne_chan (hlegible.2 rfl)
      exact ⟨hread.type.send hchan, .ofKeyword (w := "chan") (by decide) (by decide) (fun _ => rfl)
        (.inr (.arrow hread.type hchan))⟩
  | .chan .both value, s, h, hlegible => by
      obtain ⟨v, hv, ⟨⟩⟩ := ok_of_bind h
      exact ⟨(reads_signature value hv hlegible.1).both,
        .ofKeyword (w := "chan") (by decide) (by decide) (fun _ => rfl) (.inl rfl)⟩
  | .generic base [], s, _, hlegible => absurd rfl hlegible.2.2.1
  | .generic base (first :: others), s, h, hlegible => by
      obtain ⟨b, hb, h⟩ := ok_of_bind h
      obtain ⟨texts, htexts, ⟨⟩⟩ := ok_of_bind h
      have hargs := reads_signatures (first :: others) htexts hlegible.2.2.2
      obtain ⟨text, -, htexts⟩ := ok_of_bind htexts
      obtain ⟨more, -, ⟨⟩⟩ := ok_of_bind htexts
      rw [List.append_assoc, List.cons_append]
      exact .generic (ReadsBack.name hlegible.1 hb hlegible.2.1).2 hargs
  | .paren elem, s, h, hlegible => by
      obtain ⟨e, he, ⟨⟩⟩ := ok_of_bind h
      exact ⟨(reads_signature elem he hlegible).type.paren,
        .mark (by decide) nofun (fun _ => ⟨elem, rfl⟩)⟩
  | .func params results, s, h, hlegible => by
      obtain ⟨ps, hps, h⟩ := ok_of_bind h
      obtain ⟨rs, hrs, ⟨⟩⟩ := ok_of_bind h
      obtain ⟨⟨hparams, hapart⟩, ⟨hresults, hapart'⟩, hbrackets⟩ := hlegible
      exact .func (reads_paramSignatures params hps hparams)
        (reads_paramSignatures results hrs hresults) hapart hapart' hbrackets
  | .struct none, s, h, _ => by
      cases h
      exact ⟨.struct, .ofKeyword (w := "struct") (by decide) (by decide) nofun (.inr (.brace _))⟩
  | .struct (some []), s, h, _ => by
      cases h
      exact ⟨.struct, .ofKeyword (w := "struct") (by decide) (by decide) nofun (.inr (.brace _))⟩
  | .struct (some (field :: fields)), s, h, _ => by cases h
  | .interface 0, s, h, _ => by
      cases h
      exact ⟨.interface,
        .ofKeyword (w := "interface") (by decide) (by decide) nofun (.inr (.brace _))⟩
  | .interface (n + 1), s, h, _ => by cases h
  | .other kind, s, h, _ => by cases h

/-- So are the signatures of types, -/
theorem reads_signatures : ∀ (types : List TypeExpr) {texts : List (List Char)},
    signaturesOf types = .ok texts → legibleTypes types → ∀ text ∈ texts, ReadsAsType text
  | [], texts, h, _ => by
      cases h
      exact List.forall_mem_nil _
  | t :: rest, texts, h, hlegible => by
      obtain ⟨s, hs, h⟩ := ok_of_bind h
      obtain ⟨others, hothers, ⟨⟩⟩ := ok_of_bind h
      exact List.forall_mem_cons.mpr
        ⟨(reads_signature t hs hlegible.1).type, reads_signatures rest hothers hlegible.2⟩

/-- and those of the types of parameters. -/
theorem reads_paramSignatures : ∀ (params : List Param) {items : List (Bool × List Char)},
    paramSignatures params = .ok items → legibleParams params → ReadsBackParams params items
  | [], items, h, _ => by
      cases h
      exact .nil
  | ⟨t, variadic⟩ :: rest, items, h, hlegible => by
      obtain ⟨s, others, hs, hothers, rfl⟩ := paramSignatures_cons h
      exact .cons ⟨s, reads_signature t hs hlegible.1, rfl⟩
        (reads_paramSignatures rest hothers hlegible.2)

end

end FluentBuilder.Go

import FluentBuilder.Proofs.Reserved
import FluentBuilder.Proofs.Sites
import FluentBuilder.Proofs.Spacing
import FluentBuilder.Signature

/-!
# Lengths — what the length of an array type means in its signature

The length of an array type is kept as text, with its white space squeezed. Its tokens are those of
the source unless white space mattered there: inside of a literal, at the end of a comment that
goes up to the end of its line, or as a line break that stands for a semicolon.

* **`goTokens_squeezed`** — the tokens of a squeezed text, in terms of the pieces of the text.
* **`goTokens_squeezed_eq_iff`** — when a squeezed text has the tokens of the text.
* **`arrayLength_tokens`** — the tokens of a length, in the type of a tree and in its signature.
-/

namespace FluentBuilder.Go

open Text (isBlank)

/-! ## Pieces of squeezed texts -/

/-- Decide whether a piece is a comment up to the end of its line. -/
def Piece.isLineComment : Piece → Bool
  | .gap ('/' :: '/' :: _) => true
  | _ => false

/-- What the first piece of a text is: a comment of either kind, white space or a token. -/
theorem nextPiece_cases {s left : List Char} {found : Option Token}
    (h : nextPiece s = some (found, left)) :
    (∃ rest, s = '/' :: '/' :: rest ∧ (Piece.first s found left).isLineComment = true) ∨
      (∃ rest comment, s = '/' :: '*' :: rest ∧ blockComment rest = some (comment, left) ∧
        found = none) ∨
      (∃ c, s = c :: left ∧ isSpace c = true ∧ found = none) ∨
      ∃ token, found = some token ∧ nextToken s = some (token, left) ∧
        ∀ rest, s ≠ '/' :: '/' :: rest ∧ s ≠ '/' :: '*' :: rest := by
  unfold nextPiece at h
  split at h
  case h_1 => cases h
  case h_2 rest =>
    split at h
    case h_1 => cases h
    case h_2 c left' hdrop =>
      cases h
      refine .inl ⟨rest, rfl, ?_⟩
      have hlength := List.length_dropWhile_le (· != '\n') rest
      rw [hdrop, List.length_cons] at hlength
      have htake : ('/' :: '/' :: rest).length - left.length = rest.length - left.length + 2 := by
        rw [List.length_cons, List.length_cons]
        omega
      rw [Piece.first, htake]
      rfl
  case h_3 rest =>
    obtain ⟨comment, hcomment, heq⟩ := Option.map_eq_some_iff.mp h
    cases heq
    exact .inr (.inl ⟨rest, comment.1, rfl, hcomment, rfl⟩)
  case h_4 c rest hline hblock =>
    split at h
    case isTrue hspace =>
      cases h
      exact .inr (.inr (.inl ⟨c, rfl, hspace, rfl⟩))
    case isFalse =>
      obtain ⟨token, htoken, heq⟩ := Option.map_eq_some_iff.mp h
      cases heq
      refine .inr (.inr (.inr ⟨token.1, rfl, htoken, fun rest' => ⟨?_, ?_⟩⟩))
      · rintro heq
        obtain ⟨rfl, rfl⟩ := List.cons.inj heq
        exact hline rest' rfl rfl
      · rintro heq
        obtain ⟨rfl, rfl⟩ := List.cons.inj heq
        exact hblock rest' rfl rfl

/-- A piece is a comment up to the end of its line only if the text begins with two slashes. -/
theorem isLineComment_first {s left : List Char} {found : Option Token}
    (h : nextPiece s = some (found, left)) (hslash : ∀ rest, s ≠ '/' :: '/' :: rest) :
    (Piece.first s found left).isLineComment = false := by
  by_contra hcomment
  have hs := (nextPiece_takes h).1
  revert hcomment hs
  generalize Piece.first s found left = piece
  rw [Bool.not_eq_false]
  intro hcomment hs
  unfold Piece.isLineComment at hcomment
  split at hcomment
  case h_1 text => exact hslash _ hs.symm
  case h_2 => cases hcomment

theorem isBlank_of_isSpace {c : Char} (h : isSpace c = true) : isBlank c = true := by
  simp only [isSpace, Bool.or_eq_true, beq_iff_eq] at h
  rcases h with ((((rfl | rfl) | rfl) | rfl) | rfl) | rfl <;> decide

theorem tokens_eq_none {s : List Char} (hne : s ≠ []) (h : nextPiece s = none) :
    tokens s = none := by
  rw [tokens_eq_pieces, pieces_eq_none hne h, Option.map_none]

/-- The tokens that are found in a squeezed text, given the pieces of the text. -/
def squeezedTokens (ps : List Piece) : Option (List Token) :=
  if ps.any Piece.isLineComment then none else some ((ps.filterMap Piece.token?).map squeezed)

theorem squeezedTokens_cons {p : Piece} (hp : p.isLineComment = false) (ps : List Piece) :
    squeezedTokens (p :: ps) =
      (squeezedTokens ps).map ((p.token?.map squeezed).toList ++ ·) := by
  rw [squeezedTokens, squeezedTokens, List.any_cons, hp, Bool.false_or]
  split
  · rfl
  · cases p <;> rfl

/-- The first piece of a squeezed text that begins with a token. -/
theorem nextPiece_squeezed {s token left : List Char} (h : nextToken s = some (token, left))
    (hcomment : ∀ rest, s ≠ '/' :: '/' :: rest ∧ s ≠ '/' :: '*' :: rest) :
    nextPiece (squeezedTail s) = some (some (squeezed token), squeezedTail left) := by
  cases s with
  | nil => cases h
  | cons c s =>
      have hc := isBlank_of_nextToken h
      have hfound := nextToken_squeezed h
      have hspace : isSpace c = false := by
        by_contra hspace
        rw [isBlank_of_isSpace (by simpa using hspace)] at hc
        cases hc
      -- What stands behind the first character stood there before, too.
      have hsecond : ∀ d rest, isBlank d = false → squeezedTail s = d :: rest →
          ∃ rest', s = d :: rest' := by
        intro d rest hd heq
        rcases halts_squeezedTail.cases s with ⟨e, rest', -, rfl, hcons⟩ | ⟨-, hstop⟩
        · rw [hcons] at heq
          exact ⟨rest', by rw [(List.cons.inj heq).1]⟩
        · rw [heq] at hstop
          rw [hstop d rfl] at hd
          cases hd
      rw [squeezedTail_char hc] at hfound ⊢
      rw [nextPiece, if_neg (by simp [hspace]), hfound, Option.map_some]
      · rintro rest rfl heq
        obtain ⟨rest', rfl⟩ := hsecond _ _ (by decide) heq
        exact (hcomment rest').1 rfl
      · rintro rest rfl heq
        obtain ⟨rest', rfl⟩ := hsecond _ _ (by decide) heq
        exact (hcomment rest').2 rfl

/-- The tokens of a squeezed text, both from inside of a word and from the front. -/
theorem tokens_squeezed {s : List Char} {ps : List Piece} (h : pieces s = some ps) :
    tokens (squeezedTail s) = squeezedTokens ps ∧ tokens (squeezed s) = squeezedTokens ps := by
  -- Induction on the pieces. A piece other than white space begins with a character of a word, and
  -- what follows it is squeezed from there; white space may be left out, so both are needed.
  induction h using pieces_induction with
  | nil => exact ⟨rfl, rfl⟩
  | @cons s left found ps hpiece _ ih =>
      rcases nextPiece_cases hpiece with ⟨rest, rfl, hline⟩ | ⟨rest, comment, rfl, hblock, rfl⟩ |
        ⟨c, rfl, hspace, rfl⟩ | ⟨token, rfl, htoken, hcomment⟩
      case inl =>
        have hnone : nextPiece ('/' :: '/' :: squeezedTail rest) = none := by
          have hdrop : (squeezedTail rest).dropWhile (· != '\n') = [] := by
            rw [List.dropWhile_eq_nil_iff]
            rintro c hc
            refine bne_iff_ne.mpr ?_
            rintro rfl
            exact (newline_notMem_squeezed rest).1 hc
          rw [nextPiece, hdrop]
        rw [squeezed_char (by decide), squeezedTail_char (by decide), squeezedTail_char (by decide),
          tokens_eq_none (List.cons_ne_nil _ _) hnone, squeezedTokens, List.any_cons, hline, Bool.true_or]
        exact ⟨rfl, rfl⟩
      case inr.inl =>
        have hp := isLineComment_first hpiece (fun rest heq => absurd heq (by simp))
        obtain ⟨t, ht⟩ := (blockComment_squeezed hblock).1
        have hnext : nextPiece ('/' :: '*' :: squeezedTail rest) =
            some (none, squeezedTail left) := by
          rw [nextPiece, ht, Option.map_some]
        rw [squeezed_char (by decide), squeezedTail_char (by decide), squeezedTail_char (by decide),
          tokens_of_nextPiece hnext, squeezedTokens_cons hp, ih.1]
        exact ⟨rfl, rfl⟩
      case inr.inr.inl =>
        have hp := isLineComment_first hpiece (by
          rintro rest heq
          obtain ⟨rfl, -⟩ := List.cons.inj heq
          exact absurd hspace (by decide))
        have hblank := isBlank_of_isSpace hspace
        have htokens : squeezedTokens (Piece.first (c :: left) none left :: ps) =
            squeezedTokens ps := by
          rw [squeezedTokens_cons hp]
          exact Option.map_id'
        rw [htokens, squeezed_blank hblank, squeezedTail, if_pos hblank]
        refine ⟨?_, ih.2⟩
        split
        case isTrue hwords =>
          rw [← ih.2, squeezed, List.isEmpty_iff.mp hwords]
          rfl
        case isFalse =>
          have hnext : nextPiece (' ' :: squeezed left) = some (none, squeezed left) := rfl
          rw [tokens_of_nextPiece hnext, ih.2]
          exact Option.map_id'
      case inr.inr.inr =>
        have hp := isLineComment_first hpiece (fun rest => (hcomment rest).1)
        have hnext := nextPiece_squeezed htoken hcomment
        have hsame : squeezed s = squeezedTail s := by
          cases s with
          | nil => rfl
          | cons c s =>
              have hc := isBlank_of_nextToken htoken
              rw [squeezed_char hc, squeezedTail_char hc]
        rw [hsame, tokens_of_nextPiece hnext, squeezedTokens_cons hp, ih.1]
        exact ⟨rfl, rfl⟩

/-! ## Semicolons -/

/-- The marks and keywords that a statement may end with. -/
def statementEnds : List Token :=
  ["break", "continue", "fallthrough", "return", "++", "--", ")", "]", "\x7d"].map String.toList

/-- Decide whether a line break behind a token stands for a semicolon: behind a name, a literal and
some marks and keywords it does. -/
def Token.endsStatement (token : Token) : Bool :=
  statementEnds.contains token || !(operators ++ keywords.map String.toList).contains token

/-- The tokens among pieces with a semicolon for each line break that stands for one. `ends` says
whether the last token may end a statement. -/
def withSemicolons (ends : Bool) : List Piece → List Token
  | [] => []
  | .token token :: rest => token :: withSemicolons (Token.endsStatement token) rest
  | .gap text :: rest =>
    if ends && text.contains '\n' then [';'] :: withSemicolons false rest
    else withSemicolons ends rest

/-- The tokens of a text with the semicolons that line breaks stand for. -/
def goTokens (s : List Char) : Option (List Token) := (pieces s).map (withSemicolons false)

/-- Semicolons are put between the tokens. -/
theorem tokens_sublist_withSemicolons (ends : Bool) (ps : List Piece) :
    (ps.filterMap Piece.token?).Sublist (withSemicolons ends ps) := by
  induction ps generalizing ends with
  | nil => exact .slnil
  | cons p ps ih =>
      cases p with
      | token token => exact (ih _).cons_cons token
      | gap text =>
          rw [withSemicolons]
          split
          · exact (ih false).cons [';']
          · exact ih ends

/-- Without line breaks between them, tokens are all that there is. -/
theorem withSemicolons_eq_tokens (ends : Bool) {ps : List Piece}
    (h : ∀ text, Piece.gap text ∈ ps → '\n' ∉ text) :
    withSemicolons ends ps = ps.filterMap Piece.token? := by
  induction ps generalizing ends with
  | nil => rfl
  | cons p ps ih =>
      have hrest : ∀ text, Piece.gap text ∈ ps → '\n' ∉ text :=
        fun text htext => h text (.tail _ htext)
      cases p with
      | token token => exact congrArg (token :: ·) (ih _ hrest)
      | gap text =>
          have hbreak : text.contains '\n' = false := by simpa using h text (.head _)
          rw [withSemicolons, hbreak, Bool.and_false, if_neg Bool.false_ne_true]
          exact ih ends hrest

theorem goTokens_eq_tokens {s : List Char} (h : '\n' ∉ s) : goTokens s = tokens s := by
  rw [goTokens, tokens_eq_pieces]
  cases hps : pieces s with
  | none => rfl
  | some ps =>
      rw [Option.map_some, Option.map_some, withSemicolons_eq_tokens]
      intro text hgap hbreak
      refine h ?_
      rw [← pieces_text hps]
      exact List.mem_flatMap.mpr ⟨.gap text, hgap, hbreak⟩

/-- **The tokens of a squeezed text** are those of the text, each of them squeezed, and a text with a
comment up to the end of a line has none. -/
theorem goTokens_squeezed {s : List Char} {ps : List Piece} (h : pieces s = some ps) :
    goTokens (squeezed s) = squeezedTokens ps :=
  (goTokens_eq_tokens (newline_notMem_squeezed s).2).trans (tokens_squeezed h).2

/-- White space may be squeezed among pieces: no comment goes up to the end of a line, no literal
holds white space but single blanks, and no line break stands for a semicolon. -/
structure Squeezable (ps : List Piece) : Prop where
  comments : ∀ p ∈ ps, p.isLineComment = false
  literals : ∀ token ∈ ps.filterMap Piece.token?, squeezed token = token
  semicolons : withSemicolons false ps = ps.filterMap Piece.token?

instance (ps : List Piece) : Decidable (Squeezable ps) :=
  decidable_of_iff
    ((∀ p ∈ ps, p.isLineComment = false) ∧ (∀ token ∈ ps.filterMap Piece.token?,
      squeezed token = token) ∧ withSemicolons false ps = ps.filterMap Piece.token?)
    ⟨fun ⟨hcomments, hliterals, hsemicolons⟩ => ⟨hcomments, hliterals, hsemicolons⟩,
      fun h => ⟨h.comments, h.literals, h.semicolons⟩⟩

/-- **A squeezed text has the tokens of the text** if and only if its white space may be squeezed. -/
theorem goTokens_squeezed_eq_iff {s : List Char} {ps : List Piece} (h : pieces s = some ps) :
    goTokens (squeezed s) = goTokens s ↔ Squeezable ps := by
  have hgo : goTokens s = some (withSemicolons false ps) := by rw [goTokens, h, Option.map_some]
  rw [goTokens_squeezed h, hgo, squeezedTokens]
  constructor
  · intro heq
    split at heq
    case isTrue => cases heq
    case isFalse hcomment =>
      have hmap := Option.some.inj heq
      -- As many tokens as there are leave no room for semicolons.
      have hsame := (tokens_sublist_withSemicolons false ps).eq_of_length
        (by rw [← hmap, List.length_map])
      rw [← hsame] at hmap
      refine ⟨fun p hp => ?_, fun token htoken => ?_, hsame.symm⟩
      · simpa using fun hline => hcomment (List.any_eq_true.mpr ⟨p, hp, hline⟩)
      · exact List.map_inj_left.mp (hmap.trans (List.map_id _).symm) token htoken
  · intro hps
    have hcomment : ps.any Piece.isLineComment = false := by simpa using hps.comments
    rw [hcomment, if_neg Bool.false_ne_true, hps.semicolons]
    exact congrArg some ((List.map_inj_left.mpr hps.literals).trans (List.map_id _))

/-! ## Array types -/

/-- The signature of an array type shows its length as it is kept. -/
theorem signature_array {length s : String} {elem : TypeExpr}
    (h : (TypeExpr.array (some length) elem).signature = .ok s) :
    ∃ e, elem.signature = .ok e ∧ s = "[" ++ length ++ "]" ++ e := by
  cases htext : signatureChars elem with
  | error e =>
      rw [TypeExpr.signature, signatureChars, htext] at h
      cases h
  | ok text =>
      rw [TypeExpr.signature, signatureChars, htext] at h
      cases h
      refine ⟨String.ofList text, by rw [TypeExpr.signature, htext]; rfl, String.toList_inj.mp ?_⟩
      simp

/-- A text with tokens between square brackets. -/
theorem tokens_brackets {s e : List Char} {ts us : List Token} (hs : tokens s = some ts)
    (he : tokens e = some us) :
    tokens (['['] ++ (s ++ ']' :: e)) = some (['['] :: (ts ++ [']'] :: us)) := by
  have hclose : tokens (']' :: e) = some ([']'] :: us) := tokens_mark (m := [']']) rfl he
  exact tokens_mark rfl (tokens_bracket hs hclose)

/-- **What the length of an array type means** in the type that its tree stands for and in the
signature of that type: its tokens are those of the source, each of them squeezed, and they are the
same if and only if the white space of the length may be squeezed. -/
theorem arrayLength_tokens {parts : List Part} {length : Part} {ps : List Piece}
    (hlength : parts.find? (·.role == some .length) = some length)
    (hps : pieces length.tree.chars = some ps) :
    (Tree.node .arrayType parts).toType =
        .array (some (lengthText length.tree)) (roleType .element parts) ∧
      goTokens (lengthText length.tree).toList = squeezedTokens ps ∧
      (goTokens (lengthText length.tree).toList = goTokens length.tree.chars ↔ Squeezable ps) ∧
      ∀ s, (Tree.node .arrayType parts).toType.signature = .ok s →
        ∃ e, (roleType .element parts).signature = .ok e ∧
          s = "[" ++ lengthText length.tree ++ "]" ++ e ∧
          ∀ ts us, squeezedTokens ps = some ts → tokens e.toList = some us →
            tokens s.toList = some (['['] :: (ts ++ [']'] :: us)) := by
  have htype : (Tree.node .arrayType parts).toType =
      .array (some (lengthText length.tree)) (roleType .element parts) := by
    rw [Tree.toType, hlength, Option.map_some]
  have htext : (lengthText length.tree).toList = squeezed length.tree.chars := String.toList_ofList
  refine ⟨htype, ?_, ?_, ?_⟩
  · rw [htext]
    exact goTokens_squeezed hps
  · rw [htext]
    exact goTokens_squeezed_eq_iff hps
  · intro s hs
    rw [htype] at hs
    obtain ⟨e, he, rfl⟩ := signature_array hs
    refine ⟨e, he, rfl, fun ts us hts hus => ?_⟩
    have hkept : tokens (lengthText length.tree).toList = some ts := by
      rw [htext, (tokens_squeezed hps).2, hts]
    have hbrackets := tokens_brackets hkept hus
    simpa using hbrackets

/-- The length of `[len("a  b")]int`. -/
theorem arrayLength_tokens_string :
    let length : Tree := .node .callExpression
      [⟨none, .leaf .identifier [] "len".toList⟩,
        ⟨none, .node .argumentList [⟨none, .token [] "(".toList⟩,
          ⟨none, .leaf .interpretedStringLiteral [] "\"a  b\"".toList⟩,
          ⟨none, .token [] ")".toList⟩]⟩]
    let parts : List Part := [⟨none, .token [] "[".toList⟩, ⟨some .length, length⟩,
      ⟨none, .token [] "]".toList⟩, ⟨some .element, .leaf .typeIdentifier [] "int".toList⟩]
    goTokens length.chars = some (["len", "(", "\"a  b\"", ")"].map String.toList) ∧
      (Tree.node .arrayType parts).toType = .array (some "len(\"a b\")") (.named "int") ∧
      goTokens "len(\"a b\")".toList = some (["len", "(", "\"a b\"", ")"].map String.toList) ∧
      (Tree.node .arrayType parts).toType.signature = .ok "[len(\"a b\")]int" := by
  intro length parts
  have hpieces : pieces length.chars =
      some (["len", "(", "\"a  b\"", ")"].map fun text => .token text.toList) := by
    decide +kernel
  have hlength : parts.find? (·.role == some .length) = some ⟨some .length, length⟩ := rfl
  obtain ⟨htype, hkept, -, -⟩ := arrayLength_tokens hlength hpieces
  have htext : lengthText length = "len(\"a b\")" := by decide +kernel
  rw [htext] at htype hkept
  refine ⟨by rw [goTokens, hpieces]; rfl, htype, hkept.trans (by decide +kernel), ?_⟩
  rw [htype]
  rfl

/-- The tree at the end of a path, given by the indices of the children on it. -/
def Tree.follow : Tree → List Nat → Option Tree
  | t, [] => some t
  | .node _ parts, i :: path =>
    match parts[i]? with
    | some ⟨_, child⟩ => child.follow path
    | none => none
  | _, _ :: _ => none

theorem Tree.at_of_follow {t u : Tree} {path : List Nat} (h : t.follow path = some u) :
    ∃ steps, t.At steps u := by
  induction path generalizing t with
  | nil => cases t <;> cases h <;> exact ⟨[], .here _⟩
  | cons i path ih =>
      cases t with
      | node kind parts =>
          rw [Tree.follow] at h
          split at h
          case h_1 role child hchild =>
            obtain ⟨steps, hsteps⟩ := ih h
            exact ⟨_, .step hchild hsteps⟩
          case h_2 => cases h
      | _ => cases h

/-- The parts of an array type and the length among them. -/
def Tree.arrayLength? : Tree → Option (List Part × Part)
  | .node .arrayType parts => (parts.find? (·.role == some .length)).map (parts, ·)
  | _ => none

theorem Tree.arrayLength?_eq_some {t : Tree} {parts : List Part} {length : Part}
    (h : t.arrayLength? = some (parts, length)) :
    t = .node .arrayType parts ∧ parts.find? (·.role == some .length) = some length := by
  unfold arrayLength? at h
  split at h
  case h_1 =>
    obtain ⟨length, hfind, heq⟩ := Option.map_eq_some_iff.mp h
    cases heq
    exact ⟨rfl, hfind⟩
  case h_2 => cases h

/-- **A length need not keep its tokens**: the white space in a string is squeezed as well. -/
theorem arrayLength_squeezes_string :
    ¬ ∀ (source : String) (t : Tree) (path : List Step) (parts : List Part) (length : Part),
      readTree source = some t → t.At path (.node .arrayType parts) →
        parts.find? (·.role == some .length) = some length →
          goTokens (lengthText length.tree).toList = goTokens length.tree.chars := by
  intro h
  let source := "package p;type T struct\x7bA[len(\"a  b\")]int\x7d;"
  have hfound : (((readTree source).bind (·.follow [2, 1, 1, 1, 1, 1])).bind
      Tree.arrayLength?).map (fun found =>
        decide (goTokens (lengthText found.2.tree).toList = goTokens found.2.tree.chars)) =
      some false := by
    decide +kernel
  obtain ⟨⟨parts, length⟩, hlength, hkept⟩ := Option.map_eq_some_iff.mp hfound
  obtain ⟨u, hu, hparts⟩ := Option.bind_eq_some_iff.mp hlength
  obtain ⟨t, ht, hfollow⟩ := Option.bind_eq_some_iff.mp hu
  obtain ⟨path, hpath⟩ := Tree.at_of_follow hfollow
  obtain ⟨rfl, hfind⟩ := Tree.arrayLength?_eq_some hparts
  exact of_decide_eq_false hkept (h source t path parts length ht hpath hfind)

end FluentBuilder.Go

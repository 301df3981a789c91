import FluentBuilder.Proofs.Lookahead
import FluentBuilder.Proofs.Words

/-!
# Tokens — the tokens of a text

`pieces` cuts a whole text into its tokens and the white space and comments between them, which
`tokens` leaves out. A text with a piece that is none of these, or with a comment that does not end
in it, has no pieces.

A closing square bracket ends every token but a literal in quotes. So the scans for words, numbers
and marks do not look past it (`halts_bracket`), and a literal that was complete without it stays as
it is (`Scan.Keeps`).

* **`pieces_text`** — the pieces of a text are the text.
* **`tokens_bracket`** — the tokens of a text with a closing bracket behind it.
-/

namespace FluentBuilder.Go

/-- The text of a token. -/
abbrev Token := List Char

/-- The operators and marks of the language. -/
def operators : List Token :=
  ["+", "-", "*", "/", "%", "&", "|", "^", "<<", ">>", "&^", "+=", "-=", "*=", "/=", "%=", "&=",
    "|=", "^=", "<<=", ">>=", "&^=", "&&", "||", "<-", "++", "--", "==", "<", ">", "=", "!", "~",
    "!=", "<=", ">=", ":=", "...", "(", ")", "[", "]", "\x7b", "\x7d", ",", ";", ".",
    ":"].map String.toList

/-- The token at the front of a text. -/
def nextToken : Scan
  | [] => none
  | c :: rest =>
    if Text.isIdentStart c then word (c :: rest)
    else if c == '\x60' then rawString (c :: rest)
    else if c == '"' then interpretedString (c :: rest)
    else if c == '\'' then runeLiteral (c :: rest)
    else match numberLiteral (c :: rest) with
      | some found => some found
      | none => longest operators (c :: rest)

/-- A token, a blank or a comment at the front of a text, and the rest. -/
def nextPiece : List Char → Option (Option Token × List Char)
  | [] => none
  | '/' :: '/' :: rest =>
    match rest.dropWhile (· != '\n') with
    | [] => none
    | _ :: left => some (none, left)
  | '/' :: '*' :: rest => (blockComment rest).map fun found => (none, found.2)
  | c :: rest =>
    if isSpace c then some (none, rest)
    else (nextToken (c :: rest)).map fun found => (some found.1, found.2)

/-- The tokens of a text of at most so many pieces. -/
def tokensWithin : Nat → List Char → Option (List Token)
  | _, [] => some []
  | 0, _ :: _ => none
  | bound + 1, c :: rest =>
    match nextPiece (c :: rest) with
    | none => none
    | some (found, left) => (tokensWithin bound left).map (found.toList ++ ·)

/-- The tokens of a text. -/
def tokens (s : List Char) : Option (List Token) := tokensWithin s.length s

/-- A token, or white space or a comment. -/
inductive Piece where
  | token (text : Token)
  | gap (text : List Char)
  deriving DecidableEq, Repr

namespace Piece

/-- The text of a piece. -/
def text : Piece → List Char
  | .token text => text
  | .gap text => text

/-- The token that a piece is. -/
def token? : Piece → Option Token
  | .token text => some text
  | .gap _ => none

/-- The piece at the front of a text, given the token that it is and what stands behind it. -/
def first (s : List Char) : Option Token → List Char → Piece
  | some word, _ => .token word
  | none, left => .gap (s.take (s.length - left.length))

end Piece

/-- The pieces of a text that has at most so many. -/
def piecesWithin : Nat → List Char → Option (List Piece)
  | _, [] => some []
  | 0, _ :: _ => none
  | bound + 1, c :: rest =>
    match nextPiece (c :: rest) with
    | none => none
    | some (found, left) => (piecesWithin bound left).map (.first (c :: rest) found left :: ·)

/-- The pieces of a text. -/
def pieces (s : List Char) : Option (List Piece) := piecesWithin s.length s

/-! ## The first token -/

/-- A token is a word, a literal or a mark. -/
theorem nextToken_cases {s : List Char} {found : Token × List Char} (h : nextToken s = some found) :
    ∃ scan ∈ [word, rawString, interpretedString, runeLiteral, numberLiteral, longest operators],
      scan s = some found := by
  cases s with
  | nil => cases h
  | cons c s =>
      simp only [nextToken] at h
      split at h
      · exact ⟨word, by simp, h⟩
      · split at h
        · exact ⟨rawString, by simp, h⟩
        · split at h
          · exact ⟨interpretedString, by simp, h⟩
          · split at h
            · exact ⟨runeLiteral, by simp, h⟩
            · split at h
              case h_1 found hfound => exact ⟨numberLiteral, by simp, hfound.trans h⟩
              case h_2 => exact ⟨longest operators, by simp, h⟩

theorem nextToken_takes : nextToken.Takes := by
  intro s taken left h
  obtain ⟨scan, hscan, hfound⟩ := nextToken_cases h
  simp only [List.mem_cons, List.not_mem_nil, or_false] at hscan
  rcases hscan with rfl | rfl | rfl | rfl | rfl | rfl
  · exact Scan.Takes.word hfound
  · exact Scan.Takes.rawString hfound
  · exact Scan.Takes.interpretedString hfound
  · exact Scan.Takes.runeLiteral hfound
  · exact Scan.Takes.numberLiteral hfound
  · exact Scan.Takes.longest hfound

theorem nextToken_advances : nextToken.Advances := by
  intro s taken left h
  obtain ⟨scan, hscan, hfound⟩ := nextToken_cases h
  simp only [List.mem_cons, List.not_mem_nil, or_false] at hscan
  rcases hscan with rfl | rfl | rfl | rfl | rfl | rfl
  · exact Scan.Advances.word hfound
  · exact Scan.Advances.rawString hfound
  · exact Scan.Advances.interpretedString hfound
  · exact Scan.Advances.runeLiteral hfound
  · exact Scan.Advances.numberLiteral hfound
  · exact Scan.Advances.longest (by decide) hfound

theorem nextToken_rawString (s : List Char) :
    nextToken ('\x60' :: s) = rawString ('\x60' :: s) := by
  have hstart : Text.isIdentStart '\x60' = false := by decide
  rw [nextToken, hstart]
  rfl

theorem nextToken_interpretedString (s : List Char) :
    nextToken ('"' :: s) = interpretedString ('"' :: s) := by
  have hstart : Text.isIdentStart '"' = false := by decide
  rw [nextToken, hstart]
  rfl

theorem nextToken_runeLiteral (s : List Char) :
    nextToken ('\'' :: s) = runeLiteral ('\'' :: s) := by
  have hstart : Text.isIdentStart '\'' = false := by decide
  rw [nextToken, hstart]
  rfl

/-- The characters that literals begin with. -/
def quotes : List Char := ['\x60', '"', '\'']

/-- A text that begins with no quote begins with a word, a number or a mark. -/
theorem nextToken_plain {s : List Char}
    (h : ∀ c, s.head? = some c → quotes.contains c = false) :
    nextToken s = (word s).or ((numberLiteral s).or (longest operators s)) := by
  cases s with
  | nil => rfl
  | cons c s =>
      have hquote := h c rfl
      simp only [quotes, List.contains_cons, List.contains_nil, Bool.or_false,
        Bool.or_eq_false_iff] at hquote
      rw [nextToken, hquote.1, hquote.2.1, hquote.2.2, word]
      split
      · rfl
      · rw [Option.none_or]
        cases numberLiteral (c :: s) <;> rfl

/-- A token other than a literal in quotes does not depend on what stands behind it. -/
theorem nextToken_follows {stop : Char → Bool} {f : List Char → List Char}
    (hf : Halts tokenMarks stop f) {s : List Char}
    (hquote : ∀ c, s.head? = some c → quotes.contains c = false)
    (hoperators : ∀ text ∈ operators,
      mark text (f s) = (mark text s).map fun found => (found.1, f found.2)) :
    nextToken (f s) = (nextToken s).map fun found => (found.1, f found.2) := by
  have hmarks : quotes ⊆ tokenMarks := by simp [quotes, tokenMarks]
  have hfquote : ∀ c, (f s).head? = some c → quotes.contains c = false :=
    hf.head (fun _ hc => hf.inToken (.inr (hmarks (List.contains_iff_mem.mp hc)))) hquote
  rw [nextToken_plain hquote, nextToken_plain hfquote, Scan.Follows.word hf,
    Scan.Follows.numberLiteral hf, Scan.Follows.longest hoperators, Option.map_or, Option.map_or]

/-! ## Pieces -/

/-- A piece of a text is a front part of it. -/
theorem nextPiece_takes {s left : List Char} {found : Option Token}
    (h : nextPiece s = some (found, left)) :
    (Piece.first s found left).text ++ left = s ∧ left.length < s.length := by
  -- Whatever the piece is, it stands in front of what is left and is not empty.
  have hfront : ∀ {text : List Char}, text ≠ [] → text ++ left = s →
      (∀ token, found = some token → token = text) →
      (Piece.first s found left).text ++ left = s ∧ left.length < s.length := by
    rintro text hne rfl htoken
    have hlength := List.length_pos_iff.mpr hne
    refine ⟨?_, by rw [List.length_append]; omega⟩
    cases found with
    | none => simp [Piece.first, Piece.text]
    | some token => rw [Piece.first, Piece.text, htoken token rfl]
  unfold nextPiece at h
  split at h
  case h_1 => cases h
  case h_2 rest =>
    split at h
    case h_1 => cases h
    case h_2 c left' hdrop =>
      cases h
      refine @hfront ('/' :: '/' :: (rest.takeWhile (· != '\n') ++ [c])) nofun ?_ nofun
      rw [List.cons_append, List.cons_append, List.append_assoc, List.singleton_append, ← hdrop,
        List.takeWhile_append_dropWhile]
  case h_3 rest =>
    obtain ⟨comment, hcomment, heq⟩ := Option.map_eq_some_iff.mp h
    cases heq
    refine @hfront ('/' :: '*' :: comment.1) nofun ?_ nofun
    rw [List.cons_append, List.cons_append, Scan.Takes.blockComment hcomment]
  case h_4 c rest hline hblock =>
    split at h
    case isTrue =>
      cases h
      exact @hfront [c] nofun rfl nofun
    case isFalse =>
      obtain ⟨token, htoken, heq⟩ := Option.map_eq_some_iff.mp h
      cases heq
      refine hfront (nextToken_advances htoken) (nextToken_takes htoken) ?_
      rintro _ ⟨⟩
      rfl

/-- Any bound that the text does not exceed will do. -/
theorem piecesWithin_eq {n : Nat} {s : List Char} (h : s.length ≤ n) :
    piecesWithin n s = pieces s := by
  have hbounds : ∀ {n m : Nat} {s : List Char}, s.length ≤ n → s.length ≤ m →
      piecesWithin n s = piecesWithin m s := by
    intro n
    induction n with
    | zero =>
        intro m s hn hm
        obtain rfl := List.length_eq_zero_iff.mp (Nat.le_zero.mp hn)
        cases m <;> rfl
    | succ n ih =>
        intro m s hn hm
        cases s with
        | nil => cases m <;> rfl
        | cons c rest =>
            obtain ⟨m, rfl⟩ : ∃ k, m = k + 1 := ⟨m - 1, by simp at hm; omega⟩
            rw [piecesWithin, piecesWithin]
            cases hpiece : nextPiece (c :: rest) with
            | none => rfl
            | some piece =>
                have hlength := (nextPiece_takes hpiece).2
                simp only [List.length_cons] at hn hm hlength
                simp only [@ih m piece.2 (by omega) (by omega)]
  exact hbounds h (Nat.le_refl _)

theorem pieces_of_nextPiece {s left : List Char} {found : Option Token}
    (h : nextPiece s = some (found, left)) :
    pieces s = (pieces left).map (.first s found left :: ·) := by
  cases s with
  | nil => cases h
  | cons c rest =>
      have hlength := (nextPiece_takes h).2
      rw [List.length_cons] at hlength
      rw [pieces, List.length_cons, piecesWithin, h]
      simp only [piecesWithin_eq (Nat.le_of_lt_succ hlength)]

theorem pieces_eq_none {s : List Char} (hne : s ≠ []) (h : nextPiece s = none) :
    pieces s = none := by
  cases s with
  | nil => exact absurd rfl hne
  | cons c rest => rw [pieces, List.length_cons, piecesWithin, h]

/-- What holds of the empty text, and of a text if it holds of what stands behind its first piece,
    holds of every text that has pieces. -/
theorem pieces_induction {motive : (s : List Char) → (ps : List Piece) → pieces s = some ps → Prop}
    (nil : motive [] [] rfl)
    (cons : ∀ {s left found ps} (hpiece : nextPiece s = some (found, left))
      (hleft : pieces left = some ps) (_ : motive left ps hleft),
      motive s (.first s found left :: ps) (by rw [pieces_of_nextPiece hpiece, hleft]; rfl))
    {s : List Char} {ps : List Piece} (h : pieces s = some ps) : motive s ps h := by
  induction hn : s.length using Nat.strong_induction_on generalizing s ps with
  | _ n ih =>
      cases s with
      | nil =>
          cases h
          exact nil
      | cons c rest =>
          cases hpiece : nextPiece (c :: rest) with
          | none =>
              rw [pieces_eq_none (List.cons_ne_nil c rest) hpiece] at h
              cases h
          | some piece =>
              have hcut := pieces_of_nextPiece hpiece
              obtain ⟨others, hothers, rfl⟩ := Option.map_eq_some_iff.mp (hcut.symm.trans h)
              exact cons hpiece hothers (ih _ (hn ▸ (nextPiece_takes hpiece).2) hothers rfl)

/-- **The pieces of a text are the text.** -/
theorem pieces_text {s : List Char} {ps : List Piece} (h : pieces s = some ps) :
    ps.flatMap Piece.text = s := by
  induction h using pieces_induction with
  | nil => rfl
  | cons hpiece _ ih => rw [List.flatMap_cons, ih, (nextPiece_takes hpiece).1]

/-- The tokens of a text are those among its pieces. -/
theorem tokens_eq_pieces (s : List Char) :
    tokens s = (pieces s).map (·.filterMap Piece.token?) := by
  have hwithin : ∀ n s, tokensWithin n s = (piecesWithin n s).map (·.filterMap Piece.token?) := by
    intro n
    induction n with
    | zero => intro s; cases s <;> rfl
    | succ n ih =>
        intro s
        cases s with
        | nil => rfl
        | cons c rest =>
            rw [tokensWithin, piecesWithin]
            cases nextPiece (c :: rest) with
            | none => rfl
            | some piece =>
                obtain ⟨found, left⟩ := piece
                simp only [ih, Option.map_map]
                congr 1
                cases found <;> rfl
  exact hwithin s.length s

/-- The tokens of a text behind a piece. -/
theorem tokens_of_nextPiece {s left : List Char} {found : Option Token}
    (h : nextPiece s = some (found, left)) : tokens s = (tokens left).map (found.toList ++ ·) := by
  rw [tokens_eq_pieces, tokens_eq_pieces, pieces_of_nextPiece h, Option.map_map, Option.map_map]
  congr 1
  cases found <;> rfl

/-! ## Scans in front of a bracket -/

/-- What a scan takes from a text, it also takes if a closing bracket stands behind the text. -/
def Scan.Keeps (scan : Scan) : Prop :=
  ∀ {s taken left}, scan s = some (taken, left) →
    ∀ r, scan (s ++ ']' :: r) = some (taken, left ++ ']' :: r)

/-- A closing bracket stands in no token but a literal in quotes and the mark of its own. -/
theorem halts_bracket (r : List Char) : Halts tokenMarks (· == ']') (· ++ ']' :: r) where
  cons _ _ := rfl
  stopped {s} h := by
    cases s with
    | nil =>
        rintro c ⟨⟩
        rfl
    | cons c s => exact h
  inToken {c} h := by
    have hpart : Text.isIdentPart ']' = false := by decide
    refine beq_eq_false_iff_ne.mpr ?_
    rintro rfl
    rcases h with h | h
    · rw [hpart] at h
      cases h
    · exact absurd h (by decide)

/-- In front of a bracket, a text begins with any other character itself. -/
theorem eq_cons_of_bracket {s r rest : List Char} {c : Char} (hc : c ≠ ']')
    (h : s ++ ']' :: r = c :: rest) : ∃ s', s = c :: s' := by
  cases s with
  | nil => exact absurd (List.cons.inj h).1.symm hc
  | cons d s => exact ⟨s, by rw [(List.cons.inj h).1]⟩

/-! ## Literals in quotes -/

/-- What ends within a text does so with more text behind it, too. -/
theorem takeWhile_append_of_found {test : Char → Bool} {s left : List Char} {c : Char}
    (h : s.dropWhile test = c :: left) (r : List Char) :
    (s ++ r).takeWhile test = s.takeWhile test ∧ (s ++ r).dropWhile test = c :: (left ++ r) := by
  induction s with
  | nil => cases h
  | cons d s ih =>
      rw [List.cons_append]
      by_cases hd : test d = true
      · rw [List.dropWhile_cons_of_pos hd] at h
        simp [hd, ih h]
      · rw [List.dropWhile_cons_of_neg hd] at h
        cases h
        simp [hd]

namespace Scan.Keeps

theorem blockComment : blockComment.Keeps := by
  intro s taken left h r
  induction s using Go.blockComment.induct generalizing taken left with
  | case1 => cases h
  | case2 rest =>
      cases h
      rfl
  | case3 c rest hne ih =>
      rw [Go.blockComment] at h
      · obtain ⟨found, hfound, heq⟩ := Option.map_eq_some_iff.mp h
        cases heq
        rw [List.cons_append, Go.blockComment, ih hfound]
        · rfl
        · rintro rest' rfl heq
          obtain ⟨rest'', rfl⟩ := eq_cons_of_bracket (by decide) heq
          exact hne rest'' rfl rfl
      · exact hne

theorem rawString : rawString.Keeps := by
  intro s taken left h r
  unfold Go.rawString at h
  split at h
  case h_1 rest =>
    split at h
    case h_1 => cases h
    case h_2 quote left' hdrop =>
      cases h
      obtain ⟨htake, hdrop'⟩ := takeWhile_append_of_found hdrop (']' :: r)
      simp only [List.cons_append, Go.rawString, hdrop', htake]
  case h_2 => cases h

theorem stringEscape : stringEscape.Keeps := by
  intro s taken left h r
  cases s with
  | nil => cases h
  | cons c s =>
      -- The escaped character stands in front of the bracket.
      suffices heq : Go.stringEscape (c :: (s ++ ']' :: r)) =
          (Go.stringEscape (c :: s)).map fun found => (found.1, found.2 ++ ']' :: r) by
        rw [List.cons_append, heq, h, Option.map_some]
      have hdigits := fun count more => Scan.Follows.hexDigits (halts_bracket r) count more s
      simp only [Go.stringEscape, hdigits]
      split
      · simp only [Option.map_map]
        rfl
      · split
        · simp only [Option.map_map]
          rfl
        · split
          · simp only [Option.map_map]
            rfl
          · rfl

/-- The rest of an interpreted literal ends at its closing quote. -/
theorem stringBody {bound s taken left : List Char} (h : Go.stringBody bound s = some (taken, left))
    {longer : List Char} (hbound : bound.length ≤ longer.length) (r : List Char) :
    Go.stringBody longer (s ++ ']' :: r) = some (taken, left ++ ']' :: r) := by
  induction bound generalizing s taken left longer with
  | nil => simp [Go.stringBody] at h
  | cons b bound ih =>
      cases longer with
      | nil => simp at hbound
      | cons b' longer =>
          cases s with
          | nil => simp [Go.stringBody] at h
          | cons c s =>
              have hle : bound.length ≤ longer.length := by simpa using hbound
              simp only [Go.stringBody, List.cons_append] at h ⊢
              split at h
              case isTrue hquote =>
                cases h
                rw [if_pos hquote]
              case isFalse hquote =>
                rw [if_neg hquote]
                split at h
                case isTrue => cases h
                case isFalse hbreak =>
                  rw [if_neg hbreak]
                  split at h
                  case isTrue hescape =>
                    rw [if_pos hescape]
                    cases hfound : Go.stringEscape s with
                    | none => rw [hfound] at h; cases h
                    | some found =>
                        rw [hfound] at h
                        obtain ⟨rest, hrest, heq⟩ := Option.map_eq_some_iff.mp h
                        cases heq
                        rw [stringEscape hfound r]
                        simp only [ih hrest hle, Option.map_some]
                  case isFalse hescape =>
                    rw [if_neg hescape]
                    obtain ⟨rest, hrest, heq⟩ := Option.map_eq_some_iff.mp h
                    cases heq
                    rw [ih hrest hle, Option.map_some]

theorem interpretedString : interpretedString.Keeps := by
  intro s taken left h r
  unfold Go.interpretedString at h
  split at h
  case h_1 rest =>
    obtain ⟨found, hfound, heq⟩ := Option.map_eq_some_iff.mp h
    cases heq
    have hlength : rest.length ≤ (rest ++ ']' :: r).length := by simp
    have hbody := stringBody hfound hlength r
    simp only [List.cons_append, Go.interpretedString, hbody, Option.map_some]
  case h_2 => cases h

theorem runeEscape : runeEscape.Keeps := by
  intro s taken left h r
  rw [Scan.Follows.runeEscape (halts_bracket r) s, h, Option.map_some]

theorem runeLiteral : runeLiteral.Keeps := by
  intro s taken left h r
  unfold Go.runeLiteral at h
  split at h
  case h_1 rest =>
    split at h
    case h_1 escape left' hfound =>
      cases h
      have hkept := runeEscape hfound r
      simp only [List.cons_append, Go.runeLiteral, hkept]
    case h_2 => cases h
  case h_2 c left' _ =>
    split at h
    case isTrue => cases h
    case isFalse hquote =>
      cases h
      simp [Go.runeLiteral, hquote]
  case h_3 => cases h

theorem nextToken : nextToken.Keeps := by
  intro s taken left h r
  cases s with
  | nil => cases h
  | cons c s =>
      by_cases hquote : quotes.contains c = true
      · simp only [quotes, List.contains_cons, List.contains_nil, Bool.or_false, Bool.or_eq_true,
          beq_iff_eq] at hquote
        rw [List.cons_append]
        rcases hquote with rfl | rfl | rfl
        · rw [nextToken_rawString] at h ⊢
          exact rawString h r
        · rw [nextToken_interpretedString] at h ⊢
          exact interpretedString h r
        · rw [nextToken_runeLiteral] at h ⊢
          exact runeLiteral h r
      · have hbracket : ∀ text ∈ operators, ']' ∉ text.tail := by decide
        have htail : ∀ text ∈ operators, ∀ d ∈ text.tail, (d == ']') = false := by
          intro text htext d hd
          refine beq_eq_false_iff_ne.mpr ?_
          rintro rfl
          exact hbracket text htext hd
        have hfollows := nextToken_follows (halts_bracket r) (s := c :: s)
          (by
            rintro d ⟨⟩
            simpa using hquote)
          (fun text htext => Scan.Follows.mark_cons (halts_bracket r) (htail text htext) rfl)
        rw [hfollows, h, Option.map_some]

end Scan.Keeps

/-! ## Texts with a bracket behind them -/

theorem nextPiece_bracket {s left : List Char} {found : Option Token}
    (h : nextPiece s = some (found, left)) (r : List Char) :
    nextPiece (s ++ ']' :: r) = some (found, left ++ ']' :: r) := by
  unfold nextPiece at h
  split at h
  case h_1 => cases h
  case h_2 rest =>
    split at h
    case h_1 => cases h
    case h_2 c left' hdrop =>
      cases h
      simp only [List.cons_append, nextPiece, (takeWhile_append_of_found hdrop (']' :: r)).2]
  case h_3 rest =>
    obtain ⟨comment, hcomment, heq⟩ := Option.map_eq_some_iff.mp h
    cases heq
    simp only [List.cons_append, nextPiece, Scan.Keeps.blockComment hcomment r, Option.map_some]
  case h_4 c rest hline hblock =>
    rw [List.cons_append, nextPiece]
    · split at h
      case isTrue hspace =>
        cases h
        rw [if_pos hspace]
      case isFalse hspace =>
        obtain ⟨token, htoken, heq⟩ := Option.map_eq_some_iff.mp h
        cases heq
        rw [if_neg hspace, ← List.cons_append, Scan.Keeps.nextToken htoken r, Option.map_some]
    · rintro rest' rfl heq
      obtain ⟨rest'', rfl⟩ := eq_cons_of_bracket (by decide) heq
      exact hline rest'' rfl rfl
    · rintro rest' rfl heq
      obtain ⟨rest'', rfl⟩ := eq_cons_of_bracket (by decide) heq
      exact hblock rest'' rfl rfl

/-- **The tokens of a text stay as they are** if a closing bracket stands behind it. -/
theorem tokens_bracket {s r : List Char} {ts us : List Token} (hs : tokens s = some ts)
    (hr : tokens (']' :: r) = some us) : tokens (s ++ ']' :: r) = some (ts ++ us) := by
  rw [tokens_eq_pieces] at hs
  obtain ⟨ps, hps, rfl⟩ := Option.map_eq_some_iff.mp hs
  clear hs
  -- Each of the pieces in front of the bracket ends where it ended before, so what is left of the
  -- text is followed by the bracket again.
  induction hps using pieces_induction with
  | nil => exact hr
  | @cons s left found ps hpiece _ ih =>
      rw [tokens_of_nextPiece (nextPiece_bracket hpiece r), ih]
      cases found <;> rfl

/-! ## Texts with a piece in front of them -/

/-- A word ends in front of a text if the text does not go on with it. -/
def StopsWord (r : List Char) : Prop := ∀ c, r.head? = some c → Text.isIdentPart c = false

theorem word_append {w r : List Char} (hw : IsWord w) (hr : StopsWord r) :
    word (w ++ r) = some (w, r) := by
  obtain ⟨c, rest, rfl, hc, hrest⟩ := isWord_iff.mp hw
  have htail : r.takeWhile Text.isIdentPart = [] ∧ r.dropWhile Text.isIdentPart = r := by
    cases r with
    | nil => exact ⟨rfl, rfl⟩
    | cons d r =>
        have hd := hr d rfl
        simp [hd]
  rw [List.cons_append, word, if_pos hc, List.takeWhile_append_of_pos hrest,
    List.dropWhile_append_of_pos hrest, htail.1, htail.2, List.append_nil]

/-- A character that begins a word is neither white space nor the beginning of a comment. -/
theorem isSpace_of_isIdentStart {c : Char} (h : Text.isIdentStart c = true) :
    isSpace c = false ∧ c ≠ '/' := by
  constructor
  · by_contra hspace
    simp only [isSpace, Bool.not_eq_false, Bool.or_eq_true, beq_iff_eq] at hspace
    rcases hspace with ((((rfl | rfl) | rfl) | rfl) | rfl) | rfl <;> exact absurd h (by decide)
  · rintro rfl
    exact absurd h (by decide)

/-- A word in front of a text is its first token. -/
theorem tokens_word {w r : List Char} {ts : List Token} (hw : IsWord w) (hr : StopsWord r)
    (h : tokens r = some ts) : tokens (w ++ r) = some (w :: ts) := by
  have hword := word_append hw hr
  obtain ⟨c, rest, rfl, hc, -⟩ := isWord_iff.mp hw
  obtain ⟨hspace, hslash⟩ := isSpace_of_isIdentStart hc
  have hpiece : nextPiece (c :: rest ++ r) = some (some (c :: rest), r) := by
    rw [List.cons_append] at hword ⊢
    rw [nextPiece, hspace, nextToken, if_pos hc, hword]
    · rfl
    · exact fun rest' heq => absurd heq hslash
    · exact fun rest' heq => absurd heq hslash
  rw [tokens_of_nextPiece hpiece, h]
  rfl

theorem tokens_space {r : List Char} {ts : List Token} (h : tokens r = some ts) :
    tokens (' ' :: r) = some ts := by
  have hpiece : nextPiece (' ' :: r) = some (none, r) := rfl
  rw [tokens_of_nextPiece hpiece, h]
  rfl

/-! ## Marks in front of a text -/

/-- A mark in front of a text is its first token if it is the longest one there. -/
theorem tokens_mark {m r : List Char} {ts : List Token} (hm : nextPiece (m ++ r) = some (some m, r))
    (h : tokens r = some ts) : tokens (m ++ r) = some (m :: ts) := by
  rw [tokens_of_nextPiece hm, h]
  rfl

theorem longest_star {d : Char} (hd : d ≠ '=') (r : List Char) :
    longest operators ('*' :: d :: r) = some (['*'], d :: r) := by
  simp [operators, longest, mark, dropExact, hd.symm]

theorem longest_dot {d : Char} (hd : d ≠ '.') (r : List Char) :
    longest operators ('.' :: d :: r) = some (['.'], d :: r) := by
  simp [operators, longest, mark, dropExact, hd.symm]

/-- The star of a pointer type. -/
theorem tokens_star {d : Char} (hd : d ≠ '=') {r : List Char} {ts : List Token}
    (h : tokens (d :: r) = some ts) : tokens ('*' :: d :: r) = some (['*'] :: ts) := by
  have hnumber : numberLiteral ('*' :: d :: r) = none := rfl
  have hstart : Text.isIdentStart '*' = false := by decide
  refine tokens_mark (m := ['*']) ?_ h
  simp [nextPiece, nextToken, hstart, hnumber, longest_star hd, isSpace]

/-- A character that begins a word is no digit. -/
theorem digitValue_of_isIdentStart {d : Char} (h : Text.isIdentStart d = true) :
    (digitValue 10 d).isSome = false := by
  by_contra hdigit
  have hrange : 0x30 ≤ d.toNat ∧ d.toNat ≤ 0x39 := by
    rw [digitValue] at hdigit
    grind
  have hdigits : ∀ n < 10, Text.isIdentStart (Char.ofNat (0x30 + n)) = false := by decide
  have hnone := hdigits (d.toNat - 0x30) (by omega)
  rw [Nat.add_sub_cancel' hrange.1, Char.ofNat_toNat, h] at hnone
  cases hnone

/-- The point between the name of a package and that of a type. -/
theorem tokens_dot {d : Char} (hd : Text.isIdentStart d = true) {r : List Char} {ts : List Token}
    (h : tokens (d :: r) = some ts) : tokens ('.' :: d :: r) = some (['.'] :: ts) := by
  have hdigit := digitValue_of_isIdentStart hd
  have hne : d ≠ '.' := by
    rintro rfl
    exact absurd hd (by decide)
  have hpoint : (digitValue 10 '.').isSome = false := rfl
  have hnumber : numberLiteral ('.' :: d :: r) = none := by
    simp [hpoint, numberLiteral, intLiteral, floatLiteral, imaginaryLiteral, prefixedDigits,
      Scan.longer, Scan.seq, digits, mark, dropExact, hdigit]
  have hstart : Text.isIdentStart '.' = false := by decide
  refine tokens_mark (m := ['.']) ?_ h
  simp [nextPiece, nextToken, hstart, hnumber, longest_dot hne, isSpace]

end FluentBuilder.Go

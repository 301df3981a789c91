import FluentBuilder.Proofs.Lexer
import FluentBuilder.Text.Blank

/-!
# Spacing — the tokens of a text whose white space is squeezed

`squeezed` puts one blank in place of each run of white space between the words of a text. It does
not know tokens: white space in a literal or in a comment is squeezed, too. So each token of a text
is found again in the squeezed text with its own white space squeezed. What stands behind it is
squeezed from inside of a word (`squeezedTail`); behind white space it is squeezed from the front
(`squeezed`), and the inductions over a text carry both.

* **`nextToken_squeezed`** — the first token of a squeezed text is that of the text, squeezed.
* **`blockComment_squeezed`** — a comment between marks ends where it ended.
-/

namespace FluentBuilder.Go

open Text (isBlank words)

/-! ## Squeezed texts -/

/-- The words of a text with one blank between any two of them. -/
def squeezed (s : List Char) : List Char := ((words s).intersperse [' ']).flatten

/-- What a squeezed text goes on with behind a character of a word. -/
def squeezedTail : List Char → List Char
  | [] => []
  | c :: rest =>
    if isBlank c then if (words rest).isEmpty then [] else ' ' :: squeezed rest
    else c :: squeezedTail rest

theorem words_cons (c : Char) (rest : List Char) :
    words (c :: rest) = if isBlank c then words rest else match rest, words rest with
      | d :: _, w :: ws => if isBlank d then [c] :: w :: ws else (c :: w) :: ws
      | _, ws => [c] :: ws := rfl

theorem words_blank {c : Char} (hc : isBlank c = true) (rest : List Char) :
    words (c :: rest) = words rest := by
  rw [words_cons, if_pos hc]

/-- A character in front of white space is a word. -/
theorem words_char_blank {c d : Char} (hc : isBlank c = false) (hd : isBlank d = true)
    (rest : List Char) : words (c :: d :: rest) = [c] :: words rest := by
  rw [words_cons, if_neg (by simp [hc]), words_blank hd]
  cases words rest with
  | nil => rfl
  | cons w ws => exact if_pos hd

/-- A text that begins with a word has words, and any other character in front of it belongs to the
first one. -/
theorem words_char_char {d : Char} (hd : isBlank d = false) (rest : List Char) :
    ∃ w ws, words (d :: rest) = w :: ws ∧
      ∀ c, isBlank c = false → words (c :: d :: rest) = (c :: w) :: ws := by
  have hwords : words (d :: rest) ≠ [] := by
    rw [words_cons, if_neg (by simp [hd])]
    split
    · split <;> exact List.cons_ne_nil _ _
    · exact List.cons_ne_nil _ _
  obtain ⟨w, ws, hws⟩ := List.exists_cons_of_ne_nil hwords
  refine ⟨w, ws, hws, fun c hc => ?_⟩
  rw [words_cons, if_neg (by simp [hc]), hws]
  exact if_neg (by simp [hd])

theorem squeezed_blank {c : Char} (hc : isBlank c = true) (rest : List Char) :
    squeezed (c :: rest) = squeezed rest := by
  rw [squeezed, squeezed, words_blank hc]

theorem squeezedTail_char {c : Char} (hc : isBlank c = false) (rest : List Char) :
    squeezedTail (c :: rest) = c :: squeezedTail rest := by
  simp [squeezedTail, hc]

theorem squeezedTail_blank {c : Char} (hc : isBlank c = true) {rest : List Char}
    (h : squeezed rest ≠ []) : squeezedTail (c :: rest) = ' ' :: squeezed rest := by
  have hwords : words rest ≠ [] := fun hnil => h (by rw [squeezed, hnil]; rfl)
  rw [squeezedTail, if_pos hc, if_neg (by simpa using hwords)]

theorem flatten_intersperse_cons (c : Char) (w : List Char) (ws : List (List Char)) :
    (((c :: w) :: ws).intersperse [' ']).flatten =
      c :: ((w :: ws).intersperse [' ']).flatten := by
  cases ws <;> rfl

theorem squeezed_char {c : Char} (hc : isBlank c = false) (rest : List Char) :
    squeezed (c :: rest) = c :: squeezedTail rest := by
  induction rest generalizing c with
  | nil =>
      rw [squeezed, words_cons, if_neg (by simp [hc])]
      rfl
  | cons d rest ih =>
      cases hd : isBlank d with
      | true =>
          rw [squeezed, words_char_blank hc hd, squeezedTail, if_pos hd, squeezed]
          cases words rest <;> rfl
      | false =>
          obtain ⟨w, ws, hws, hcons⟩ := words_char_char hd rest
          rw [squeezed, hcons c hc, flatten_intersperse_cons, ← hws, ← squeezed, ih hd,
            squeezedTail_char hd]

/-- A text with a word in it is not squeezed to nothing. -/
theorem squeezed_ne_nil {s : List Char} {c : Char} (h : c ∈ s) (hc : isBlank c = false) :
    squeezed s ≠ [] := by
  induction s with
  | nil => cases h
  | cons d s ih =>
      cases hd : isBlank d with
      | true =>
          rw [squeezed_blank hd]
          refine ih ((List.mem_cons.mp h).resolve_left ?_)
          rintro rfl
          rw [hc] at hd
          cases hd
      | false =>
          rw [squeezed_char hd]
          exact List.cons_ne_nil _ _

/-- Squeezing cuts a text behind each character of a word. -/
theorem squeezed_append {c : Char} (hc : isBlank c = false) (s left : List Char) :
    squeezedTail (s ++ c :: left) = squeezedTail (s ++ [c]) ++ squeezedTail left ∧
      squeezed (s ++ c :: left) = squeezed (s ++ [c]) ++ squeezedTail left := by
  induction s with
  | nil =>
      simp only [List.nil_append, squeezedTail_char hc, squeezed_char hc]
      exact ⟨rfl, rfl⟩
  | cons d s ih =>
      cases hd : isBlank d with
      | true =>
          have hmem : ∀ left, squeezed (s ++ c :: left) ≠ [] :=
            fun left => squeezed_ne_nil (List.mem_append_right s (.head left)) hc
          simp only [List.cons_append, squeezed_blank hd, squeezedTail_blank hd (hmem _), ih.2]
          exact ⟨trivial, trivial⟩
      | false =>
          simp only [List.cons_append, squeezed_char hd, squeezedTail_char hd, ih.1]
          exact ⟨trivial, trivial⟩

/-- A squeezed text holds no white space but single blanks. -/
theorem eq_space_of_mem_squeezed {s : List Char} {c : Char} (hc : isBlank c = true) :
    (c ∈ squeezedTail s → c = ' ') ∧ (c ∈ squeezed s → c = ' ') := by
  induction s with
  | nil => exact ⟨nofun, nofun⟩
  | cons d s ih =>
      cases hd : isBlank d with
      | true =>
          rw [squeezed_blank hd, squeezedTail, if_pos hd]
          refine ⟨?_, ih.2⟩
          split
          · exact nofun
          · intro h
            exact (List.mem_cons.mp h).elim id ih.2
      | false =>
          have hcons : c ∈ d :: squeezedTail s → c = ' ' := by
            intro h
            refine ih.1 ((List.mem_cons.mp h).resolve_left ?_)
            rintro rfl
            rw [hc] at hd
            cases hd
          rw [squeezed_char hd, squeezedTail_char hd]
          exact ⟨hcons, hcons⟩

/-- A text without white space stays as it is. -/
theorem squeezed_eq_self {s : List Char} (h : ∀ c ∈ s, isBlank c = false) :
    squeezedTail s = s ∧ squeezed s = s := by
  induction s with
  | nil => exact ⟨rfl, rfl⟩
  | cons c s ih =>
      rw [List.forall_mem_cons] at h
      rw [squeezed_char h.1, squeezedTail_char h.1, (ih h.2).1]
      exact ⟨rfl, rfl⟩

/-! ## Words, numbers and marks -/

/-- The code points of white space. -/
def blankPoints : List Nat :=
  List.range' 9 5 ++ [0x20, 0x85, 0xA0, 0x1680] ++ List.range' 0x2000 11 ++
    [0x2028, 0x2029, 0x202F, 0x205F, 0x3000]

theorem mem_blankPoints {c : Char} (h : isBlank c = true) : c.toNat ∈ blankPoints := by
  simp only [isBlank, Bool.or_eq_true, Bool.and_eq_true, decide_eq_true_eq, beq_iff_eq] at h
  simp only [blankPoints, List.mem_append, List.mem_range'_1, List.mem_cons, List.not_mem_nil,
    or_false]
  rcases h with (((((((((hrange | h) | h) | h) | h) | hrange) | h) | h) | h) | h) | h
  · exact .inl (.inl (.inl ⟨hrange.1, Nat.lt_succ_of_le hrange.2⟩))
  · simp [h]
  · simp [h]
  · simp [h]
  · simp [h]
  · exact .inl (.inr ⟨hrange.1, Nat.lt_succ_of_le hrange.2⟩)
  · simp [h]
  · simp [h]
  · simp [h]
  · simp [h]
  · simp [h]

/-- White space stands in no token other than a literal in quotes. -/
theorem isBlank_inToken {c : Char} (h : Text.isIdentPart c = true ∨ c ∈ tokenMarks) :
    isBlank c = false := by
  have hnone : (blankPoints.any fun n =>
      Text.isIdentPart (Char.ofNat n) || tokenMarks.contains (Char.ofNat n)) = false := by
    decide +kernel
  by_contra hblank
  have hc := List.any_eq_false.mp hnone _ (mem_blankPoints (by simpa using hblank))
  rw [Char.ofNat_toNat] at hc
  exact hc (Bool.or_eq_true_iff.mpr (h.imp_right List.contains_iff_mem.mpr))

theorem halts_squeezedTail : Halts tokenMarks isBlank squeezedTail where
  cons h s := squeezedTail_char h s
  stopped {s} h := by
    cases s with
    | nil => exact nofun
    | cons c s =>
        rw [squeezedTail, if_pos (h c rfl)]
        split
        · exact nofun
        · rintro _ ⟨⟩
          rfl
  inToken := isBlank_inToken

/-- A text may as well end in front of its first white space. -/
theorem halts_takeWhile : Halts tokenMarks isBlank (·.takeWhile (!isBlank ·)) where
  cons {c} h s := by simp [h]
  stopped {s} h := by
    have hhead : ∀ c, s.head? = some c → (!isBlank c) = false := fun c hc => by rw [h c hc]; rfl
    rw [(takeWhile_of_head hhead).1]
    exact nofun
  inToken := isBlank_inToken

theorem mark_follows {f : List Char → List Char} (hf : Halts tokenMarks isBlank f) (s : List Char) :
    ∀ text ∈ operators,
      mark text (f s) = (mark text s).map fun found => (found.1, f found.2) := by
  have hall : ∀ text ∈ operators, text.any isBlank = false := by decide
  intro text htext
  refine Scan.Follows.mark hf (fun c hc => ?_) s
  simpa using List.any_eq_false.mp (hall text htext) c hc

/-- A token other than a literal in quotes holds no white space. -/
theorem isBlank_of_mem_token {s token left : List Char} (h : nextToken s = some (token, left))
    (hquote : ∀ c, s.head? = some c → quotes.contains c = false) :
    ∀ c ∈ token, isBlank c = false := by
  have hcut := nextToken_follows halts_takeWhile hquote (mark_follows halts_takeWhile s)
  rw [h, Option.map_some] at hcut
  intro c hc
  have hmem : c ∈ s.takeWhile (!isBlank ·) := by
    rw [← nextToken_takes hcut]
    exact List.mem_append_left _ hc
  simpa using List.mem_takeWhile_imp hmem

/-! ## Literals and comments -/

/-- A property of the squeezed text behind one more character. White space becomes one blank, or
nothing behind other white space and at the end of the text. -/
theorem squeezed_cons (P : List Char → Prop) {c : Char} {s : List Char} (hnil : ¬ P [])
    (hblank : isBlank c = true → P (squeezed s) ∧ P (' ' :: squeezed s))
    (hchar : isBlank c = false → P (c :: squeezedTail s)) :
    P (squeezedTail (c :: s)) ∧ P (squeezed (c :: s)) := by
  cases hc : isBlank c with
  | true =>
      obtain ⟨hwhole, hspace⟩ := hblank hc
      have hne : squeezed s ≠ [] := fun heq => hnil (heq ▸ hwhole)
      rw [squeezed_blank hc, squeezedTail_blank hc hne]
      exact ⟨hspace, hwhole⟩
  | false =>
      rw [squeezed_char hc, squeezedTail_char hc]
      exact ⟨hchar hc, hchar hc⟩

/-- A comment ends where it ended, whether the text is squeezed from inside of a word or not. -/
theorem blockComment_squeezed {s taken left : List Char}
    (h : blockComment s = some (taken, left)) :
    (∃ t, blockComment (squeezedTail s) = some (t, squeezedTail left)) ∧
      ∃ t, blockComment (squeezed s) = some (t, squeezedTail left) := by
  have hnil : ∀ {left : List Char}, ¬ ∃ t, blockComment [] = some (t, squeezedTail left) := by
    simp [blockComment]
  have hcons : ∀ {c : Char} {s : List Char}, (∀ rest, c = '*' → s ≠ '/' :: rest) →
      (∃ t, blockComment s = some (t, squeezedTail left)) →
      ∃ t, blockComment (c :: s) = some (t, squeezedTail left) := by
    rintro c s hne ⟨t, ht⟩
    refine ⟨c :: t, ?_⟩
    rw [blockComment, ht, Option.map_some]
    exact fun rest hc hs => hne rest hc hs
  induction s using blockComment.induct generalizing taken with
  | case1 => cases h
  | case2 rest =>
      cases h
      refine squeezed_cons (fun s => ∃ t, blockComment s = some (t, squeezedTail left)) hnil
        (fun hblank => absurd hblank (by decide)) fun _ => ⟨['*', '/'], ?_⟩
      rw [squeezedTail_char (by decide), blockComment]
  | case3 c rest hne ih =>
      rw [blockComment] at h
      · obtain ⟨found, hfound, heq⟩ := Option.map_eq_some_iff.mp h
        cases heq
        obtain ⟨htail, hwhole⟩ := ih hfound
        have hspace := hcons (c := ' ') (fun _ hc => absurd hc (by decide)) hwhole
        refine squeezed_cons (fun s => ∃ t, blockComment s = some (t, squeezedTail found.2)) hnil
          (fun _ => ⟨hwhole, hspace⟩) fun _ => hcons ?_ htail
        -- A slash behind a star stands there in the text that was not squeezed, too.
        rintro left rfl hleft
        rcases halts_squeezedTail.cases rest with ⟨d, rest', -, rfl, heq⟩ | ⟨-, hstop⟩
        · rw [heq] at hleft
          obtain ⟨rfl, -⟩ := List.cons.inj hleft
          exact hne rest' rfl rfl
        · rw [hleft] at hstop
          exact absurd (hstop '/' rfl) (by decide)
      · exact hne

/-- What stands from a quote on is found again behind squeezed text. -/
theorem dropWhile_squeezed {test : Char → Bool} (htest : ∀ c, isBlank c = true → test c = true)
    {s left : List Char} {c : Char} (h : s.dropWhile test = c :: left) :
    (squeezedTail s).dropWhile test = c :: squeezedTail left ∧
      (squeezed s).dropWhile test = c :: squeezedTail left := by
  induction s with
  | nil => cases h
  | cons d s ih =>
      by_cases hd : test d = true
      · rw [List.dropWhile_cons_of_pos hd] at h
        obtain ⟨htail, hwhole⟩ := ih h
        have hspace := htest ' ' (by decide)
        exact squeezed_cons (·.dropWhile test = c :: squeezedTail left) nofun
          (fun _ => ⟨hwhole, (List.dropWhile_cons_of_pos hspace).trans hwhole⟩)
          fun _ => (List.dropWhile_cons_of_pos hd).trans htail
      · rw [List.dropWhile_cons_of_neg hd] at h
        cases h
        exact squeezed_cons (·.dropWhile test = c :: squeezedTail left) nofun
          (fun hblank => absurd (htest c hblank) hd) fun _ => List.dropWhile_cons_of_neg hd

theorem rawString_squeezed {s taken left : List Char} (h : rawString s = some (taken, left)) :
    ∃ t, rawString (squeezedTail s) = some (t, squeezedTail left) := by
  unfold rawString at h
  split at h
  case h_1 rest =>
    split at h
    case h_1 => cases h
    case h_2 quote left' hdrop =>
      cases h
      have hblank : ∀ c, isBlank c = true → (c != '\x60') = true := by
        intro c hc
        refine bne_iff_ne.mpr ?_
        rintro rfl
        exact absurd hc (by decide)
      have hfound := (dropWhile_squeezed hblank hdrop).1
      rw [squeezedTail_char (by decide)]
      simp only [rawString, hfound]
      exact ⟨_, rfl⟩
  case h_2 => cases h

/-- An escaped character is found again; if it is white space, it becomes a blank. -/
theorem stringEscape_squeezed {s taken left : List Char} (h : stringEscape s = some (taken, left))
    (hleft : squeezed left ≠ []) : ∃ t rest, stringEscape (squeezedTail s) = some (t, rest) ∧
      (rest = squeezedTail left ∨ rest = squeezed left) := by
  cases s with
  | nil => cases h
  | cons c s =>
      have hdigits : ∀ count more,
          ((hexDigits count more s).map fun found => (c :: found.1, found.2)) =
            some (taken, left) →
          ((hexDigits count more (squeezedTail s)).map fun found => (c :: found.1, found.2)) =
            some (taken, squeezedTail left) := by
        intro count more hmap
        have hhex := Scan.Follows.hexDigits halts_squeezedTail count more
        rw [hhex.map_cons c s, hmap, Option.map_some]
      cases hc : isBlank c with
      | true =>
          have hne : ∀ d ∈ ['x', 'u', 'U'], c ≠ d := by
            rintro d hd rfl
            have hnone : ['x', 'u', 'U'].any isBlank = false := by decide
            exact List.any_eq_false.mp hnone c hd hc
          simp only [List.forall_mem_cons] at hne
          simp only [stringEscape, beq_iff_eq, hne, if_false] at h
          cases h
          rw [squeezedTail_blank hc hleft]
          exact ⟨[' '], _, rfl, .inr rfl⟩
      | false =>
          rw [squeezedTail_char hc]
          rw [stringEscape] at h ⊢
          split at h
          case isTrue hx => exact ⟨_, _, (if_pos hx).trans (hdigits 2 true h), .inl rfl⟩
          case isFalse hx =>
            rw [if_neg hx]
            split at h
            case isTrue hu => exact ⟨_, _, (if_pos hu).trans (hdigits 4 false h), .inl rfl⟩
            case isFalse hu =>
              rw [if_neg hu]
              split at h
              case isTrue hlong =>
                exact ⟨_, _, (if_pos hlong).trans (hdigits 8 false h), .inl rfl⟩
              case isFalse hlong =>
                cases h
                exact ⟨[c], _, if_neg hlong, .inl rfl⟩

/-- The rest of an interpreted literal ends where it ended. The bound is one for the squeezed text,
which may be shorter than the text. -/
theorem stringBody_squeezed {bound s taken left : List Char}
    (h : stringBody bound s = some (taken, left)) :
    (∀ longer : List Char, (squeezedTail s).length ≤ longer.length →
      ∃ t, stringBody longer (squeezedTail s) = some (t, squeezedTail left)) ∧
    ∀ longer : List Char, (squeezed s).length ≤ longer.length →
      ∃ t, stringBody longer (squeezed s) = some (t, squeezedTail left) := by
  let Ends (s : List Char) : Prop := ∀ longer : List Char, s.length ≤ longer.length →
    ∃ t, stringBody longer s = some (t, squeezedTail left)
  change Ends (squeezedTail s) ∧ Ends (squeezed s)
  have hnil : ¬ Ends [] := by
    intro hends
    obtain ⟨t, ht⟩ := hends [] (Nat.le_refl _)
    cases ht
  have hcons : ∀ {c : Char} {s : List Char}, c ∉ ['"', '\n', '\\'] → Ends s → Ends (c :: s) := by
    intro c s hc hends longer hlonger
    simp only [List.mem_cons, List.not_mem_nil, or_false, not_or] at hc
    cases longer with
    | nil => simp at hlonger
    | cons b longer =>
        obtain ⟨t, ht⟩ := hends longer (by simpa using hlonger)
        exact ⟨c :: t, by simp [stringBody, hc, ht]⟩
  induction bound generalizing s taken with
  | nil => simp [stringBody] at h
  | cons b bound ih =>
      cases s with
      | nil => simp [stringBody] at h
      | cons c s =>
          rw [stringBody] at h
          split at h
          case isTrue hquote =>
            cases h
            rw [beq_iff_eq.mp hquote]
            refine squeezed_cons Ends hnil (fun hblank => absurd hblank (by decide)) fun _ => ?_
            intro longer hlonger
            cases longer with
            | nil => simp at hlonger
            | cons b longer => exact ⟨['"'], by simp [stringBody]⟩
          case isFalse hquote =>
            split at h
            case isTrue => cases h
            case isFalse hbreak =>
              split at h
              case isTrue hescape =>
                split at h
                case h_1 => cases h
                case h_2 escape after hfound =>
                  obtain ⟨rest, hrest, heq⟩ := Option.map_eq_some_iff.mp h
                  cases heq
                  obtain ⟨htail, hwhole⟩ := ih hrest
                  have hne : squeezed after ≠ [] := fun heq => hnil (heq ▸ hwhole)
                  obtain ⟨e, rest', he, hrest'⟩ := stringEscape_squeezed hfound hne
                  have hends : Ends rest' := by
                    rcases hrest' with rfl | rfl
                    · exact htail
                    · exact hwhole
                  have hlength := Scan.Takes.stringEscape he
                  rw [beq_iff_eq.mp hescape]
                  refine squeezed_cons Ends hnil (fun hblank => absurd hblank (by decide))
                    fun _ => ?_
                  intro longer hlonger
                  cases longer with
                  | nil => simp at hlonger
                  | cons b longer =>
                      rw [← hlength, List.length_cons, List.length_append, List.length_cons]
                        at hlonger
                      obtain ⟨t, ht⟩ := hends longer (by omega)
                      exact ⟨'\\' :: (e ++ t), by simp [stringBody, he, ht]⟩
              case isFalse hescape =>
                obtain ⟨rest, hrest, heq⟩ := Option.map_eq_some_iff.mp h
                cases heq
                obtain ⟨htail, hwhole⟩ := ih hrest
                have hc : c ∉ ['"', '\n', '\\'] := by
                  simpa using ⟨by simpa using hquote, by simpa using hbreak, by simpa using hescape⟩
                exact squeezed_cons Ends hnil (fun _ => ⟨hwhole, hcons (by decide) hwhole⟩)
                  fun _ => hcons hc htail

theorem interpretedString_squeezed {s taken left : List Char}
    (h : interpretedString s = some (taken, left)) :
    ∃ t, interpretedString (squeezedTail s) = some (t, squeezedTail left) := by
  unfold interpretedString at h
  split at h
  case h_1 rest =>
    obtain ⟨found, hfound, heq⟩ := Option.map_eq_some_iff.mp h
    cases heq
    obtain ⟨t, ht⟩ := (stringBody_squeezed hfound).1 (squeezedTail rest) (Nat.le_refl _)
    rw [squeezedTail_char (by decide)]
    exact ⟨'"' :: t, by rw [interpretedString, ht, Option.map_some]⟩
  case h_2 => cases h

theorem runeLiteral_squeezed {s taken left : List Char} (h : runeLiteral s = some (taken, left)) :
    ∃ t, runeLiteral (squeezedTail s) = some (t, squeezedTail left) := by
  have hquote : isBlank '\'' = false := by decide
  unfold runeLiteral at h
  split at h
  case h_1 rest =>
    split at h
    case h_1 escape left' hfound =>
      cases h
      have hescape := Scan.Follows.runeEscape halts_squeezedTail rest
      rw [hfound, Option.map_some, squeezedTail_char hquote] at hescape
      rw [squeezedTail_char hquote, squeezedTail_char (by decide)]
      simp only [runeLiteral, hescape]
      exact ⟨_, rfl⟩
    case h_2 => cases h
  case h_2 c left' hescape =>
    split at h
    case isTrue => cases h
    case isFalse hc =>
      cases h
      rw [squeezedTail_char hquote]
      cases hblank : isBlank c with
      | true =>
          have hne : squeezed ('\'' :: left) ≠ [] := squeezed_ne_nil (.head left) hquote
          rw [squeezedTail_blank hblank hne, squeezed_char hquote]
          exact ⟨['\'', ' ', '\''], by simp [runeLiteral]⟩
      | false =>
          rw [squeezedTail_char hblank, squeezedTail_char hquote]
          exact ⟨['\'', c, '\''], by simp [runeLiteral, hc]⟩
  case h_3 => cases h

/-! ### The quote at the end of a literal -/

theorem rawString_ends {s taken left : List Char} (h : rawString s = some (taken, left)) :
    ∃ t, taken = t ++ ['\x60'] := by
  unfold rawString at h
  split at h
  case h_1 rest =>
    split at h
    case h_1 => cases h
    case h_2 quote left' hdrop =>
      cases h
      have hne : rest.dropWhile (· != '\x60') ≠ [] := hdrop ▸ List.cons_ne_nil _ _
      have hquote := List.head_dropWhile_not (· != '\x60') hne
      simp only [hdrop, List.head_cons, bne_eq_false_iff_eq] at hquote
      exact ⟨'\x60' :: rest.takeWhile (· != '\x60'), by rw [hquote, List.cons_append]⟩
  case h_2 => cases h

theorem stringBody_ends {bound s taken left : List Char}
    (h : stringBody bound s = some (taken, left)) : ∃ t, taken = t ++ ['"'] := by
  induction bound generalizing s taken with
  | nil => simp [stringBody] at h
  | cons b bound ih =>
      cases s with
      | nil => simp [stringBody] at h
      | cons c s =>
          rw [stringBody] at h
          split at h
          case isTrue hquote =>
            cases h
            exact ⟨[], by rw [beq_iff_eq.mp hquote, List.nil_append]⟩
          case isFalse =>
            split at h
            case isTrue => cases h
            case isFalse =>
              split at h
              case isTrue =>
                split at h
                case h_1 => cases h
                case h_2 escape after hfound =>
                  obtain ⟨rest, hrest, heq⟩ := Option.map_eq_some_iff.mp h
                  cases heq
                  obtain ⟨t, ht⟩ := ih hrest
                  exact ⟨c :: (escape ++ t), by simp [ht]⟩
              case isFalse =>
                obtain ⟨rest, hrest, heq⟩ := Option.map_eq_some_iff.mp h
                cases heq
                obtain ⟨t, ht⟩ := ih hrest
                exact ⟨c :: t, by rw [ht, List.cons_append]⟩

theorem interpretedString_ends {s taken left : List Char}
    (h : interpretedString s = some (taken, left)) : ∃ t, taken = t ++ ['"'] := by
  unfold interpretedString at h
  split at h
  case h_1 rest =>
    obtain ⟨found, hfound, heq⟩ := Option.map_eq_some_iff.mp h
    cases heq
    obtain ⟨t, ht⟩ := stringBody_ends hfound
    exact ⟨'"' :: t, by rw [ht, List.cons_append]⟩
  case h_2 => cases h

theorem runeLiteral_ends {s taken left : List Char} (h : runeLiteral s = some (taken, left)) :
    ∃ t, taken = t ++ ['\''] := by
  unfold runeLiteral at h
  split at h
  case h_1 rest =>
    split at h
    case h_1 escape left' hfound =>
      cases h
      exact ⟨'\'' :: '\\' :: escape, rfl⟩
    case h_2 => cases h
  case h_2 c left' _ =>
    split at h <;> cases h
    exact ⟨['\'', c], rfl⟩
  case h_3 => cases h

/-! ## Tokens -/

/-- No token begins with white space. -/
theorem isBlank_of_nextToken {c : Char} {s : List Char} {found : Token × List Char}
    (h : nextToken (c :: s) = some found) : isBlank c = false := by
  cases hc : isBlank c with
  | false => rfl
  | true =>
      have hquote : ∀ d, (c :: s).head? = some d → quotes.contains d = false := by
        have hnone : quotes.any isBlank = false := by decide
        rintro d ⟨⟩
        by_contra hquote
        exact List.any_eq_false.mp hnone c (by simpa using hquote) hc
      have hcut := nextToken_follows halts_takeWhile hquote (mark_follows halts_takeWhile _)
      rw [h, List.takeWhile_cons_of_neg (by simp [hc])] at hcut
      cases hcut

/-- A literal in quotes is found again, and it ends with a quote. -/
theorem quoted_squeezed {c : Char} {s token left : List Char} (hquote : quotes.contains c = true)
    (h : nextToken (c :: s) = some (token, left)) :
    ∃ t u, nextToken (squeezedTail (c :: s)) = some (t, squeezedTail left) ∧
      ∃ q, isBlank q = false ∧ token = u ++ [q] := by
  rw [squeezedTail_char (isBlank_of_nextToken h)]
  simp only [quotes, List.contains_cons, List.contains_nil, Bool.or_false, Bool.or_eq_true,
    beq_iff_eq] at hquote
  rcases hquote with rfl | rfl | rfl
  · rw [nextToken_rawString] at h ⊢
    obtain ⟨t, ht⟩ := rawString_squeezed h
    obtain ⟨u, hu⟩ := rawString_ends h
    exact ⟨t, u, by rwa [squeezedTail_char (by decide)] at ht, _, by decide, hu⟩
  · rw [nextToken_interpretedString] at h ⊢
    obtain ⟨t, ht⟩ := interpretedString_squeezed h
    obtain ⟨u, hu⟩ := interpretedString_ends h
    exact ⟨t, u, by rwa [squeezedTail_char (by decide)] at ht, _, by decide, hu⟩
  · rw [nextToken_runeLiteral] at h ⊢
    obtain ⟨t, ht⟩ := runeLiteral_squeezed h
    obtain ⟨u, hu⟩ := runeLiteral_ends h
    exact ⟨t, u, by rwa [squeezedTail_char (by decide)] at ht, _, by decide, hu⟩

/-- **The first token of a squeezed text** is the first token of the text, squeezed. -/
theorem nextToken_squeezed {s token left : List Char} (h : nextToken s = some (token, left)) :
    nextToken (squeezedTail s) = some (squeezed token, squeezedTail left) := by
  cases s with
  | nil => cases h
  | cons c s =>
      cases hquote : quotes.contains c with
      | true =>
          obtain ⟨t, u, ht, q, hq, rfl⟩ := quoted_squeezed hquote h
          -- The texts of the tokens are what stands in front of the same rest.
          have htaken := nextToken_takes h
          have hcut := (squeezed_append hq u left).2
          rw [← List.singleton_append, ← List.append_assoc, htaken,
            squeezed_char (isBlank_of_nextToken h), ← squeezedTail_char (isBlank_of_nextToken h),
            ← nextToken_takes ht] at hcut
          rw [ht, List.append_cancel_right hcut]
      | false =>
          have hplain : ∀ d, (c :: s).head? = some d → quotes.contains d = false := by
            rintro d ⟨⟩
            exact hquote
          rw [nextToken_follows halts_squeezedTail hplain (mark_follows halts_squeezedTail _), h,
            Option.map_some, (squeezed_eq_self (isBlank_of_mem_token h hplain)).2]

/-- A line break stands in no squeezed text. -/
theorem newline_notMem_squeezed (s : List Char) : '\n' ∉ squeezedTail s ∧ '\n' ∉ squeezed s := by
  have hspace := eq_space_of_mem_squeezed (c := '\n') (s := s) (by decide)
  exact ⟨fun h => absurd (hspace.1 h) (by decide), fun h => absurd (hspace.2 h) (by decide)⟩

end FluentBuilder.Go

import Mathlib.Tactic.IntervalCases
import FluentBuilder.Json

/-!
# JSON — the text of a blueprint determines it

A quoted text ends at its first quote that is not escaped, so it can be read back whatever stands
behind it. The other pieces of a text are fixed, and behind a member stands a comma or a line
break: this tells where the members end.

* **`readQuoted_escaped`** — a quoted text is read back.
* **`Blueprint.toJson_injective`** — no two blueprints have the same text.
-/

namespace FluentBuilder.Json

/-! ## Quoted texts -/

/-- The value of a digit of the hexadecimal system. -/
def hexValue (digit : Char) : Nat :=
  if digit.toNat < 0x3a then digit.toNat - 0x30 else digit.toNat - 0x57

/-- The character that is meant by one behind a backslash. -/
def unescaped (c : Char) : Char :=
  if c == 'n' then '\n'
  else if c == 'r' then '\r'
  else if c == 't' then '\t'
  else if c == 'b' then '\x08'
  else if c == 'f' then '\x0c'
  else c

/-- The text in front of a closing quote, and what stands behind the quote. -/
def readQuoted : List Char → Option (List Char × List Char)
  | [] => none
  | '"' :: rest => some ([], rest)
  | '\\' :: 'u' :: _ :: _ :: high :: low :: rest => do
    let (text, behind) ← readQuoted rest
    return (Char.ofNat (16 * hexValue high + hexValue low) :: text, behind)
  | '\\' :: c :: rest => do
    let (text, behind) ← readQuoted rest
    return (unescaped c :: text, behind)
  | c :: rest => do
    let (text, behind) ← readQuoted rest
    return (c :: text, behind)

/-- A digit has its value. -/
theorem hexValue_hexDigit {n : Nat} (h : n < 16) : hexValue (hexDigit n) = n := by
  interval_cases n <;> rfl

/-- An escaped character is read as one character. -/
theorem readQuoted_escapeChar (c : Char) (rest : List Char) :
    readQuoted (escapeChar c ++ rest) = (do
      let (text, behind) ← readQuoted rest
      return (c :: text, behind)) := by
  unfold escapeChar
  simp only [beq_iff_eq]
  split_ifs with hquote hbackslash hn hr ht hb hf hcontrol
  · subst hquote; rfl
  · subst hbackslash; rfl
  · subst hn; rfl
  · subst hr; rfl
  · subst ht; rfl
  · subst hb; rfl
  · subst hf; rfl
  · -- both digits together give back the number of the character
    have hvalue : 16 * hexValue (hexDigit (c.toNat / 16)) + hexValue (hexDigit (c.toNat % 16)) =
        c.toNat := by
      rw [hexValue_hexDigit (by omega), hexValue_hexDigit (by omega)]
      omega
    simp only [List.cons_append, List.nil_append, readQuoted, hvalue, Char.ofNat_toNat]
  · simp [readQuoted, hbackslash]

/-- **A quoted text is read back**, whatever stands behind it. -/
theorem readQuoted_escaped (text rest : List Char) :
    readQuoted (text.flatMap escapeChar ++ '"' :: rest) = some (text, rest) := by
  induction text with
  | nil => rfl
  | cons c text ih =>
      rw [List.flatMap_cons, List.append_assoc, readQuoted_escapeChar, ih]
      rfl

/-- The characters of a quoted text. -/
theorem quoted_toList (text : String) :
    (quoted text).toList = '"' :: (text.toList.flatMap escapeChar ++ ['"']) := by
  rw [quoted, String.toList_ofList, List.cons_append]

/-- A quoted text ends in one way. -/
theorem quoted_append_cancel {a b : String} {rest rest' : List Char}
    (h : (quoted a).toList ++ rest = (quoted b).toList ++ rest') : a = b ∧ rest = rest' := by
  have hread : ∀ (text : String) (rest : List Char),
      readQuoted ((quoted text).toList ++ rest).tail = some (text.toList, rest) := by
    intro text rest
    have := readQuoted_escaped text.toList rest
    rwa [quoted_toList, List.cons_append, List.tail_cons, List.append_assoc]
  have hsame := hread a rest
  rw [h, hread b rest'] at hsame
  obtain ⟨htext, hrest⟩ := Prod.mk.inj (Option.some.inj hsame)
  exact ⟨String.toList_inj.mp htext.symm, hrest.symm⟩

/-! ## Lines -/

/-- Lines, each below what stands in front of it. -/
def beneath (lines : List String) : List Char := lines.flatMap fun line => '\n' :: line.toList

/-- A text is its first line with the others beneath. -/
theorem intercalate_toList (line : String) (lines : List String) :
    ("\n".intercalate (line :: lines)).toList = line.toList ++ beneath lines := by
  induction lines generalizing line with
  | nil => simp [beneath]
  | cons next lines ih =>
      rw [String.intercalate_cons_cons, String.toList_append, String.toList_append, ih]
      simp [beneath]

/-! ## Members -/

/-- The text of a member. -/
def memberText (member : Member) : List Char := beneath (memberLines member)

/-- The name and the signature of a member stand between fixed texts. -/
theorem memberText_append (member : Member) (rest : List Char) :
    memberText member ++ rest =
      "\n    \x7b\n      \"name\": ".toList ++ ((quoted member.name).toList ++
        (",\n      \"type_signature\": ".toList ++ ((quoted member.signature).toList ++
          ("\n    \x7d".toList ++ rest)))) := by
  simp [memberText, beneath, memberLines, toString]

/-- The text of a member ends in one way. -/
theorem memberText_append_cancel {a b : Member} {rest rest' : List Char}
    (h : memberText a ++ rest = memberText b ++ rest') : a = b ∧ rest = rest' := by
  rw [memberText_append, memberText_append] at h
  obtain ⟨hname, hbehind⟩ := quoted_append_cancel (List.append_cancel_left h)
  obtain ⟨hsignature, hend⟩ := quoted_append_cancel (List.append_cancel_left hbehind)
  have hrest := List.append_cancel_left hend
  cases a
  cases b
  cases hname
  cases hsignature
  exact ⟨rfl, hrest⟩

/-- Behind a member that is not the last one stands a comma. -/
theorem beneath_membersLines_cons (member next : Member) (rest : List Member) :
    beneath (membersLines (member :: next :: rest)) =
      memberText member ++ ',' :: beneath (membersLines (next :: rest)) := by
  simp [membersLines, memberText, beneath, memberLines]

/-- **The text of members determines them** if a line break stands behind it. -/
theorem membersLines_injective {members members' : List Member} {rest rest' : List Char}
    (hne : members ≠ []) (hne' : members' ≠ [])
    (h : beneath (membersLines members) ++ '\n' :: rest =
      beneath (membersLines members') ++ '\n' :: rest') : members = members' := by
  induction members generalizing members' with
  | nil => exact absurd rfl hne
  | cons a others ih =>
      cases members' with
      | nil => exact absurd rfl hne'
      | cons b others' =>
          -- a comma or a line break behind the first member tells whether it is the last one
          cases others with
          | nil =>
              cases others' with
              | nil =>
                  obtain ⟨rfl, -⟩ := memberText_append_cancel h
                  rfl
              | cons next' rest' =>
                  rw [beneath_membersLines_cons, List.append_assoc] at h
                  obtain ⟨-, hcomma⟩ := memberText_append_cancel h
                  cases hcomma
          | cons next rest =>
              cases others' with
              | nil =>
                  rw [beneath_membersLines_cons, List.append_assoc] at h
                  obtain ⟨-, hcomma⟩ := memberText_append_cancel h
                  cases hcomma
              | cons next' rest' =>
                  rw [beneath_membersLines_cons, beneath_membersLines_cons, List.append_assoc,
                    List.append_assoc] at h
                  obtain ⟨rfl, hothers⟩ := memberText_append_cancel h
                  rw [ih (List.cons_ne_nil _ _) (List.cons_ne_nil _ _) (List.cons.inj hothers).2]

/-! ## Blueprints -/

/-- The text below the key of the members. -/
def fieldsText (members : List Member) : List Char :=
  if members.isEmpty then "]\n\x7d".toList
  else beneath (membersLines members) ++ '\n' :: "  ]\n\x7d".toList

/-- The package, the target and the members of a blueprint stand between fixed texts. -/
theorem toJson_toList (blueprint : Blueprint) :
    blueprint.toJson.toList =
      "\x7b\n  \"module_name\": ".toList ++ ((quoted blueprint.package).toList ++
        (",\n  \"target_name\": ".toList ++ ((quoted blueprint.target).toList ++
          (",\n  \"fields\": [".toList ++ fieldsText blueprint.members)))) := by
  have hlines : Json.lines blueprint = "\x7b" :: (Json.lines blueprint).tail := rfl
  rw [Blueprint.toJson, hlines, intercalate_toList]
  unfold Json.lines fieldsText
  cases blueprint.members with
  | nil => simp [beneath, toString]
  | cons member rest => simp [beneath, toString]

/-- The text below the key of the members determines them. -/
theorem fieldsText_injective {members members' : List Member}
    (h : fieldsText members = fieldsText members') : members = members' := by
  have hopen : ∀ (member : Member) (rest : List Member),
      fieldsText (member :: rest) ≠ fieldsText [] := by
    intro member rest
    obtain ⟨lines, hlines⟩ : ∃ lines, membersLines (member :: rest) = "    \x7b" :: lines := by
      cases rest <;> exact ⟨_, rfl⟩
    simp [fieldsText, beneath, hlines]
  cases members with
  | nil =>
      cases members' with
      | nil => rfl
      | cons member rest => exact absurd h.symm (hopen member rest)
  | cons member rest =>
      cases members' with
      | nil => exact absurd h (hopen member rest)
      | cons member' rest' =>
          exact membersLines_injective (List.cons_ne_nil _ _) (List.cons_ne_nil _ _) h

end Json

/-- **The text of a blueprint determines it.** -/
theorem Blueprint.toJson_injective {a b : Blueprint} (h : a.toJson = b.toJson) : a = b := by
  have hchars := congrArg String.toList h
  rw [Json.toJson_toList, Json.toJson_toList] at hchars
  obtain ⟨hpackage, hbehind⟩ := Json.quoted_append_cancel (List.append_cancel_left hchars)
  obtain ⟨htarget, hfields⟩ := Json.quoted_append_cancel (List.append_cancel_left hbehind)
  have hmembers := Json.fieldsText_injective (List.append_cancel_left hfields)
  cases a
  cases b
  cases hpackage
  cases htarget
  cases hmembers
  rfl

end FluentBuilder

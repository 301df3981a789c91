import FluentBuilder.Go.Tag.Bytes
import FluentBuilder.Proofs.ByteEscapes
import FluentBuilder.Proofs.Tags

/-!
# Boundaries — the search of a tag stays in the text and cuts no character

A backslash in a value takes the byte behind it along, so the scan for the closing quote may stand
in the middle of a character. What it looks for are bytes below 128, and such a byte is a character
of its own. So wherever a name or a value ends there are boundaries on both sides of the byte that
ends it, and the search on bytes cuts the tag where the search on characters does.

* **`isBoundary_of_byteAt`** — there are boundaries on both sides of a byte below 128.
* **`exists_closingQuote`** — the scan for a quote ends from any offset on.
* **`closingQuote_body`** — from the front of a value on, it ends where the characters of it do.
* **`readPair_eq`** — a pair is read without a fault, and as it is read from the characters.
* **`scan_never_faults`** — the reads, the cuts, the rounds and the whole search.
-/

namespace FluentBuilder.Go.Tag

/-! ## The bytes of a text -/

theorem bytesOf_append (a b : List Char) : bytesOf (a ++ b) = bytesOf a ++ bytesOf b :=
  List.flatMap_append

theorem bytesOf_cons (c : Char) (cs : List Char) :
    bytesOf (c :: cs) = String.utf8EncodeChar c ++ bytesOf cs :=
  List.flatMap_cons

/-- A character of one byte adds one to the size of a text. -/
theorem length_bytesOf_concat {c : Char} {b : UInt8} (hc : String.utf8EncodeChar c = [b])
    (cs : List Char) : (bytesOf (cs ++ [c])).length = (bytesOf cs).length + 1 := by
  rw [bytesOf_append, List.length_append, bytesOf_cons, hc]
  rfl

theorem toByteArray_eq (s : String) : s.toByteArray = (bytesOf s.toList).toByteArray :=
  String.utf8Encode_toList.symm

theorem utf8ByteSize_eq (s : String) : s.utf8ByteSize = (bytesOf s.toList).length := by
  rw [← String.size_toByteArray, toByteArray_eq, List.size_toByteArray]

/-- A byte is read where the text has it. -/
theorem byteAt_eq_ok_iff {s : String} {i : Nat} {b : UInt8} :
    byteAt s i = .ok b ↔ (bytesOf s.toList)[i]? = some b := by
  rw [byteAt, List.getElem?_eq_some_iff]
  simp only [toByteArray_eq s, List.getElem_toByteArray, List.size_toByteArray]
  split
  · next hlt =>
    rw [Except.ok.injEq]
    exact ⟨fun h => ⟨hlt, h⟩, fun ⟨_, h⟩ => h⟩
  · next hge => exact ⟨nofun, fun ⟨hlt, _⟩ => absurd hlt hge⟩

theorem exists_byteAt {s : String} {i : Nat} (h : i < s.utf8ByteSize) :
    ∃ b, byteAt s i = .ok b :=
  ⟨_, dif_pos h⟩

/-- The first byte of a part of a text is read where the part begins. -/
theorem byteAt_of_toList {s : String} {a rest : List Char} {c : Char}
    (h : s.toList = a ++ c :: rest) {b : UInt8} {bs : List UInt8}
    (hc : String.utf8EncodeChar c = b :: bs) : byteAt s (bytesOf a).length = .ok b := by
  rw [byteAt_eq_ok_iff, h, bytesOf_append, bytesOf_cons, hc, List.cons_append,
    List.getElem?_append_right (Nat.le_refl _), Nat.sub_self, List.getElem?_cons_zero]

/-- Only the character with its number has a byte below 128. -/
theorem toNat_eq_of_mem_utf8EncodeChar {c : Char} {b : UInt8} (hb : b < 0x80)
    (hmem : b ∈ String.utf8EncodeChar c) : c.toNat = b.toNat := by
  have hlow : c.toNat ≤ 0x7f := by
    by_contra hhigh
    have hle : 0x80 ≤ b.toNat := le_of_mem_utf8EncodeChar (Nat.lt_of_not_le hhigh) hmem
    exact absurd (UInt8.lt_iff_toNat_lt.mp hb) (Nat.not_lt.mpr hle)
  rw [utf8EncodeChar_of_le hlow, List.mem_singleton] at hmem
  rw [hmem, UInt8.toNat_ofNat_of_lt' (Nat.lt_of_le_of_lt hlow (by decide))]

/-- A character with a byte below 128 has no other byte. -/
theorem utf8EncodeChar_eq_singleton {c : Char} {b : UInt8} (hb : b < 0x80)
    (hmem : b ∈ String.utf8EncodeChar c) : String.utf8EncodeChar c = [b] := by
  have hnat : c.toNat = b.toNat := toNat_eq_of_mem_utf8EncodeChar hb hmem
  have hlow : c.toNat ≤ 0x7f := by
    rw [hnat]
    exact Nat.le_of_lt_succ (UInt8.lt_iff_toNat_lt.mp hb)
  rw [utf8EncodeChar_of_le hlow, hnat, UInt8.ofNat_toNat]

/-- Only the character itself has the byte of one of the first 128 characters. -/
theorem eq_of_toUInt8_mem {c d : Char} (hd : d.toNat ≤ 0x7f)
    (h : d.toUInt8 ∈ String.utf8EncodeChar c) : c = d := by
  have hbyte : d.toUInt8.toNat = d.toNat :=
    (UInt32.toNat_toUInt8 d.val).trans (Nat.mod_eq_of_lt (Nat.lt_of_le_of_lt hd (by decide)))
  have hlow : d.toUInt8 < 0x80 := by
    rw [UInt8.lt_iff_toNat_lt, hbyte]
    exact Nat.lt_succ_of_le hd
  exact Char.toNat_inj.mp ((toNat_eq_of_mem_utf8EncodeChar hlow h).trans hbyte)

/-- Behind its first byte, a character has only bytes from 128 on. -/
theorem le_of_mem_tail_utf8EncodeChar {c : Char} {b : UInt8}
    (h : b ∈ (String.utf8EncodeChar c).tail) : 0x80 ≤ b := by
  by_contra hlt
  have hsingle := utf8EncodeChar_eq_singleton (UInt8.not_le.mp hlt) (List.mem_of_mem_tail h)
  rw [hsingle] at h
  cases h

/-- **A byte below 128 is a character of its own.** -/
theorem exists_char_of_getElem? {cs : List Char} {i : Nat} {b : UInt8} (hb : b < 0x80)
    (h : (bytesOf cs)[i]? = some b) :
    ∃ (before : List Char) (c : Char) (after : List Char),
      cs = before ++ c :: after ∧ i = (bytesOf before).length ∧ String.utf8EncodeChar c = [b] := by
  induction cs generalizing i with
  | nil => cases h
  | cons c cs ih =>
      rw [bytesOf_cons] at h
      rcases Nat.lt_or_ge i (String.utf8EncodeChar c).length with hin | hbehind
      · rw [List.getElem?_append_left hin] at h
        have hsingle := utf8EncodeChar_eq_singleton hb (List.mem_of_getElem? h)
        have hi : i = 0 := by
          rw [hsingle, List.length_singleton] at hin
          omega
        exact ⟨[], c, cs, rfl, hi, hsingle⟩
      · rw [List.getElem?_append_right hbehind] at h
        obtain ⟨before, d, after, rfl, hi, hd⟩ := ih h
        refine ⟨c :: before, d, after, rfl, ?_, hd⟩
        rw [bytesOf_cons, List.length_append]
        omega

/-- Between two parts of a text there is a boundary. -/
theorem isBoundary_of_toList {s : String} {a b : List Char} (h : s.toList = a ++ b) :
    IsBoundary s (bytesOf a).length := by
  have hs : s = String.ofList a ++ String.ofList b := by
    rw [← String.ofList_append, ← h, String.ofList_toList]
  have hsize : (bytesOf a).length = (String.ofList a).utf8ByteSize := by
    rw [utf8ByteSize_eq, String.toList_ofList]
  refine String.Pos.Raw.isValid_iff_exists_append.mpr ⟨_, _, hs, ?_⟩
  exact String.Pos.Raw.ext hsize

/-- **On both sides of a byte below 128** there are boundaries. -/
theorem isBoundary_of_byteAt {s : String} {i : Nat} {b : UInt8} (hb : b < 0x80)
    (h : byteAt s i = .ok b) : IsBoundary s i ∧ IsBoundary s (i + 1) := by
  obtain ⟨before, c, after, hs, rfl, hc⟩ := exists_char_of_getElem? hb (byteAt_eq_ok_iff.mp h)
  refine ⟨isBoundary_of_toList hs, ?_⟩
  rw [← length_bytesOf_concat hc before]
  exact isBoundary_of_toList (b := after) (by rw [hs, List.append_cons])

/-- What stands between two parts of a text is cut out whole. -/
theorem cut_of_toList {s : String} {a b c : List Char} (h : s.toList = a ++ b ++ c) :
    cut s (bytesOf a).length (bytesOf (a ++ b)).length = .ok (String.ofList b) := by
  have hfirst : IsBoundary s (bytesOf a).length :=
    isBoundary_of_toList (b := b ++ c) (by rw [h, List.append_assoc])
  have hlast : (bytesOf (a ++ b)).length =
      (bytesOf a).toByteArray.size + (bytesOf b).toByteArray.size := by
    rw [bytesOf_append, List.length_append, List.size_toByteArray, List.size_toByteArray]
  have hle : (bytesOf a).length ≤ (bytesOf (a ++ b)).length := by
    rw [hlast, List.size_toByteArray]
    omega
  have hbytes : s.toByteArray =
      (bytesOf a).toByteArray ++ ((bytesOf b).toByteArray ++ (bytesOf c).toByteArray) := by
    rw [toByteArray_eq, h, bytesOf_append, bytesOf_append, List.toByteArray_append,
      List.toByteArray_append, ByteArray.append_assoc]
  rw [cut, dif_pos ⟨hle, hfirst, isBoundary_of_toList h⟩]
  congr 1
  rw [← String.toByteArray_inj]
  calc s.toByteArray.extract (bytesOf a).length (bytesOf (a ++ b)).length
      = s.toByteArray.extract ((bytesOf a).toByteArray.size + 0)
          ((bytesOf a).toByteArray.size + (bytesOf b).toByteArray.size) := by
        rw [hlast, Nat.add_zero, List.size_toByteArray]
    _ = ((bytesOf b).toByteArray ++ (bytesOf c).toByteArray).extract 0
          (bytesOf b).toByteArray.size := by rw [hbytes, ByteArray.extract_append_size_add]
    _ = (bytesOf b).toByteArray := ByteArray.extract_append_eq_left rfl
    _ = (String.ofList b).toByteArray := by rw [toByteArray_eq, String.toList_ofList]

/-- What stands behind a part of a text is cut out up to its end. -/
theorem cut_rest_of_toList {s : String} {a b : List Char} (h : s.toList = a ++ b) :
    cut s (bytesOf a).length s.utf8ByteSize = .ok (String.ofList b) := by
  rw [utf8ByteSize_eq, h]
  exact cut_of_toList (c := []) (by rw [h, List.append_nil])

/-- What stands in front is cut out from the beginning of the text. -/
theorem cut_front_of_toList {s : String} {a b : List Char} (h : s.toList = a ++ b) :
    cut s 0 (bytesOf a).length = .ok (String.ofList a) :=
  cut_of_toList (a := []) h

/-! ## Looking for the closing quote -/

theorem closingQuote_of_le {s : String} {i : Nat} (h : s.utf8ByteSize ≤ i) :
    closingQuote s i = .ok i := by
  rw [closingQuote, if_neg (Nat.not_lt.mpr h)]

theorem closingQuote_of_byteAt {s : String} {i : Nat} {b : UInt8} (h : byteAt s i = .ok b) :
    closingQuote s i =
      if b = '"'.toUInt8 then .ok i
      else if b = '\\'.toUInt8 then closingQuote s (i + 2)
      else closingQuote s (i + 1) := by
  have hlt : i < s.utf8ByteSize := by
    rw [utf8ByteSize_eq]
    exact (List.getElem?_eq_some_iff.mp (byteAt_eq_ok_iff.mp h)).1
  rw [closingQuote, if_pos hlt, h]
  rfl

/-- **The scan for a quote ends** from any offset on, with no read out of range. It ends at most one
    byte behind the text, and inside the text only at a quote. -/
theorem exists_closingQuote {s : String} {i : Nat} (h : i ≤ s.utf8ByteSize + 1) :
    ∃ close, closingQuote s i = .ok close ∧ close ≤ s.utf8ByteSize + 1 ∧
      (close < s.utf8ByteSize → byteAt s close = .ok '"'.toUInt8) := by
  induction hleft : s.utf8ByteSize - i using Nat.strongRecOn generalizing i with
  | _ n ih =>
      rcases Nat.lt_or_ge i s.utf8ByteSize with hlt | hge
      · obtain ⟨b, hb⟩ := exists_byteAt hlt
        rw [closingQuote_of_byteAt hb]
        split_ifs with hquote hbackslash
        · exact ⟨i, rfl, h, fun _ => hquote ▸ hb⟩
        · exact ih _ (by omega) (by omega) rfl
        · exact ih _ (by omega) (by omega) rfl
      · exact ⟨i, closingQuote_of_le hge, h, fun hlt => absurd hlt (Nat.not_lt.mpr hge)⟩

/-- Bytes that are neither quotes nor backslashes are passed over. -/
theorem closingQuote_skip {s : String} {before bytes after : List UInt8}
    (h : bytesOf s.toList = before ++ bytes ++ after)
    (hbytes : ∀ b ∈ bytes, b ≠ '"'.toUInt8 ∧ b ≠ '\\'.toUInt8) :
    closingQuote s before.length = closingQuote s (before ++ bytes).length := by
  induction bytes generalizing before with
  | nil => rw [List.append_nil]
  | cons b bytes ih =>
      have hread : byteAt s before.length = .ok b := by
        rw [byteAt_eq_ok_iff, h, List.append_assoc, List.getElem?_append_right (Nat.le_refl _),
          Nat.sub_self]
        rfl
      obtain ⟨⟨hquote, hbackslash⟩, hbytes⟩ := List.forall_mem_cons.mp hbytes
      rw [closingQuote_of_byteAt hread, if_neg hquote, if_neg hbackslash, List.append_cons]
      rw [List.append_cons] at h
      rw [← ih h hbytes, List.length_append, List.length_singleton]

/-- A character that is neither a quote nor a backslash is passed over. -/
theorem closingQuote_plain {s : String} {before after : List Char} {c : Char}
    (h : s.toList = before ++ c :: after) (hquote : c ≠ '"') (hbackslash : c ≠ '\\') :
    closingQuote s (bytesOf before).length = closingQuote s (bytesOf (before ++ [c])).length := by
  have hc : bytesOf [c] = String.utf8EncodeChar c := List.append_nil _
  have hsplit : bytesOf s.toList =
      bytesOf before ++ String.utf8EncodeChar c ++ bytesOf after := by
    rw [h, bytesOf_append, bytesOf_cons, List.append_assoc]
  rw [bytesOf_append, hc]
  refine closingQuote_skip hsplit fun b hb => ⟨?_, ?_⟩
  · rintro rfl
    exact hquote (eq_of_toUInt8_mem (by decide) hb)
  · rintro rfl
    exact hbackslash (eq_of_toUInt8_mem (by decide) hb)

/-- A backslash is passed over with the character behind it. -/
theorem closingQuote_escaped {s : String} {before after : List Char} {c : Char}
    (h : s.toList = before ++ '\\' :: c :: after) :
    closingQuote s (bytesOf before).length =
      closingQuote s (bytesOf (before ++ ['\\', c])).length := by
  have hread : byteAt s (bytesOf before).length = .ok '\\'.toUInt8 := byteAt_of_toList h rfl
  obtain ⟨b, bs, hc⟩ := List.exists_cons_of_ne_nil (String.utf8EncodeChar_ne_nil (c := c))
  have hbytes : bytesOf (before ++ ['\\', c]) = bytesOf before ++ ['\\'.toUInt8, b] ++ bs := by
    rw [bytesOf_append, bytesOf_cons, bytesOf_cons, hc, List.append_assoc]
    exact congrArg (_ ++ _ :: _ :: ·) (List.append_nil bs)
  have hsplit : bytesOf s.toList =
      bytesOf before ++ ['\\'.toUInt8, b] ++ bs ++ bytesOf after := by
    rw [← hbytes, ← bytesOf_append, h, List.append_assoc]
    rfl
  -- The scan stands behind the first byte of the character; the others are no quotes.
  have hskip : closingQuote s (bytesOf before ++ ['\\'.toUInt8, b]).length =
      closingQuote s (bytesOf before ++ ['\\'.toUInt8, b] ++ bs).length := by
    refine closingQuote_skip hsplit fun d hd => ?_
    have hle : 0x80 ≤ d := le_of_mem_tail_utf8EncodeChar (c := c) (by rw [hc]; exact hd)
    constructor
    all_goals
      rintro rfl
      exact absurd hle (by decide)
  rw [closingQuote_of_byteAt hread, if_neg (by decide), if_pos rfl, hbytes, ← hskip,
    List.length_append]
  rfl

/-- The scan passes over a body and ends at the quote behind it. -/
theorem closingQuote_body {s : String} {before body after : List Char} (hbody : IsBody body)
    (h : s.toList = before ++ body ++ '"' :: after) :
    closingQuote s (bytesOf before).length = .ok (bytesOf (before ++ body)).length := by
  induction hbody generalizing before with
  | nil =>
      have hread : byteAt s (bytesOf before).length = .ok '"'.toUInt8 :=
        byteAt_of_toList (by simpa using h) rfl
      rw [closingQuote_of_byteAt hread, if_pos rfl, List.append_nil]
  | @plain c body hquote hbackslash _ ih =>
      have hsplit : before ++ c :: body = before ++ [c] ++ body := by simp
      have hfirst : s.toList = before ++ c :: (body ++ '"' :: after) := by rw [h]; simp
      rw [hsplit] at h ⊢
      rw [← ih h, closingQuote_plain hfirst hquote hbackslash]
  | @escaped c body _ ih =>
      have hsplit : before ++ '\\' :: c :: body = before ++ ['\\', c] ++ body := by simp
      have hfirst : s.toList = before ++ '\\' :: c :: (body ++ '"' :: after) := by rw [h]; simp
      rw [hsplit] at h ⊢
      rw [← ih h, closingQuote_escaped hfirst]

/-- Where no body ends, the scan ends behind the text. -/
theorem closingQuote_of_cutQuote_eq_none {s : String} {before after : List Char}
    (hnone : cutQuote after = none) (h : s.toList = before ++ after) :
    ∃ close, closingQuote s (bytesOf before).length = .ok close ∧ s.utf8ByteSize ≤ close := by
  induction after using cutQuote.induct generalizing before with
  | case1 =>
      have hsize : s.utf8ByteSize ≤ (bytesOf before).length := by
        rw [utf8ByteSize_eq, h, List.append_nil]
      exact ⟨_, closingQuote_of_le hsize, hsize⟩
  | case2 =>
      have hread : byteAt s (bytesOf before).length = .ok '\\'.toUInt8 := byteAt_of_toList h rfl
      have hsize : s.utf8ByteSize ≤ (bytesOf before).length + 2 := by
        rw [utf8ByteSize_eq, h, bytesOf_append, List.length_append]
        exact Nat.add_le_add_left (by decide) _
      refine ⟨_, ?_, hsize⟩
      rw [closingQuote_of_byteAt hread, if_neg (by decide), if_pos rfl, closingQuote_of_le hsize]
  | case3 c rest ih =>
      rw [cutQuote, Option.map_eq_none_iff] at hnone
      rw [closingQuote_escaped h]
      exact ih hnone (by rw [h]; simp)
  | case4 c rest hlone hescape hquote =>
      rw [cutQuote.eq_4 c rest hlone hescape, if_pos hquote] at hnone
      cases hnone
  | case5 c rest hlone hescape hquote ih =>
      have hbackslash : c ≠ '\\' := by
        intro heq
        cases rest with
        | nil => exact hlone heq rfl
        | cons d rest => exact hescape d rest heq rfl
      rw [cutQuote_cons hbackslash, if_neg hquote, Option.map_eq_none_iff] at hnone
      rw [closingQuote_plain h (by simpa using hquote) hbackslash]
      exact ih hnone (by rw [h]; simp)

/-! ## Reading a pair -/

theorem endsName_iff {b : UInt8} : endsName b = true ↔ ¬ IsNameByte b := by
  simp only [endsName, IsNameByte, Bool.or_eq_true, decide_eq_true_eq, beq_iff_eq, not_and_or,
    not_not, UInt8.not_lt, or_assoc]
  rfl

theorem lt_of_endsName {b : UInt8} (h : endsName b = true) : b < 0x80 := by
  simp only [endsName, Bool.or_eq_true, decide_eq_true_eq, beq_iff_eq, or_assoc] at h
  rcases h with hle | rfl | rfl | rfl
  · exact UInt8.lt_of_le_of_lt hle (by decide)
  all_goals decide

/-- The name in front ends at a boundary, and there is another one behind the byte that ends it. -/
theorem isBoundary_nameEnd (s : String) :
    nameEnd s ≤ s.utf8ByteSize ∧ IsBoundary s (nameEnd s) ∧
      (nameEnd s < s.utf8ByteSize → IsBoundary s (nameEnd s + 1)) := by
  have hend : nameEnd s = (bytesOf s.toList).findIdx endsName := by
    rw [nameEnd, toByteArray_eq, List.toList_data_toByteArray]
  have hle : nameEnd s ≤ s.utf8ByteSize := by
    rw [hend, utf8ByteSize_eq]
    exact List.findIdx_le_length
  have hinside (hlt : nameEnd s < s.utf8ByteSize) :
      IsBoundary s (nameEnd s) ∧ IsBoundary s (nameEnd s + 1) := by
    obtain ⟨b, hb⟩ := exists_byteAt hlt
    obtain ⟨_, hget⟩ := List.getElem?_eq_some_iff.mp (byteAt_eq_ok_iff.mp hb)
    have hends : endsName b = true := by
      rw [← hget]
      simp only [hend]
      exact List.findIdx_getElem
    exact isBoundary_of_byteAt (lt_of_endsName hends) hb
  refine ⟨hle, ?_, fun hlt => (hinside hlt).2⟩
  rcases Nat.lt_or_eq_of_le hle with hlt | heq
  · exact (hinside hlt).1
  · rw [heq, utf8ByteSize_eq]
    exact isBoundary_of_toList (List.append_nil _).symm

/-- A character that may not stand in a name is one byte that ends it. -/
theorem exists_endsName {c : Char} (h : ¬ isNameChar c = true) :
    ∃ b, String.utf8EncodeChar c = [b] ∧ endsName b = true := by
  simp only [isNameChar_iff, not_forall] at h
  obtain ⟨b, hmem, hb⟩ := h
  have hends : endsName b = true := endsName_iff.mpr hb
  exact ⟨b, utf8EncodeChar_eq_singleton (lt_of_endsName hends) hmem, hends⟩

/-- The bytes of a name end where its characters do. -/
theorem findIdx_endsName (cs : List Char) :
    (bytesOf cs).findIdx endsName = (bytesOf (cs.takeWhile isNameChar)).length := by
  induction cs with
  | nil => rfl
  | cons c cs ih =>
      by_cases hc : isNameChar c = true
      · have hnone : (String.utf8EncodeChar c).findIdx endsName =
            (String.utf8EncodeChar c).length := by
          rw [List.findIdx_eq_length]
          intro b hb
          rw [← Bool.not_eq_true, endsName_iff, not_not]
          exact isNameChar_iff.mp hc b hb
        rw [List.takeWhile_cons_of_pos hc, bytesOf_cons, bytesOf_cons, List.findIdx_append, hnone,
          if_neg (Nat.lt_irrefl _), ih, List.length_append, Nat.add_comm]
      · obtain ⟨b, hbytes, hends⟩ := exists_endsName hc
        rw [List.takeWhile_cons_of_neg hc, bytesOf_cons, hbytes, List.singleton_append,
          List.findIdx_cons, hends]
        rfl

theorem nameEnd_eq (s : String) :
    nameEnd s = (bytesOf (s.toList.takeWhile isNameChar)).length := by
  rw [nameEnd, toByteArray_eq, List.toList_data_toByteArray, findIdx_endsName]

/-- A value is read from its bytes as it is read from its characters. -/
theorem readValue_eq {s : String} {after : List Char} (h : s.toList = '"' :: after) :
    readValue s = .ok ((cutQuote after).map fun (body, rest) =>
      (String.ofList ('"' :: body), String.ofList rest)) := by
  have hquote : (bytesOf ['"']).length = 1 := rfl
  cases hcut : cutQuote after with
  | none =>
      have hsplit : s.toList = ['"'] ++ after := h
      obtain ⟨close, hclose, hsize⟩ := closingQuote_of_cutQuote_eq_none hcut hsplit
      rw [hquote] at hclose
      rw [readValue, hclose, ok_bind, if_pos hsize]
      rfl
  | some found =>
      obtain ⟨quoted, rest⟩ := found
      obtain ⟨body, hbody, rfl, rfl⟩ := exists_body_of_cutQuote hcut
      have hsplit : s.toList = ['"'] ++ body ++ ['"'] ++ rest := by rw [h]; simp
      have hclose : closingQuote s (bytesOf ['"']).length =
          .ok (bytesOf (['"'] ++ body)).length :=
        closingQuote_body hbody (by rw [hsplit, List.append_assoc]; rfl)
      have hnext : (bytesOf (['"'] ++ body ++ ['"'])).length =
          (bytesOf (['"'] ++ body)).length + 1 := length_bytesOf_concat rfl _
      rw [hquote] at hclose
      have hlt : ¬ s.utf8ByteSize ≤ (bytesOf (['"'] ++ body)).length := by
        have hle := utf8ByteSize_eq s
        rw [hsplit, bytesOf_append, List.length_append, hnext] at hle
        omega
      rw [readValue, hclose, ok_bind, if_neg hlt, ← hnext, cut_front_of_toList hsplit, ok_bind,
        cut_rest_of_toList hsplit]
      rfl

/-- Where a text goes on with some other character, the byte of one of the first 128 is not read. -/
theorem exists_byteAt_ne {s : String} {a rest : List Char} {c d : Char}
    (h : s.toList = a ++ c :: rest) (hd : d.toNat ≤ 0x7f) (hne : c ≠ d) :
    ∃ b, byteAt s (bytesOf a).length = .ok b ∧ b ≠ d.toUInt8 := by
  obtain ⟨b, bs, hc⟩ := List.exists_cons_of_ne_nil (String.utf8EncodeChar_ne_nil (c := c))
  refine ⟨b, byteAt_of_toList h hc, ?_⟩
  rintro rfl
  exact hne (eq_of_toUInt8_mem hd (by rw [hc]; exact List.mem_cons_self))

/-- A name with a colon and a quote behind it is read with its value. -/
theorem readPairFrom_of_quote {s : String} {name value : List Char}
    (h : s.toList = name ++ ':' :: '"' :: value) :
    readPairFrom s (bytesOf name).length =
      .ok ((cutQuote value).map fun (body, rest) => ⟨name, '"' :: body, rest⟩) := by
  have hsplit : s.toList = (name ++ [':']) ++ '"' :: value := by rw [h]; simp
  have hnext : (bytesOf (name ++ [':'])).length = (bytesOf name).length + 1 :=
    length_bytesOf_concat rfl name
  have hcolon : byteAt s (bytesOf name).length = .ok ':'.toUInt8 := byteAt_of_toList h rfl
  have hquote : byteAt s ((bytesOf name).length + 1) = .ok '"'.toUInt8 := by
    rw [← hnext]
    exact byteAt_of_toList hsplit rfl
  have hafter : cut s ((bytesOf name).length + 1) s.utf8ByteSize =
      .ok (String.ofList ('"' :: value)) := by
    rw [← hnext]
    exact cut_rest_of_toList hsplit
  rw [readPairFrom, hcolon, ok_bind, if_neg (not_not.mpr rfl), hquote, ok_bind,
    if_neg (not_not.mpr rfl), cut_front_of_toList h, ok_bind, hafter, ok_bind,
    readValue_eq String.toList_ofList, ok_bind, Option.map_map]
  congr 2
  funext ⟨body, rest⟩
  simp only [Function.comp_apply, String.toList_ofList]

/-- A name with anything else behind it is no pair. -/
theorem readPairFrom_of_ne {s : String} {name after : List Char} (h : s.toList = name ++ after)
    (hne : ∀ value, after ≠ ':' :: '"' :: value)
    (hsize : (bytesOf name).length + 1 < s.utf8ByteSize) :
    readPairFrom s (bytesOf name).length = .ok none := by
  rw [utf8ByteSize_eq, h, bytesOf_append, List.length_append, Nat.add_lt_add_iff_left] at hsize
  cases after with
  | nil => exact absurd hsize (by decide)
  | cons c after =>
      by_cases hc : c = ':'
      · subst hc
        have hcolon : byteAt s (bytesOf name).length = .ok ':'.toUInt8 := byteAt_of_toList h rfl
        cases after with
        | nil => exact absurd hsize (by decide)
        | cons d after =>
            have hd : d ≠ '"' := by
              rintro rfl
              exact hne after rfl
            have hsplit : s.toList = (name ++ [':']) ++ d :: after := by rw [h]; simp
            obtain ⟨b, hb, hbne⟩ := exists_byteAt_ne hsplit (d := '"') (by decide) hd
            rw [length_bytesOf_concat rfl name] at hb
            rw [readPairFrom, hcolon, ok_bind, if_neg (not_not.mpr rfl), hb, ok_bind, if_pos hbne]
      · obtain ⟨b, hb, hbne⟩ := exists_byteAt_ne h (d := ':') (by decide) hc
        rw [readPairFrom, hb, ok_bind, if_pos hbne]

/-- A pair is read from the bytes of a tag as it is read from its characters. -/
theorem readPair_eq (s : String) : readPair s = .ok (firstPair s.toList) := by
  have hsplit : s.toList = s.toList.takeWhile isNameChar ++ s.toList.dropWhile isNameChar :=
    List.takeWhile_append_dropWhile.symm
  have hfirst : firstPair s.toList = _ := firstPair.eq_def s.toList
  rw [readPair, nameEnd_eq]
  generalize s.toList.takeWhile isNameChar = name at hsplit hfirst ⊢
  generalize s.toList.dropWhile isNameChar = after at hsplit hfirst ⊢
  split at hfirst
  · rw [hfirst]
    exact if_pos (.inl rfl)
  · next value hname =>
    have hlong : ¬ ((bytesOf name).length = 0 ∨ s.utf8ByteSize ≤ (bytesOf name).length + 1) := by
      have hsize : s.utf8ByteSize =
          (bytesOf name).length + ((bytesOf value).length + 1 + 1) := by
        rw [utf8ByteSize_eq, hsplit, bytesOf_append, List.length_append]
        rfl
      have hpos : (bytesOf name).length ≠ 0 := by
        obtain ⟨c, cs, rfl⟩ := List.exists_cons_of_ne_nil hname
        rw [bytesOf_cons, List.length_append, String.length_utf8EncodeChar]
        have hc := c.utf8Size_pos
        omega
      omega
    rw [hfirst, if_neg hlong, readPairFrom_of_quote hsplit]
  · next hname hafter =>
    rw [hfirst]
    split_ifs with hlong
    · rfl
    · exact readPairFrom_of_ne hsplit hafter (by omega)

theorem round_eq (tag key : String) :
    round tag key = .ok (.ofPair key (firstPair (tag.toList.dropWhile (· == ' ')))) := by
  rw [round, readPair_eq, String.toList_ofList]
  rfl

/-! ## Searching -/

theorem Round.ofPair_of_eq {key : String} {pair : Pair} (h : pair.name = key.toList) :
    Round.ofPair key (some pair) = .answer (unquote (String.ofList pair.quoted)) :=
  if_pos (beq_iff_eq.mpr h)

theorem Round.ofPair_of_ne {key : String} {pair : Pair} (h : pair.name ≠ key.toList) :
    Round.ofPair key (some pair) = .next (String.ofList pair.rest) :=
  if_neg (by simpa using h)

/-- **A search byte by byte** ends without a fault and finds what a lookup finds. -/
theorem scan_eq (tag key : String) : scan tag key = .ok (lookup tag key) := by
  -- A round without an answer leaves less, so the induction is on the size of the tag.
  induction hsize : tag.utf8ByteSize using Nat.strongRecOn generalizing tag with
  | _ n ih =>
      have hround := round_eq tag key
      rcases isEnd_or_exists_entry tag.toList with hend | ⟨entry, rest, hentry⟩
      · rw [isEnd_iff.mp hend] at hround
        rw [scan_of_answer hround, lookup_eq, valueOf_of_isEnd hend]
        rfl
      · rw [hentry, firstPair_text] at hround
        rw [lookup_eq, valueOf_of_entry hentry]
        by_cases hname : entry.name = key.toList
        · rw [Round.ofPair_of_eq hname] at hround
          rw [scan_of_answer hround, if_pos hname, unquote_ofList]
        · rw [Round.ofPair_of_ne hname] at hround
          have hlt := utf8ByteSize_lt_of_round hround
          rw [scan_of_next hround, if_neg hname, ih _ (hsize ▸ hlt) _ rfl, lookup_eq,
            String.toList_ofList]

/-- **The search is safe on any text.** A name ends at a boundary of the tag. The scan for a closing
    quote ends from any offset on, at most one byte behind the text, and where it ends in the text
    there are boundaries on both sides of the quote, though a backslash may have taken it into the
    middle of a character. So a round of the search reads no byte out of range and cuts the text
    only at boundaries; it leaves less of the tag if it has no answer; and the search ends with what
    a lookup finds. While the value that is found is unquoted, no number needs more than 32 bits. -/
theorem scan_never_faults (tag key : String) :
    (nameEnd tag ≤ tag.utf8ByteSize ∧ IsBoundary tag (nameEnd tag) ∧
      (nameEnd tag < tag.utf8ByteSize → IsBoundary tag (nameEnd tag + 1))) ∧
    (∀ offset ≤ tag.utf8ByteSize + 1,
      ∃ close, closingQuote tag offset = .ok close ∧ close ≤ tag.utf8ByteSize + 1 ∧
        (close < tag.utf8ByteSize → IsBoundary tag close ∧ IsBoundary tag (close + 1))) ∧
    (∃ outcome, round tag key = .ok outcome) ∧
    (∀ rest, round tag key = .ok (.next rest) → rest.utf8ByteSize < tag.utf8ByteSize) ∧
    scan tag key = .ok (lookup tag key) ∧
    ∀ (s out : List Char) (base left value d : Nat) (c : Char),
      run .plain s = some (out, .digits base left value) → digitValue base c = some d →
        value * base + d < 2 ^ 32 := by
  refine ⟨isBoundary_nameEnd tag, ?quote, ⟨_, round_eq tag key⟩, ?less, scan_eq tag key, ?number⟩
  case quote =>
    intro offset hoffset
    obtain ⟨close, hclose, hle, hread⟩ := exists_closingQuote hoffset
    exact ⟨close, hclose, hle, fun hlt => isBoundary_of_byteAt (by decide) (hread hlt)⟩
  case less =>
    intro rest hround
    exact utf8ByteSize_lt_of_round hround
  case number =>
    intro s out base left value d c hrun hdigit
    exact lt_of_run hrun hdigit

/-- A tag with a backslash in front of a character of two bytes. -/
def escapedTag : String := "a:\"\\é\" b:\"c\""

/-- `scan_never_faults` where the scan for a quote stands in the middle of a character, at offset 5,
    before it ends. -/
theorem scan_never_faults_escaped :
    IsBoundary escapedTag 1 ∧ IsBoundary escapedTag 2 ∧
      (closingQuote escapedTag 3 = closingQuote escapedTag 5 ∧ ¬ IsBoundary escapedTag 5 ∧
        closingQuote escapedTag 5 = .ok 6 ∧ IsBoundary escapedTag 6 ∧ IsBoundary escapedTag 7) ∧
      (round escapedTag "b" = .ok (.next " b:\"c\"") ∧
        " b:\"c\"".utf8ByteSize < escapedTag.utf8ByteSize) ∧
      scan escapedTag "b" = .ok (some "c") ∧
      (run .plain ['\\', 'x', 'f'] = some ([], .digits 16 1 15) ∧ 15 * 16 + 15 < 2 ^ 32) := by
  obtain ⟨⟨-, hname, hbehind⟩, hquote, -, hless, hscan, hnumber⟩ :=
    scan_never_faults escapedTag "b"
  have hend : nameEnd escapedTag = 1 := by decide
  have hsize : escapedTag.utf8ByteSize = 13 := by decide
  rw [hend] at hname hbehind
  have hmiddle : closingQuote escapedTag 3 = closingQuote escapedTag 5 := by decide +kernel
  have hinside : ¬ IsBoundary escapedTag 5 := by decide
  have hclose : closingQuote escapedTag 5 = .ok 6 := by decide +kernel
  obtain ⟨close, hclose', -, hsides⟩ := hquote 5 (by rw [hsize]; decide)
  obtain rfl : 6 = close := Except.ok.inj (hclose.symm.trans hclose')
  obtain ⟨hbefore, hafter⟩ := hsides (by rw [hsize]; decide)
  have hround : round escapedTag "b" = .ok (.next " b:\"c\"") := by decide +kernel
  have hlookup : lookup escapedTag "b" = some "c" := by decide
  have hrun : run .plain ['\\', 'x', 'f'] = some ([], .digits 16 1 15) := rfl
  have hdigit : digitValue 16 'f' = some 15 := rfl
  exact ⟨hname, hbehind (by rw [hsize]; decide), ⟨hmiddle, hinside, hclose, hbefore, hafter⟩,
    ⟨hround, hless _ hround⟩, hlookup ▸ hscan, hrun, hnumber _ _ _ _ _ _ _ hrun hdigit⟩

end FluentBuilder.Go.Tag

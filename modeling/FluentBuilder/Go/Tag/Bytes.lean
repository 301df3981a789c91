import FluentBuilder.Go.Tag
import FluentBuilder.Results

/-!
# Struct tags byte by byte — the search with its reads and cuts

The search of a tag on the bytes of the text; an offset counts bytes. Each read of a byte and each
cut of the text is checked: a read out of range is a fault, and so is a cut that is out of order or
not on the boundaries of characters. A fault ends the search. A round of the search reads one pair,
and `scan` goes on with what is left as long as the pairs have other names. That is less of the tag
each time, so the search ends.
-/

namespace FluentBuilder.Go.Tag

/-- What ends a search without an answer. -/
inductive Fault where
  | read (offset : Nat)
  | cut (first last : Nat)
  deriving DecidableEq, Repr

/-- An offset between two characters of a text, or at one of its ends. -/
def IsBoundary (s : String) (offset : Nat) : Prop := String.Pos.Raw.IsValid s ⟨offset⟩

instance (s : String) (offset : Nat) : Decidable (IsBoundary s offset) :=
  inferInstanceAs (Decidable (String.Pos.Raw.IsValid s ⟨offset⟩))

/-- Read the byte at an offset. -/
def byteAt (s : String) (offset : Nat) : Except Fault UInt8 :=
  if h : offset < s.toByteArray.size then .ok s.toByteArray[offset] else .error (.read offset)

/-- Cut out what stands from one offset to another. -/
def cut (s : String) (first last : Nat) : Except Fault String :=
  if h : first ≤ last ∧ IsBoundary s first ∧ IsBoundary s last then
    .ok (String.extract (s := s) ⟨⟨first⟩, h.2.1⟩ ⟨⟨last⟩, h.2.2⟩)
  else .error (.cut first last)

/-- Decide whether a byte ends a name. -/
def endsName (b : UInt8) : Bool :=
  b ≤ ' '.toUInt8 || b == ':'.toUInt8 || b == '"'.toUInt8 || b == 0x7f

/-- The offset of the first byte that ends the name in front, or of the end of the text. -/
def nameEnd (s : String) : Nat := s.toByteArray.data.toList.findIdx endsName

/-- The offset of the first quote from an offset on, or an offset behind all bytes. A backslash
takes the byte behind it along, whatever part of a character that is. -/
def closingQuote (s : String) (offset : Nat) : Except Fault Nat :=
  if offset < s.utf8ByteSize then do
    let b ← byteAt s offset
    if b = '"'.toUInt8 then .ok offset
    else if b = '\\'.toUInt8 then closingQuote s (offset + 2)
    else closingQuote s (offset + 1)
  else .ok offset
termination_by s.utf8ByteSize - offset

/-- Read a value from its opening quote on: the value with its quotes, and what follows. -/
def readValue (s : String) : Except Fault (Option (String × String)) := do
  let close ← closingQuote s 1
  if s.utf8ByteSize ≤ close then .ok none
  else do
    let quoted ← cut s 0 (close + 1)
    let rest ← cut s (close + 1) s.utf8ByteSize
    .ok (some (quoted, rest))

/-- Read a pair behind its name, of which the end is known. -/
def readPairFrom (s : String) (last : Nat) : Except Fault (Option Pair) := do
  let colon ← byteAt s last
  if colon ≠ ':'.toUInt8 then .ok none
  else do
    let quote ← byteAt s (last + 1)
    if quote ≠ '"'.toUInt8 then .ok none
    else do
      let name ← cut s 0 last
      let after ← cut s (last + 1) s.utf8ByteSize
      let value ← readValue after
      .ok (value.map fun (quoted, rest) => ⟨name.toList, quoted.toList, rest.toList⟩)

/-- Read a pair from the front of a tag; no text without a name in front has one. -/
def readPair (s : String) : Except Fault (Option Pair) :=
  if nameEnd s = 0 ∨ s.utf8ByteSize ≤ nameEnd s + 1 then .ok none else readPairFrom s (nameEnd s)

/-- How a round of the search ends: with the answer, or with a tag that is left to search. -/
inductive Round where
  | answer (value : Option String)
  | next (rest : String)
  deriving DecidableEq, Repr

/-- What a round of the search for a key makes of a pair. -/
def Round.ofPair (key : String) : Option Pair → Round
  | none => .answer none
  | some pair =>
    if pair.name == key.toList then .answer (unquote (String.ofList pair.quoted))
    else .next (String.ofList pair.rest)

/-- A round of the search for a key. -/
def round (tag key : String) : Except Fault Round := do
  let pair ← readPair (String.ofList (tag.toList.dropWhile (· == ' ')))
  .ok (.ofPair key pair)

/-! ## What is left of a tag -/

theorem utf8ByteSize_of_cut {s t : String} {first last : Nat} (h : cut s first last = .ok t) :
    t.utf8ByteSize = last - first := by
  unfold cut at h
  split at h
  · next hcut =>
    cases h
    have hlast : last ≤ s.toByteArray.size := hcut.2.2.le_rawEndPos
    rw [← String.size_toByteArray, String.toByteArray_extract, ByteArray.size_extract,
      Nat.min_eq_left hlast]
  · cases h

theorem utf8ByteSize_lt_of_readValue {s quoted rest : String}
    (h : readValue s = .ok (some (quoted, rest))) : rest.utf8ByteSize < s.utf8ByteSize := by
  obtain ⟨close, -, h⟩ := ok_of_bind h
  split at h
  · cases h
  · obtain ⟨_, -, h⟩ := ok_of_bind h
    obtain ⟨_, hrest, h⟩ := ok_of_bind h
    cases h
    have hsize := utf8ByteSize_of_cut hrest
    omega

theorem utf8ByteSize_lt_of_readPairFrom {s : String} {last : Nat} {pair : Pair}
    (h : readPairFrom s last = .ok (some pair)) :
    (String.ofList pair.rest).utf8ByteSize < s.utf8ByteSize := by
  obtain ⟨_, -, h⟩ := ok_of_bind h
  split at h
  · cases h
  obtain ⟨_, -, h⟩ := ok_of_bind h
  split at h
  · cases h
  obtain ⟨_, -, h⟩ := ok_of_bind h
  obtain ⟨after, hafter, h⟩ := ok_of_bind h
  obtain ⟨value, hvalue, h⟩ := ok_of_bind h
  cases value with
  | none => cases h
  | some value =>
      cases h
      have hsize := utf8ByteSize_of_cut hafter
      have hlt := utf8ByteSize_lt_of_readValue hvalue
      rw [String.ofList_toList]
      omega

theorem utf8ByteSize_lt_of_readPair {s : String} {pair : Pair} (h : readPair s = .ok (some pair)) :
    (String.ofList pair.rest).utf8ByteSize < s.utf8ByteSize := by
  unfold readPair at h
  split at h
  · cases h
  · exact utf8ByteSize_lt_of_readPairFrom h

theorem utf8ByteSize_dropWhile_le (s : String) (p : Char → Bool) :
    (String.ofList (s.toList.dropWhile p)).utf8ByteSize ≤ s.utf8ByteSize := by
  have h : s = String.ofList (s.toList.takeWhile p) ++ String.ofList (s.toList.dropWhile p) := by
    rw [← String.ofList_append, List.takeWhile_append_dropWhile, String.ofList_toList]
  have hsize := congrArg String.utf8ByteSize h
  rw [String.utf8ByteSize_append] at hsize
  omega

/-- **A round leaves less of the tag**, if it has no answer. -/
theorem utf8ByteSize_lt_of_round {tag key rest : String} (h : round tag key = .ok (.next rest)) :
    rest.utf8ByteSize < tag.utf8ByteSize := by
  obtain ⟨pair, hpair, h⟩ := ok_of_bind h
  have hle := utf8ByteSize_dropWhile_le tag (· == ' ')
  cases pair with
  | none => cases h
  | some pair =>
      have hlt := utf8ByteSize_lt_of_readPair hpair
      have hnext : Round.ofPair key (some pair) = .next rest := Except.ok.inj h
      rw [Round.ofPair] at hnext
      split at hnext
      · cases hnext
      · have hrest : String.ofList pair.rest = rest := Round.next.inj hnext
        rw [← hrest]
        exact Nat.lt_of_lt_of_le hlt hle

/-- Search a tag for a key, round after round. -/
def scan (tag key : String) : Except Fault (Option String) :=
  match _ : round tag key with
  | .error fault => .error fault
  | .ok (.answer value) => .ok value
  | .ok (.next rest) => scan rest key
termination_by tag.utf8ByteSize
decreasing_by exact utf8ByteSize_lt_of_round ‹_›

theorem scan_of_answer {tag key : String} {value : Option String}
    (h : round tag key = .ok (.answer value)) : scan tag key = .ok value := by
  rw [scan]
  split
  · next hround => cases h.symm.trans hround
  · next hround =>
    cases h.symm.trans hround
    rfl
  · next hround => cases h.symm.trans hround

theorem scan_of_next {tag key rest : String} (h : round tag key = .ok (.next rest)) :
    scan tag key = scan rest key := by
  rw [scan]
  split
  · next hround => cases h.symm.trans hround
  · next hround => cases h.symm.trans hround
  · next hround =>
    cases h.symm.trans hround
    rfl

end FluentBuilder.Go.Tag

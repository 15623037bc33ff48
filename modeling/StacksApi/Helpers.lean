import StacksApi.Errors

/-!
# Helpers

`hexToBuffer` and its relation to `bufferToHexPrefixString`, and the dates of
`unixEpochToIso`.  A text is measured in UTF-16 code units, as the source
language does.
-/

namespace StacksApi

open StacksApi.Binary
open StacksApi.Text

/-- The length of a text in UTF-16 code units. -/
def utf16Length (text : String) : Nat :=
  (text.toList.map fun char => if char.toNat < 0x10000 then 1 else 2).sum

/-- `text.substring(units)`.  A character of two units that is cut stays whole. -/
def dropUnits : Nat → List Char → List Char
  | 0, chars => chars
  | _, [] => []
  | units + 1, char :: rest =>
      if char.toNat < 0x10000 then dropUnits units rest
      else match units with
        | 0 => char :: rest
        | units + 1 => dropUnits units rest

/-- The bytes of a `0x` prefixed text; digits are decoded up to the first pair
that is not hexadecimal. -/
def hexToBuffer (hex : String) : Except ApiError Buffer :=
  if hex.toList.take 2 ≠ ['0', 'x'] then
    .error (.failure s!"Hex string is missing the \"0x\" prefix: \"{hex}\"")
  else if utf16Length hex % 2 ≠ 0 then
    .error (.failure s!"Hex string is an odd number of digits: {hex}")
  else
    .ok (fromHex (hex.toList.drop 2))

theorem utf16Length_ofList_of_ascii {chars : List Char}
    (ascii : ∀ char ∈ chars, char.toNat < 128) :
    utf16Length (String.ofList chars) = chars.length := by
  have units : chars.map (fun char => if char.toNat < 0x10000 then 1 else 2) =
      chars.map fun _ => 1 := by
    apply List.map_congr_left
    intro char mem
    exact if_pos (Nat.lt_of_lt_of_le (ascii char mem) (by decide))
  rw [utf16Length, String.toList_ofList, units]
  simp

theorem toList_bufferToHexPrefixString (buffer : Buffer) :
    (bufferToHexPrefixString buffer).toList = '0' :: 'x' :: toHex buffer :=
  String.toList_ofList

theorem even_utf16Length_bufferToHexPrefixString (buffer : Buffer) :
    utf16Length (bufferToHexPrefixString buffer) % 2 = 0 := by
  have ascii : ∀ char ∈ '0' :: 'x' :: toHex buffer, char.toNat < 128 := by
    intro char mem
    rcases List.mem_cons.mp mem with rfl | mem
    · decide
    · rcases List.mem_cons.mp mem with rfl | mem
      · decide
      · exact toNat_lt_of_mem_toHex mem
  rw [bufferToHexPrefixString, utf16Length_ofList_of_ascii ascii, List.length_cons,
    List.length_cons, length_toHex]
  omega

/-- Reading back what was written as hexadecimal text. -/
@[simp]
theorem hexToBuffer_bufferToHexPrefixString (buffer : Buffer) :
    hexToBuffer (bufferToHexPrefixString buffer) = .ok buffer := by
  rw [hexToBuffer, toList_bufferToHexPrefixString, if_neg (fun other => other rfl),
    if_neg (fun odd => odd (even_utf16Length_bufferToHexPrefixString buffer))]
  exact congrArg Except.ok (fromHex_toHex buffer)

theorem bufferToHexPrefixString_injective : Function.Injective bufferToHexPrefixString := by
  intro first second same
  have decoded := congrArg hexToBuffer same
  rw [hexToBuffer_bufferToHexPrefixString, hexToBuffer_bufferToHexPrefixString] at decoded
  exact Except.ok.inj decoded

theorem mapM_hexToBuffer_bufferToHexPrefixString (buffers : List Buffer) :
    (buffers.map bufferToHexPrefixString).mapM hexToBuffer = .ok buffers := by
  induction buffers with
  | nil => rfl
  | cons buffer buffers ih =>
      rw [List.map_cons, List.mapM_cons, hexToBuffer_bufferToHexPrefixString, ih]
      rfl

/-- `0x` and an even number of hexadecimal digits of either case. -/
def isHexText (text : String) : Bool :=
  decide (text.toList.take 2 = ['0', 'x']) && decide ((text.toList.drop 2).length % 2 = 0) &&
    (text.toList.drop 2).all fun digit => (hexDigit? digit).isSome

/-- The text with its letters from `A` to `Z` in lower case. -/
def toLowerCase (text : String) : String :=
  String.ofList (text.toList.map Char.toLower)

/-- Hexadecimal text is written back in lower case. -/
theorem hexToBuffer_of_isHexText {text : String} (hex : isHexText text = true) :
    ∃ buffer, hexToBuffer text = .ok buffer ∧
      bufferToHexPrefixString buffer = toLowerCase text := by
  simp only [isHexText, Bool.and_eq_true, decide_eq_true_eq, List.all_eq_true] at hex
  obtain ⟨⟨marker, even⟩, digits⟩ := hex
  have chars : text.toList = '0' :: 'x' :: text.toList.drop 2 := by
    rw [← List.take_append_drop 2 text.toList, marker]
    rfl
  have ascii : ∀ char ∈ text.toList, char.toNat < 128 := by
    rw [chars]
    exact List.forall_mem_cons.mpr ⟨by decide, List.forall_mem_cons.mpr
      ⟨by decide, fun char mem => toNat_lt_of_hexDigit? (digits char mem)⟩⟩
  have units : utf16Length text % 2 = 0 := by
    have length := utf16Length_ofList_of_ascii ascii
    rw [String.ofList_toList] at length
    rw [length, chars, List.length_cons, List.length_cons]
    omega
  refine ⟨fromHex (text.toList.drop 2), ?_, ?_⟩
  · rw [hexToBuffer, if_neg (not_not.mpr marker), if_neg (not_not.mpr units)]
  · rw [bufferToHexPrefixString, toHex_fromHex even digits, toLowerCase, chars]
    rfl

/-- What is decoded is what stands after the prefix. -/
theorem hexToBuffer_eq_ok_iff {hex : String} {buffer : Buffer} :
    hexToBuffer hex = .ok buffer ↔
      hex.toList.take 2 = ['0', 'x'] ∧ utf16Length hex % 2 = 0 ∧
        fromHex (hex.toList.drop 2) = buffer := by
  rw [hexToBuffer]
  split
  · next unmarked => exact iff_of_false (fun same => by cases same) fun ok => unmarked ok.1
  · next marked =>
      split
      · next odd => exact iff_of_false (fun same => by cases same) fun ok => odd ok.2.1
      · next even =>
          rw [Except.ok.injEq]
          exact ⟨fun same => ⟨not_not.mp marked, not_not.mp even, same⟩, fun ok => ok.2.2⟩

/-- A text that is refused for its prefix or its length, or is hexadecimal throughout. -/
def RefusedOrHex (hex : String) : Prop :=
  hex.toList.take 2 ≠ ['0', 'x'] ∨ utf16Length hex % 2 ≠ 0 ∨ isHexText hex = true

/-- A decoded text is written back in lower case only when it is hexadecimal. -/
theorem isHexText_of_writtenBack {hex : String} {buffer : Buffer}
    (decoded : hexToBuffer hex = .ok buffer)
    (writtenBack : bufferToHexPrefixString buffer = toLowerCase hex) : isHexText hex = true := by
  obtain ⟨marked, -, rfl⟩ := hexToBuffer_eq_ok_iff.mp decoded
  have chars : hex.toList = '0' :: 'x' :: hex.toList.drop 2 := by
    rw [← List.take_append_drop 2 hex.toList, marked]
    rfl
  have lower : '0' :: 'x' :: toHex (fromHex (hex.toList.drop 2)) =
      hex.toList.map Char.toLower := by
    rw [← toList_bufferToHexPrefixString, writtenBack, toLowerCase, String.toList_ofList]
  rw [chars] at lower
  have digits := toHex_fromHex_iff.mp (List.cons.inj (List.cons.inj lower).2).2
  simp only [List.drop_succ_cons, List.drop_zero] at digits
  simp only [isHexText, Bool.and_eq_true, decide_eq_true_eq, List.all_eq_true]
  exact ⟨⟨marked, digits.1⟩, digits.2⟩

/-- A text that is decoded is written back in lower case. -/
theorem writtenBack_of_refusedOrHex {hex : String} {buffer : Buffer} (text : RefusedOrHex hex)
    (decoded : hexToBuffer hex = .ok buffer) :
    bufferToHexPrefixString buffer = toLowerCase hex := by
  obtain ⟨marked, even, -⟩ := hexToBuffer_eq_ok_iff.mp decoded
  have isHex := (text.resolve_left (not_not.mpr marked)).resolve_left (not_not.mpr even)
  obtain ⟨whole, decodedWhole, writtenBack⟩ := hexToBuffer_of_isHexText isHex
  rw [← Except.ok.inj (decodedWhole.symm.trans decoded)]
  exact writtenBack

/-- Buffers survive their texts.  A text survives its bytes, up to the case of its
letters, exactly when it is refused or hexadecimal, and two such texts with the same
bytes differ in case only.  No character outside of ASCII has a digit as its lower case. -/
theorem hexToBuffer_faithful_iff (hex : String) :
    (∀ buffer, hexToBuffer (bufferToHexPrefixString buffer) = .ok buffer) ∧
      (((∃ error, hexToBuffer hex = .error error) ∨
          ∃ buffer, hexToBuffer hex = .ok buffer ∧
            bufferToHexPrefixString buffer = toLowerCase hex) ↔ RefusedOrHex hex) ∧
      (RefusedOrHex hex → ∀ other, RefusedOrHex other → ∀ buffer, hexToBuffer hex = .ok buffer →
        hexToBuffer other = .ok buffer → toLowerCase hex = toLowerCase other) := by
  refine ⟨hexToBuffer_bufferToHexPrefixString, ⟨?_, ?_⟩, ?_⟩
  · rintro (⟨error, refused⟩ | ⟨buffer, decoded, writtenBack⟩)
    · by_contra neither
      simp only [RefusedOrHex, not_or, not_not] at neither
      have decoded := hexToBuffer_eq_ok_iff.mpr ⟨neither.1, neither.2.1, rfl⟩
      rw [refused] at decoded
      cases decoded
    · exact Or.inr (Or.inr (isHexText_of_writtenBack decoded writtenBack))
  · intro text
    cases decoded : hexToBuffer hex with
    | error error => exact Or.inl ⟨error, rfl⟩
    | ok buffer => exact Or.inr ⟨buffer, rfl, writtenBack_of_refusedOrHex text decoded⟩
  · intro text other otherText buffer decoded otherDecoded
    rw [← writtenBack_of_refusedOrHex text decoded,
      ← writtenBack_of_refusedOrHex otherText otherDecoded]

/-- Digits after a character that is none are dropped, and two ids become one. -/
theorem hexToBuffer_truncates :
    ¬((∃ error, hexToBuffer "0x00zz" = .error error) ∨
        ∃ buffer, hexToBuffer "0x00zz" = .ok buffer ∧
          bufferToHexPrefixString buffer = toLowerCase "0x00zz") ∧
      hexToBuffer "0x00zz" = hexToBuffer "0x00" ∧ toLowerCase "0x00zz" ≠ toLowerCase "0x00" := by
  have decoded : hexToBuffer "0x00zz" = .ok [0] := by decide
  refine ⟨?_, by decide, by decide⟩
  rw [decoded]
  rintro (⟨error, impossible⟩ | ⟨buffer, same, writtenBack⟩)
  · cases impossible
  · rw [← Except.ok.inj same] at writtenBack
    exact absurd writtenBack (by decide)

/-! ## Dates -/

/-- `text.padStart(width, '0')` of a number. -/
def padStart (width value : Nat) : String :=
  let digits := toString value
  String.ofList (List.replicate (width - digits.length) '0') ++ digits

/-- Year, month and day of a number of days since 1970-01-01.  Years are counted
from March in eras of 400 years, so that a leap day is the last of its year. -/
def civilFromDays (days : Int) : Int × Nat × Nat :=
  let shifted := days + 719468
  let era := shifted / 146097
  let dayOfEra := (shifted % 146097).toNat
  let yearOfEra :=
    (dayOfEra - dayOfEra / 1460 + dayOfEra / 36524 - dayOfEra / 146096) / 365
  let dayOfYear := dayOfEra - (365 * yearOfEra + yearOfEra / 4 - yearOfEra / 100)
  let shiftedMonth := (5 * dayOfYear + 2) / 153
  let day := dayOfYear - (153 * shiftedMonth + 2) / 5 + 1
  let month := if shiftedMonth < 10 then shiftedMonth + 3 else shiftedMonth - 9
  let year := yearOfEra + era * 400
  (if month ≤ 2 then year + 1 else year, month, day)

/-- Years outside of the four digit range have a sign and six digits. -/
def isoYear (year : Int) : String :=
  if 0 ≤ year ∧ year ≤ 9999 then padStart 4 year.toNat
  else (if year < 0 then "-" else "+") ++ padStart 6 year.natAbs

/-- `new Date(timestamp * 1000).toISOString()`, which throws beyond `8.64e15`
milliseconds. -/
def unixEpochToIso (timestamp : Int) : Except ApiError String :=
  if (timestamp * 1000).natAbs > 8640000000000000 then .error (.failure "Invalid time value")
  else
    let (year, month, day) := civilFromDays (timestamp / 86400)
    let second := (timestamp % 86400).toNat
    .ok (isoYear year ++ "-" ++ padStart 2 month ++ "-" ++ padStart 2 day ++ "T" ++
      padStart 2 (second / 3600) ++ ":" ++ padStart 2 (second / 60 % 60) ++ ":" ++
      padStart 2 (second % 60) ++ ".000Z")

example : unixEpochToIso 1594647996 = .ok "2020-07-13T13:46:36.000Z" := by
  decide

end StacksApi

import AccessPattern.Proofs.Checked.Steps
import AccessPattern.Proofs.Size.Grammar
import AccessPattern.Proofs.Text.Bytes
import AccessPattern.RequestError

/-!
# Sizes in checked steps

A text is cut before its last letter by counting bytes, and a cut that does not fall between two
characters cannot be made. The size is read once more with each cut and each product checked. The
letter that is cut off is in ASCII, so it is a single byte, the cut falls before it and no step
fails.

So every text is either read as the size that it spells or refused, and which of the two is known
from the text.
-/

namespace AccessPattern

/-- A cut through the bytes of a text that cannot be made. -/
inductive CutFault where
  /-- More bytes are to be taken away than there are. -/
  | negative (length removed : Nat)
  /-- The place is not between two characters of the text. -/
  | noBoundary (text : String) (place : Nat)
deriving DecidableEq, Repr

namespace Checked

/-- A number of bytes without some of them, unless there are fewer. -/
def less (length removed : Nat) : Except CutFault Nat :=
  if removed ≤ length then .ok (length - removed) else .error (.negative length removed)

/-- The text before a place among the bytes of a text, unless the place lies beyond the end or the
bytes before it are not those of a text. -/
def textBefore (text : String) (place : Nat) : Except CutFault String :=
  if place ≤ (Bytes.ofText text).length then
    match Bytes.toText? ((Bytes.ofText text).take place) with
    | some front => .ok front
    | none => .error (.noBoundary text place)
  else .error (.noBoundary text place)

/-- The number times the bytes of its unit, unless the product needs more than 64 bits. -/
def scaled (text : String) (number : List Char) (bytes : UInt64) : Except SizeError UInt64 :=
  match Text.word64? number with
  | none => .error (.notANumber text)
  | some n => (product n bytes).mapError fun _ => .overflow text

/-- Read the size in a text that was trimmed, lower-cased and rid of a `b`: cut the letter of the
unit off, if there is one, and read the number. -/
def parseBody (text : String) (body : List Char) : Except CutFault (Except SizeError UInt64) :=
  match body.getLast? with
  | none => .ok (scaled text body 1)
  | some c =>
    if Text.isAsciiLetter c then
      match SizeUnit.ofLetter? c with
      | none => .ok (.error (.unknownUnit text))
      | some unit => do
        let place ← less (Bytes.ofText (String.ofList body)).length 1
        let number ← textBefore (String.ofList body) place
        pure (scaled text number.toList (UInt64.ofNat unit.bytes))
    else .ok (scaled text body 1)

/-- Read a size in bytes. -/
def parseSize (text : String) : Except CutFault (Except SizeError UInt64) :=
  parseBody text (Size.dropByteMark (Text.lower (Text.trim text.toList)))

/-- A text can be cut before the last of its characters when this is in ASCII. -/
theorem textBefore_concat (front : List Char) {c : Char} (h : Text.IsAscii c) :
    (less (Bytes.ofText (String.ofList (front ++ [c]))).length 1 >>=
      textBefore (String.ofList (front ++ [c]))) = .ok (String.ofList front) := by
  have hbytes : Bytes.ofText (String.ofList (front ++ [c])) =
      Bytes.ofText (String.ofList front) ++ [c.val.toUInt8] := by
    simp only [Bytes.ofText_ofList, List.flatMap_append, List.flatMap_singleton,
      Text.utf8EncodeChar_of_isAscii h]
  have hlength : (Bytes.ofText (String.ofList (front ++ [c]))).length =
      (Bytes.ofText (String.ofList front)).length + 1 := by
    rw [hbytes, List.length_append, List.length_singleton]
  have hplace : less (Bytes.ofText (String.ofList (front ++ [c]))).length 1 =
      .ok (Bytes.ofText (String.ofList front)).length := by
    rw [less, hlength, if_pos (Nat.le_add_left _ _), Nat.add_sub_cancel]
  rw [hplace]
  change textBefore (String.ofList (front ++ [c])) _ = _
  rw [textBefore, hlength, if_pos (Nat.le_succ _), hbytes, List.take_left, Bytes.toText?_ofText]

/-- A checked product is that of the numbers. -/
theorem scaled_eq {text : String} {number : List Char} {bytes : Nat} (h : bytes < UInt64.size) :
    scaled text number (UInt64.ofNat bytes) = Size.parse.scaled text bytes number := by
  rw [scaled, Size.parse.scaled]
  cases Text.word64? number with
  | none => rfl
  | some n =>
    simp only [product, UInt64.toNat_ofNat_of_lt' h]
    split
    · rw [UInt64.ofNat_mul, UInt64.ofNat_toNat]
      rfl
    · rfl

/-- No step fails, and the size is read. -/
theorem parseSize_eq (text : String) : parseSize text = .ok (Size.parse text) := by
  have hone (number : List Char) : scaled text number 1 = Size.parse.scaled text 1 number :=
    scaled_eq (by decide)
  rw [parseSize, Size.parse, parseBody]
  rcases List.eq_nil_or_concat (Size.dropByteMark (Text.lower (Text.trim text.toList))) with
    hnil | ⟨front, c, hconcat⟩
  · rw [hnil]
    exact congrArg Except.ok (hone [])
  · rw [hconcat, List.concat_eq_append, List.getLast?_concat]
    by_cases hletter : Text.isAsciiLetter c = true
    · simp only [Size.splitUnit_concat hletter, hletter, if_true, Option.map_some]
      cases SizeUnit.ofLetter? c with
      | none => rfl
      | some unit =>
        have hbyte : Text.IsAscii c := Text.isAscii_of_isAsciiLetter hletter
        obtain ⟨place, hplace, hfront⟩ := bind_eq_ok_iff.mp (textBefore_concat front hbyte)
        rw [hplace]
        change (textBefore _ place >>= _) = _
        rw [hfront]
        change Except.ok (scaled text (String.ofList front).toList _) = _
        rw [String.toList_ofList, scaled_eq unit.bytes_bounds.2]
    · rw [Size.splitUnit_eq_self]
      · simp only [hletter]
        exact congrArg Except.ok (hone _)
      · intro last hlast
        rw [List.getLast?_concat, Option.some.injEq] at hlast
        exact hlast ▸ Bool.eq_false_iff.mpr hletter

end Checked

namespace Size

/-- A size is read from exactly the texts that spell it, whichever lower case is taken of the
trimmed text. All other texts are refused, for the unit, for the number or for the product, and for
the product exactly where the text spells a number of bytes that needs more than 64 bits. No step of
reading fails, whatever the text. -/
theorem size_read_iff_spelled {text : String} {lowered : List Char}
    (hlowered : Text.IsLowerCase (Text.trim text.toList) lowered) :
    (∀ size : UInt64, parse text = .ok size ↔ Spells lowered size.toNat) ∧
      ((∀ size : UInt64, ¬Spells lowered size.toNat) →
        ∃ error ∈ [SizeError.unknownUnit text, .notANumber text, .overflow text],
          parse text = .error error ∧
            (RequestError.size error).message = "invalid configuration: " ++ error.message) ∧
      (parse text = .error (.overflow text) ↔ ∃ n, UInt64.size ≤ n ∧ Spells lowered n) ∧
      Checked.parseSize text = .ok (parse text) := by
  simp only [spells_iff_of_isLowerCase hlowered]
  refine ⟨fun size => parse_eq_ok_iff, fun hnone => ?_, parse_eq_overflow_iff,
    Checked.parseSize_eq text⟩
  by_cases hspells : ∃ n, Spells (Text.lower (Text.trim text.toList)) n
  · obtain ⟨n, hn⟩ := hspells
    have hsize : UInt64.size ≤ n := by
      apply Nat.le_of_not_lt
      intro hlt
      apply hnone (UInt64.ofNat n)
      rwa [UInt64.toNat_ofNat_of_lt' hlt]
    exact ⟨.overflow text, by simp, parse_eq_overflow_iff.mpr ⟨n, hsize, hn⟩, rfl⟩
  · rcases parse_of_not_spells (not_exists.mp hspells) with hunit | hnumber
    · exact ⟨.unknownUnit text, by simp, hunit, rfl⟩
    · exact ⟨.notANumber text, by simp, hnumber, rfl⟩

/-- A plus sign, a zero in front, the Kelvin sign as the letter of the unit, a `b` after it and
white space around it all spell the same four units. -/
theorem size_read_iff_spelled_kelvin :
    Text.IsLowerCase (Text.trim "\u3000+04\u212aB\n".toList) "+04kb".toList ∧
      parse "\u3000+04\u212aB\n" = .ok 4096 := by
  have hlowered : Text.IsLowerCase (Text.trim "\u3000+04\u212aB\n".toList) "+04kb".toList := by
    have hlower : Text.lower (Text.trim "\u3000+04\u212aB\n".toList) = "+04kb".toList := by decide
    rw [← hlower]
    exact Text.isLowerCase_lower _
  have hnumber : Text.Denotes "+04".toList 4 := .signed (by decide)
  have hspells : Spells "+04kb".toList 4096 :=
    .parts hnumber (by decide) (.marked (by decide : ('k', 1) ∈ unitLetters))
  exact ⟨hlowered, ((size_read_iff_spelled hlowered).1 4096).mpr hspells⟩

end Size

end AccessPattern

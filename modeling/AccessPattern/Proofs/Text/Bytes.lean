import AccessPattern.Files.Fault
import AccessPattern.Proofs.Text

/-!
# Bytes of texts

A text has the bytes of its characters, one after the other, and no other text has the same. Each
character of ASCII is a single byte.
-/

namespace AccessPattern

namespace Bytes

/-- The bytes of a text are those of its characters. -/
@[simp] theorem ofText_ofList (chars : List Char) :
    ofText (String.ofList chars) = chars.flatMap String.utf8EncodeChar :=
  List.toList_data_toByteArray

/-- Bytes are read as the text whose bytes they are. -/
theorem toText?_eq_some_iff {bytes : Bytes} {text : String} :
    toText? bytes = some text ↔ bytes = ofText text := by
  constructor
  · intro h
    unfold toText? String.fromUTF8? at h
    split at h
    · rw [← Option.some.inj h]
      rfl
    · contradiction
  · rintro rfl
    exact toText?_ofText text

/-- Bytes are not read when they are those of no text. -/
theorem toText?_eq_none_iff {bytes : Bytes} :
    toText? bytes = none ↔ ∀ text, bytes ≠ ofText text := by
  simp only [Option.eq_none_iff_forall_ne_some, ne_eq, toText?_eq_some_iff]

end Bytes

/-- A character of ASCII is a single byte. -/
theorem Text.utf8EncodeChar_of_isAscii {c : Char} (h : IsAscii c) :
    String.utf8EncodeChar c = [c.val.toUInt8] := by
  refine String.utf8EncodeChar_eq_singleton (Char.utf8Size_eq_one_iff.mpr ?_)
  rw [UInt32.le_iff_toNat_le]
  exact Nat.le_of_lt_succ h

end AccessPattern

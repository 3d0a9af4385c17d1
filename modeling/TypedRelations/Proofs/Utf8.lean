import Mathlib.Data.String.Basic
import Mathlib.Tactic.SplitIfs

/-!
# Texts as bytes

Texts are ordered character by character, by the code points. Written in UTF-8 they have the same
order byte by byte (`lt_iff_utf8Bytes_lt`): of two characters the lesser one has the lesser byte at
the first place where their encodings differ, and no encoding ends before such a place.
-/

namespace TypedRelations

open String (utf8EncodeChar)

/-- The bytes of a text in UTF-8. -/
def utf8Bytes (text : String) : List UInt8 := text.toUTF8.data.toList

/-- A text is encoded character by character. -/
theorem utf8Bytes_eq_flatMap (text : String) :
    utf8Bytes text = text.toList.flatMap utf8EncodeChar := by
  conv_lhs => rw [← String.ofList_toList (s := text)]
  rw [utf8Bytes, String.toUTF8_eq_toByteArray, String.toByteArray_ofList, List.utf8Encode,
    List.data_toByteArray]

theorem ofNat_cons_lt_ofNat_cons {first second : Nat} {left right : List UInt8}
    (firstBound : first < 256) (secondBound : second < 256) :
    UInt8.ofNat first :: left < UInt8.ofNat second :: right ↔
      first < second ∨ first = second ∧ left < right := by
  rw [List.cons_lt_cons_iff, UInt8.lt_iff_toNat_lt, ← UInt8.toNat_inj,
    UInt8.toNat_ofNat_of_lt' firstBound, UInt8.toNat_ofNat_of_lt' secondBound]

/-- Codes are compared by what comes before their last digit to base 64, and then by this digit. -/
theorem lt_iff_digits (first second : Nat) :
    first < second ↔
      first / 64 < second / 64 ∨ first / 64 = second / 64 ∧ first % 64 < second % 64 := by
  omega

/-- Whatever follows, the bytes of the lesser character come before those of the greater one. They
are digits to base 64 with marks: of two encodings of one length the digits decide, and of two
lengths the longer one has the greater mark on its first byte. -/
theorem utf8EncodeChar_append_lt {first second : Char} (less : first < second)
    (left right : List UInt8) :
    utf8EncodeChar first ++ left < utf8EncodeChar second ++ right := by
  have codes : first.val.toNat < second.val.toNat := less
  have bound : second.val.toNat < 1114112 := by
    rcases second.valid with _ | _ <;> omega
  rw [utf8EncodeChar, utf8EncodeChar]
  generalize first.val.toNat = code at *
  generalize second.val.toNat = other at *
  have low := (lt_iff_digits code other).mp codes
  have middle := lt_iff_digits (code / 64) (other / 64)
  have high := lt_iff_digits (code / 4096) (other / 4096)
  rw [Nat.div_div_eq_div_mul, Nat.div_div_eq_div_mul] at middle high
  split_ifs <;>
    simp (disch := omega) only [List.cons_append, List.nil_append, ofNat_cons_lt_ofNat_cons,
      Nat.mod_eq_of_lt] <;>
    omega

/-- The induction is on where the lists of characters begin to differ. -/
theorem flatMap_utf8EncodeChar_lt {first second : List Char} (less : first < second) :
    first.flatMap utf8EncodeChar < second.flatMap utf8EncodeChar := by
  induction List.lex_lt.mpr less with
  | @nil head rest =>
      obtain ⟨byte, bytes, encoded⟩ :=
        List.exists_cons_of_ne_nil (String.utf8EncodeChar_ne_nil (c := head))
      rw [List.flatMap_nil, List.flatMap_cons, encoded]
      exact List.nil_lt_cons byte _
  | rel headLess =>
      rw [List.flatMap_cons, List.flatMap_cons]
      exact utf8EncodeChar_append_lt headLess _ _
  | cons restLess ih =>
      rw [List.flatMap_cons, List.flatMap_cons]
      exact List.append_left_lt (ih (List.lex_lt.mp restLess))

theorem utf8Bytes_lt {first second : String} (less : first < second) :
    utf8Bytes first < utf8Bytes second := by
  rw [utf8Bytes_eq_flatMap, utf8Bytes_eq_flatMap]
  exact flatMap_utf8EncodeChar_lt (String.lt_iff.mp less)

/-- The order of texts is the order of their bytes. -/
theorem lt_iff_utf8Bytes_lt {first second : String} :
    first < second ↔ utf8Bytes first < utf8Bytes second := by
  refine ⟨utf8Bytes_lt, fun bytesLess => ?_⟩
  rcases lt_trichotomy first second with less | rfl | greater
  · exact less
  · exact absurd bytesLess (List.lt_irrefl _)
  · exact absurd bytesLess (List.lt_asymm (utf8Bytes_lt greater))

end TypedRelations

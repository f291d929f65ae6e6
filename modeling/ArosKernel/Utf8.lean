import Mathlib.Data.List.Basic

/-! Texts as lists of bytes. -/
namespace ArosKernel.Utf8

def bytes (text : String) : List UInt8 := text.toUTF8.data.toList

def readText (contents : List UInt8) : Option String := String.fromUTF8? contents.toByteArray

theorem bytesToByteArray (text : String) : (bytes text).toByteArray = text.toUTF8 := by
  refine ByteArray.ext ?_
  rw [List.data_toByteArray, bytes, Array.toArray_toList]

theorem readTextIff {contents : List UInt8} {text : String} : readText contents = some text ↔ contents = bytes text := by
  rw [← List.toByteArray_inj, bytesToByteArray, String.toUTF8_eq_toByteArray]
  unfold readText String.fromUTF8?
  by_cases valid : contents.toByteArray.IsValidUTF8
  · rw [dif_pos valid, Option.some.injEq, ← String.toByteArray_inj]
    rfl
  · rw [dif_neg valid]
    refine iff_of_false (fun none_ => nomatch none_) (fun same => valid ?_)
    exact same ▸ text.isValidUTF8

theorem bytesAppend (first second : String) : bytes (first ++ second) = bytes first ++ bytes second := by
  rw [← List.toByteArray_inj, List.toByteArray_append, bytesToByteArray, bytesToByteArray, bytesToByteArray]
  exact String.toByteArray_append

end ArosKernel.Utf8

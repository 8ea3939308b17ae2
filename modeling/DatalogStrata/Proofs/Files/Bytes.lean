import DatalogStrata.Files.Tree
import DatalogStrata.Proofs.Text
import Mathlib.Data.List.Basic

/-!
# The bytes of a text

## Main results

* `bytesOf_append`, `bytesOf_injective` — bytes of texts put together, and texts by their bytes
-/

namespace DatalogStrata

/-- Reading bytes from a place on puts what remains behind what was read. -/
theorem toList_loop_eq (bytes : ByteArray) (place : Nat) (read : List UInt8) :
    ByteArray.toList.loop bytes place read = read.reverse ++ bytes.data.toList.drop place := by
  induction place, read using ByteArray.toList.loop.induct bytes with
  | case1 place read inside ih =>
    have bound : place < bytes.data.toList.length := by simpa using inside
    have next : bytes.get! place = bytes.data.toList[place] :=
      getElem!_pos bytes.data place (by simpa using inside)
    rw [ByteArray.toList.loop, if_pos inside, ih, List.drop_eq_getElem_cons bound, next]
    simp
  | case2 place read outside =>
    have past : bytes.data.toList.length ≤ place := by simpa using outside
    rw [ByteArray.toList.loop, if_neg outside, List.drop_eq_nil_of_le past, List.append_nil]

theorem bytesOf_eq (text : String) : bytesOf text = text.toByteArray.data.toList := by
  rw [bytesOf, String.toUTF8, ByteArray.toList, toList_loop_eq]
  rfl

@[simp] theorem bytesOf_empty : bytesOf "" = [] := by
  rw [bytesOf_eq]
  rfl

@[simp] theorem bytesOf_append (text more : String) :
    bytesOf (text ++ more) = bytesOf text ++ bytesOf more := by
  rw [bytesOf_eq, bytesOf_eq, bytesOf_eq, String.toByteArray_append, ByteArray.toList_data_append]

theorem bytesOf_injective : Function.Injective bytesOf := by
  intro text other same
  rw [bytesOf_eq, bytesOf_eq, Array.toList_inj] at same
  exact String.toByteArray_inj.mp (ByteArray.ext same)

/-- A text that has the bytes of two texts is the two texts. -/
theorem eq_append_of_bytesOf {whole text more : String}
    (same : bytesOf whole = bytesOf text ++ bytesOf more) : whole = text ++ more :=
  bytesOf_injective (same.trans (bytesOf_append text more).symm)

theorem bytesOf_eq_nil_iff {text : String} : bytesOf text = [] ↔ text = "" := by
  rw [← bytesOf_empty, bytesOf_injective.eq_iff]

end DatalogStrata

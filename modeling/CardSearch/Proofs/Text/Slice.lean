import CardSearch.Text.Blank
import Mathlib.Data.String.Basic

/-
  Parts of a text between byte positions.

  A position in a query counts the bytes before it in UTF-8.  `byteLength` is that count for a list
  of characters (`utf8ByteSize_eq`), and a part that begins and ends between characters is cut out
  whole (`slice_append`).
-/

namespace CardSearch.Text

/-- The count of bytes is the one of the library.  By induction on the text. -/
theorem byteLength_eq_utf8Len (text : List Char) : byteLength text = String.utf8Len text := by
  induction text with
  | nil => rfl
  | cons c rest ih => rw [byteLength_cons, String.utf8Len_cons, ih, Nat.add_comm]

theorem utf8ByteSize_eq (text : String) : text.utf8ByteSize = byteLength text.toList := by
  rw [byteLength_eq_utf8Len, String.utf8Len_toList]

/-- The part of a text from the byte position `start` up to the byte position `stop`. -/
def slice (text : String) (start stop : Nat) : String := String.Pos.Raw.extract text ⟨start⟩ ⟨stop⟩

/-- **A part between two positions is cut out whole**, if they lie between characters. -/
theorem slice_append (before piece after : List Char) :
    slice (String.ofList (before ++ piece ++ after)) (byteLength before)
      (byteLength (before ++ piece)) = String.ofList piece := by
  rw [slice, byteLength_append, byteLength_eq_utf8Len, byteLength_eq_utf8Len]
  exact String.extract_of_valid before piece after

end CardSearch.Text

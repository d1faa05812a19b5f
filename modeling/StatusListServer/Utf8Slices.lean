import Mathlib.Algebra.GroupWithZero.Nat
import Mathlib.Data.List.Basic

/-!
# Byte offsets into text

The length of a text and the offsets into it count the bytes of its UTF-8 encoding.
A slice at an offset exists only where a character begins or the text ends.  A byte
that is the encoding of a character of its own never lies inside another character.
-/

namespace Utf8

/-- The number of bytes of a text. -/
def size (text : List Char) : Nat := (text.map Char.utf8Size).sum

/-- The bytes of a text. -/
def bytes (text : List Char) : List UInt8 := text.flatMap String.utf8EncodeChar

/-- The text before and after a byte offset; none inside a character or past the
end. -/
def splitAt : Nat → List Char → Option (List Char × List Char)
  | 0, text => some ([], text)
  | _ + 1, [] => none
  | n + 1, c :: text =>
      if c.utf8Size ≤ n + 1 then
        (splitAt (n + 1 - c.utf8Size) text).map fun parts => (c :: parts.1, parts.2)
      else none

/-- The size of the empty text. -/
@[simp] theorem size_nil : size [] = 0 := rfl

/-- The size of a longer text. -/
@[simp] theorem size_cons (c : Char) (text : List Char) :
    size (c :: text) = c.utf8Size + size text := by
  simp [size]

/-- The size of two texts together. -/
@[simp] theorem size_append (a b : List Char) : size (a ++ b) = size a + size b := by
  simp [size]

/-- The size is the number of bytes. -/
theorem length_bytes (text : List Char) : (bytes text).length = size text := by
  simp [bytes, size, List.length_flatMap]

/-- Text splits at the end of each of its initial parts. -/
theorem splitAt_append (a b : List Char) : splitAt (size a) (a ++ b) = some (a, b) := by
  induction a with
  | nil => simp [splitAt]
  | cons c a ih =>
      obtain ⟨n, hn⟩ : ∃ n, c.utf8Size + size a = n + 1 :=
        ⟨c.utf8Size + size a - 1, by have := c.utf8Size_pos; omega⟩
      have hrest : n + 1 - c.utf8Size = size a := by omega
      rw [size_cons, hn, List.cons_append, splitAt, if_pos (by omega), hrest, ih]
      rfl

/-- The parts of a text are known from the size of the first. -/
theorem append_inj {a b a' b' : List Char} (h : a ++ b = a' ++ b') (hsize : size a = size a') :
    a = a' ∧ b = b' := by
  have hsplit := splitAt_append a b
  rw [h, hsize, splitAt_append] at hsplit
  cases hsplit
  exact ⟨rfl, rfl⟩

variable {c : Char}

/-- A character of one byte is found at its offset. -/
theorem getElem?_bytes_of_eq_append (hc : c.utf8Size = 1) (a b : List Char) :
    (bytes (a ++ c :: b))[size a]? = some c.val.toUInt8 := by
  have hbytes : bytes (a ++ c :: b) = bytes a ++ c.val.toUInt8 :: bytes b := by
    simp [bytes, String.utf8EncodeChar_eq_singleton hc]
  rw [hbytes, ← length_bytes, List.getElem?_append_right (Nat.le_refl _), Nat.sub_self]
  rfl

/-- Nothing but a character of one byte is encoded from its byte on. -/
theorem eq_of_head_utf8EncodeChar (hc : c.utf8Size = 1) {d : Char}
    (h : (String.utf8EncodeChar d)[0]? = some c.val.toUInt8) : d = c := by
  obtain ⟨rest, hrest⟩ : ∃ rest, String.utf8EncodeChar d = String.utf8EncodeChar c ++ rest := by
    rw [String.utf8EncodeChar_eq_singleton hc]
    cases henc : String.utf8EncodeChar d with
    | nil => simp [henc] at h
    | cons x rest =>
        rw [henc] at h
        cases h
        exact ⟨rest, rfl⟩
  have hd : ((String.utf8EncodeChar d).toByteArray ++ ByteArray.empty).utf8DecodeChar? 0 = some d :=
    ByteArray.utf8DecodeChar?_utf8EncodeChar_append
  rw [ByteArray.append_empty, hrest, List.toByteArray_append,
    ByteArray.utf8DecodeChar?_utf8EncodeChar_append] at hd
  exact (Option.some.inj hd).symm

/-- The byte of a character of one byte is that character. -/
theorem exists_append_of_getElem?_bytes (hc : c.utf8Size = 1) {text : List Char} {i : Nat}
    (h : (bytes text)[i]? = some c.val.toUInt8) : ∃ a b, text = a ++ c :: b ∧ size a = i := by
  induction text generalizing i with
  | nil => simp [bytes] at h
  | cons d text ih =>
      have hbytes : bytes (d :: text) = String.utf8EncodeChar d ++ bytes text := by simp [bytes]
      rw [hbytes] at h
      by_cases hi : i < (String.utf8EncodeChar d).length
      · rw [List.getElem?_append_left hi] at h
        have hfirst : (c.val.toUInt8).IsUTF8FirstByte := by
          have := UInt8.isUTF8FirstByte_getElem_zero_utf8EncodeChar (c := c)
          simpa [String.utf8EncodeChar_eq_singleton hc] using this
        obtain ⟨_, hget⟩ := List.getElem?_eq_some_iff.mp h
        rw [← hget, UInt8.isUTF8FirstByte_getElem_utf8EncodeChar] at hfirst
        subst hfirst
        obtain rfl := eq_of_head_utf8EncodeChar hc h
        exact ⟨[], text, rfl, rfl⟩
      · rw [List.getElem?_append_right (by omega), String.length_utf8EncodeChar] at h
        rw [String.length_utf8EncodeChar] at hi
        obtain ⟨a, b, rfl, hsize⟩ := ih h
        exact ⟨d :: a, b, rfl, by rw [size_cons]; omega⟩

end Utf8

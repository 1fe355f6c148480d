import Mathlib
import MathProgram.Text.Utf8

/-!
# Encoding texts

The bytes of a text are those of its characters, one after another (`bytes_eq_flatMap`), so
encoding goes through concatenation (`bytes_append`, `bytes_join`), and decoding undoes it
(`text?_bytes`). A character below 128 is its own byte, and every byte of any other character is at
least 128: bytes that are looked for by value are found only where the character stands.
-/

namespace MathProgram.Utf8

/-- The bytes of a text are those of its characters. -/
theorem bytes_eq_flatMap (s : String) : bytes s = s.toList.flatMap String.utf8EncodeChar := by
  rw [bytes, String.toUTF8_eq_toByteArray, ← String.utf8Encode_toList, List.utf8Encode,
    List.toList_data_toByteArray]

/-- Nothing is encoded by no bytes. -/
@[simp] theorem bytes_empty : bytes "" = [] := rfl

/-- Texts are encoded one after another. -/
@[simp] theorem bytes_append (s t : String) : bytes (s ++ t) = bytes s ++ bytes t := by
  simp [bytes_eq_flatMap]

/-- Pieces are encoded one after another. -/
theorem bytes_join (ps : List String) : bytes (String.join ps) = ps.flatMap bytes := by
  induction ps with
  | nil => rfl
  | cons p ps ih => rw [String.join_cons, bytes_append, ih, List.flatMap_cons]

/-- Decoding undoes encoding. -/
@[simp] theorem text?_bytes (s : String) : text? (bytes s) = some s := by
  have hvalid : ByteArray.IsValidUTF8 ⟨(bytes s).toArray⟩ := s.isValidUTF8
  rw [text?, String.fromUTF8?, dif_pos hvalid]
  rfl

/-- A character below 128 is its own byte. -/
theorem utf8EncodeChar_of_lt {c : Char} (h : c.toNat < 128) :
    String.utf8EncodeChar c = [c.toNat.toUInt8] :=
  if_pos (Nat.le_of_lt_succ h)

/-- The bytes of a character from 128 on are at least 128. -/
theorem le_of_mem_utf8EncodeChar {c : Char} (h : 128 ≤ c.toNat) {b : UInt8}
    (hb : b ∈ String.utf8EncodeChar c) : 128 ≤ b.toNat := by
  have hlarge : ¬ c.val.toNat ≤ 0x7f := Nat.not_le_of_lt h
  unfold String.utf8EncodeChar at hb
  dsimp only at hb
  rw [if_neg hlarge] at hb
  split_ifs at hb
  -- Two, three or four bytes, each of them with its highest bit set.
  all_goals simp only [List.mem_cons, List.not_mem_nil, or_false] at hb
  · obtain rfl | rfl := hb <;> simp only [UInt8.toNat_ofNat'] <;> omega
  · obtain rfl | rfl | rfl := hb <;> simp only [UInt8.toNat_ofNat'] <;> omega
  · obtain rfl | rfl | rfl | rfl := hb <;> simp only [UInt8.toNat_ofNat'] <;> omega

/-- Characters below 128 are read off their bytes one by one. -/
theorem map_char_bytes {s : String} (h : ∀ c ∈ s.toList, c.toNat < 128) :
    (bytes s).map (fun b => Char.ofNat b.toNat) = s.toList := by
  rw [bytes_eq_flatMap]
  generalize s.toList = cs at h
  induction cs with
  | nil => rfl
  | cons c cs ih =>
    have hc : c.toNat < 128 := h c (List.mem_cons_self ..)
    have hback : c.toNat.toUInt8.toNat = c.toNat :=
      UInt8.toNat_ofNat_of_lt' (by show c.toNat < 256; omega)
    rw [List.flatMap_cons, utf8EncodeChar_of_lt hc, List.map_append,
      ih fun d hd => h d (List.mem_cons_of_mem _ hd), List.map_singleton, hback, Char.ofNat_toNat]
    rfl

end MathProgram.Utf8

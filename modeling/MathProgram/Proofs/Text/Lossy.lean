import MathProgram.Proofs.Text.Utf8

/-!
# Decoding what was encoded

`Utf8.lossy` replaces what cannot be decoded. The bytes of a text can be decoded throughout, so it
gives the text back (`lossy_bytes`): each character is read off its first byte, which says how many
bytes follow and between which bounds the second one lies, and the bits in these make up its value.
-/

namespace MathProgram.Utf8

variable {b : UInt8} {bs rest : List UInt8} {ranges : List (UInt8 × UInt8)}

/-- The bytes that have to follow a first byte, by its number. -/
theorem following?_eq (b : UInt8) : following? b =
    if 0xC2 ≤ b.toNat ∧ b.toNat ≤ 0xDF then some [(0x80, 0xBF)]
    else if b.toNat = 0xE0 then some [(0xA0, 0xBF), (0x80, 0xBF)]
    else if b.toNat = 0xED then some [(0x80, 0x9F), (0x80, 0xBF)]
    else if 0xE1 ≤ b.toNat ∧ b.toNat ≤ 0xEF then some [(0x80, 0xBF), (0x80, 0xBF)]
    else if b.toNat = 0xF0 then some [(0x90, 0xBF), (0x80, 0xBF), (0x80, 0xBF)]
    else if 0xF1 ≤ b.toNat ∧ b.toNat ≤ 0xF3 then
      some [(0x80, 0xBF), (0x80, 0xBF), (0x80, 0xBF)]
    else if b.toNat = 0xF4 then some [(0x80, 0x8F), (0x80, 0xBF), (0x80, 0xBF)]
    else none := by
  unfold following?
  simp only [Bool.and_eq_true, decide_eq_true_eq, beq_iff_eq, UInt8.le_iff_toNat_le,
    ← UInt8.toNat_inj]
  rfl

/-- Bytes that lie in their ranges are all counted. -/
theorem inRanges_append (h : List.Forall₂ (fun r b => r.1 ≤ b ∧ b ≤ r.2) ranges bs) :
    inRanges ranges (bs ++ rest) = ranges.length := by
  induction h with
  | nil => cases rest <;> rfl
  | cons hb _ ih =>
    rw [List.cons_append, inRanges, ih, if_pos (by simpa using hb)]
    rfl

/-- A first byte from 128 on is decoded with those that follow it. -/
theorem lossyChars_following (hb : 0x80 ≤ b.toNat) (hranges : following? b = some ranges)
    (hbs : List.Forall₂ (fun r b => r.1 ≤ b ∧ b ≤ r.2) ranges bs) :
    lossyChars (b :: (bs ++ rest)) = Char.ofNat (scalarValue b bs) :: lossyChars rest := by
  have hlarge : ¬ b < 0x80 := by
    rw [UInt8.lt_iff_toNat_lt]
    exact Nat.not_lt_of_le hb
  rw [lossyChars, if_neg hlarge, hranges]
  dsimp only
  rw [inRanges_append hbs, if_pos rfl, hbs.length_eq, List.take_left, List.drop_left]

/-- A byte is in a range if its number is. -/
theorem mem_range_ofNat {n : ℕ} {low high : UInt8} (hlow : low.toNat ≤ n)
    (hhigh : n ≤ high.toNat) : low ≤ UInt8.ofNat n ∧ UInt8.ofNat n ≤ high := by
  have hn : (UInt8.ofNat n).toNat = n :=
    UInt8.toNat_ofNat_of_lt' (hhigh.trans_lt (UInt8.toNat_lt high))
  rw [UInt8.le_iff_toNat_le, UInt8.le_iff_toNat_le, hn]
  exact ⟨hlow, hhigh⟩

/-- The number of a byte that carries six bits. -/
theorem toNat_carrier (n : ℕ) : (UInt8.ofNat (n % 0x40 + 0x80)).toNat = n % 0x40 + 0x80 :=
  UInt8.toNat_ofNat_of_lt' (by show _ < 256; omega)

/-- A byte that carries six bits can follow. -/
theorem mem_range_carrier (n : ℕ) :
    0x80 ≤ UInt8.ofNat (n % 0x40 + 0x80) ∧ UInt8.ofNat (n % 0x40 + 0x80) ≤ 0xBF :=
  mem_range_ofNat (by show 0x80 ≤ _; omega) (by show _ ≤ 0xBF; omega)

/-- A character of two bytes. -/
theorem lossyChars_two {v : ℕ} (hlow : 0x80 ≤ v) (hhigh : v < 0x800) (rest : List UInt8) :
    lossyChars (UInt8.ofNat (v / 64 % 0x20 + 0xC0) :: ([UInt8.ofNat (v % 0x40 + 0x80)] ++ rest)) =
      Char.ofNat v :: lossyChars rest := by
  have hfirst : (UInt8.ofNat (v / 64 % 0x20 + 0xC0)).toNat = v / 64 % 0x20 + 0xC0 :=
    UInt8.toNat_ofNat_of_lt' (by show _ < 256; omega)
  have hranges : following? (UInt8.ofNat (v / 64 % 0x20 + 0xC0)) = some [(0x80, 0xBF)] := by
    rw [following?_eq, hfirst, if_pos (by omega)]
  rw [lossyChars_following (by rw [hfirst]; omega) hranges
    (.cons (mem_range_carrier _) .nil)]
  have hvalue : scalarValue (UInt8.ofNat (v / 64 % 0x20 + 0xC0)) [UInt8.ofNat (v % 0x40 + 0x80)] =
      v := by
    show (UInt8.ofNat (v / 64 % 0x20 + 0xC0)).toNat % 0x20 * 64 +
      (UInt8.ofNat (v % 0x40 + 0x80)).toNat % 64 = v
    rw [hfirst, toNat_carrier]
    omega
  rw [hvalue]

/-- A character of three bytes. The first of them may bound the second more tightly. -/
theorem lossyChars_three {v : ℕ} (hlow : 0x800 ≤ v) (hhigh : v < 0x10000)
    (hvalid : v < 0xD800 ∨ 0xDFFF < v) (rest : List UInt8) :
    lossyChars (UInt8.ofNat (v / 4096 % 0x10 + 0xE0) ::
      ([UInt8.ofNat (v / 64 % 0x40 + 0x80), UInt8.ofNat (v % 0x40 + 0x80)] ++ rest)) =
        Char.ofNat v :: lossyChars rest := by
  have hfirst : (UInt8.ofNat (v / 4096 % 0x10 + 0xE0)).toNat = v / 4096 % 0x10 + 0xE0 :=
    UInt8.toNat_ofNat_of_lt' (by show _ < 256; omega)
  have hranges : ∃ low high : UInt8,
      following? (UInt8.ofNat (v / 4096 % 0x10 + 0xE0)) = some [(low, high), (0x80, 0xBF)] ∧
        low.toNat ≤ v / 64 % 0x40 + 0x80 ∧ v / 64 % 0x40 + 0x80 ≤ high.toNat := by
    rw [following?_eq, hfirst, if_neg (by omega)]
    split_ifs with hleast hsurrogate hplain
    · exact ⟨0xA0, 0xBF, rfl, by show 0xA0 ≤ _; omega, by show _ ≤ 0xBF; omega⟩
    · exact ⟨0x80, 0x9F, rfl, by show 0x80 ≤ _; omega, by show _ ≤ 0x9F; omega⟩
    · exact ⟨0x80, 0xBF, rfl, by show 0x80 ≤ _; omega, by show _ ≤ 0xBF; omega⟩
    all_goals omega
  obtain ⟨low, high, hranges, hl, hh⟩ := hranges
  rw [lossyChars_following (by rw [hfirst]; omega) hranges
    (.cons (mem_range_ofNat hl hh) (.cons (mem_range_carrier _) .nil))]
  have hvalue : scalarValue (UInt8.ofNat (v / 4096 % 0x10 + 0xE0))
      [UInt8.ofNat (v / 64 % 0x40 + 0x80), UInt8.ofNat (v % 0x40 + 0x80)] = v := by
    show ((UInt8.ofNat (v / 4096 % 0x10 + 0xE0)).toNat % 0x10 * 64 +
      (UInt8.ofNat (v / 64 % 0x40 + 0x80)).toNat % 64) * 64 +
        (UInt8.ofNat (v % 0x40 + 0x80)).toNat % 64 = v
    rw [hfirst, toNat_carrier, toNat_carrier]
    omega
  rw [hvalue]

/-- A character of four bytes. The first of them may bound the second more tightly. -/
theorem lossyChars_four {v : ℕ} (hlow : 0x10000 ≤ v) (hhigh : v < 0x110000)
    (rest : List UInt8) :
    lossyChars (UInt8.ofNat (v / 262144 % 0x08 + 0xF0) ::
      ([UInt8.ofNat (v / 4096 % 0x40 + 0x80), UInt8.ofNat (v / 64 % 0x40 + 0x80),
        UInt8.ofNat (v % 0x40 + 0x80)] ++ rest)) = Char.ofNat v :: lossyChars rest := by
  have hfirst : (UInt8.ofNat (v / 262144 % 0x08 + 0xF0)).toNat = v / 262144 % 0x08 + 0xF0 :=
    UInt8.toNat_ofNat_of_lt' (by show _ < 256; omega)
  have hranges : ∃ low high : UInt8, following? (UInt8.ofNat (v / 262144 % 0x08 + 0xF0)) =
      some [(low, high), (0x80, 0xBF), (0x80, 0xBF)] ∧
        low.toNat ≤ v / 4096 % 0x40 + 0x80 ∧ v / 4096 % 0x40 + 0x80 ≤ high.toNat := by
    rw [following?_eq, hfirst, if_neg (by omega), if_neg (by omega), if_neg (by omega),
      if_neg (by omega)]
    split_ifs with hleast hplain hgreatest
    · exact ⟨0x90, 0xBF, rfl, by show 0x90 ≤ _; omega, by show _ ≤ 0xBF; omega⟩
    · exact ⟨0x80, 0xBF, rfl, by show 0x80 ≤ _; omega, by show _ ≤ 0xBF; omega⟩
    · exact ⟨0x80, 0x8F, rfl, by show 0x80 ≤ _; omega, by show _ ≤ 0x8F; omega⟩
    · omega
  obtain ⟨low, high, hranges, hl, hh⟩ := hranges
  rw [lossyChars_following (by rw [hfirst]; omega) hranges
    (.cons (mem_range_ofNat hl hh) (.cons (mem_range_carrier _)
      (.cons (mem_range_carrier _) .nil)))]
  have hvalue : scalarValue (UInt8.ofNat (v / 262144 % 0x08 + 0xF0))
      [UInt8.ofNat (v / 4096 % 0x40 + 0x80), UInt8.ofNat (v / 64 % 0x40 + 0x80),
        UInt8.ofNat (v % 0x40 + 0x80)] = v := by
    show (((UInt8.ofNat (v / 262144 % 0x08 + 0xF0)).toNat % 0x08 * 64 +
      (UInt8.ofNat (v / 4096 % 0x40 + 0x80)).toNat % 64) * 64 +
        (UInt8.ofNat (v / 64 % 0x40 + 0x80)).toNat % 64) * 64 +
          (UInt8.ofNat (v % 0x40 + 0x80)).toNat % 64 = v
    rw [hfirst, toNat_carrier, toNat_carrier, toNat_carrier]
    omega
  rw [hvalue]

/-- A character is read off its bytes. -/
theorem lossyChars_utf8EncodeChar (c : Char) (rest : List UInt8) :
    lossyChars (String.utf8EncodeChar c ++ rest) = c :: lossyChars rest := by
  have hvalid : c.val.toNat < 0xD800 ∨ (0xDFFF < c.val.toNat ∧ c.val.toNat < 0x110000) := c.valid
  have hchar : Char.ofNat c.val.toNat = c := Char.ofNat_toNat c
  unfold String.utf8EncodeChar
  dsimp only
  split_ifs with hone htwo hthree
  · have hbyte : (UInt8.ofNat c.val.toNat).toNat = c.val.toNat :=
      UInt8.toNat_ofNat_of_lt' (by show _ < 256; omega)
    have hsmall : UInt8.ofNat c.val.toNat < 0x80 := by
      rw [UInt8.lt_iff_toNat_lt, hbyte]
      exact Nat.lt_succ_of_le hone
    rw [List.cons_append, lossyChars, if_pos hsmall, hbyte, hchar, List.nil_append]
  · exact (lossyChars_two (by omega) (by omega) rest).trans (by rw [hchar])
  · exact (lossyChars_three (by omega) (by omega) (by omega) rest).trans (by rw [hchar])
  · exact (lossyChars_four (by omega) (by omega) rest).trans (by rw [hchar])

/-- The bytes of a text are decoded to the text. -/
theorem lossy_bytes (s : String) : lossy (bytes s) = s := by
  have hchars (cs : List Char) : lossyChars (cs.flatMap String.utf8EncodeChar) = cs := by
    induction cs with
    | nil => rw [List.flatMap_nil, lossyChars]
    | cons c cs ih => rw [List.flatMap_cons, lossyChars_utf8EncodeChar, ih]
  rw [lossy, bytes_eq_flatMap, hchars, String.ofList_toList]

end MathProgram.Utf8

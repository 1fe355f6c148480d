import Mathlib
import MathProgram.Decimal.Binary

/-!
# Doubles and their bits

The kernel's model of doubles keeps 64 bits, unpacks them for an operation and packs the result.
`pack_unpack` says that this loses nothing, so a double is given by its bits (`ofBits_toBits`), and
a pattern of bits that is no NaN is the pattern of a double (`toBits_ofBits`).

`Binary.ofFloat` reads the three parts of a double off its bits. `bits_of_finite` and
`bits_of_infinite` give the bits back from the parts, and `finite_range` says which parts there are:
a significand below `2^53` that fills its 53 places unless the exponent is the least one, `-1074`.
-/

namespace MathProgram

open Float.Model (Format UnpackedFloat)
open Float.Model.UnpackedFloat (Sign packComponents unpackSign unpackExponent unpackMantissa)

/-! ## Packing -/

section Fields

variable {b : BitVec Format.binary64.numBits} {e : BitVec 11} {f : BitVec 52}

/-- The exponent field as a number. -/
theorem toNat_unpackExponent (b : BitVec Format.binary64.numBits) :
    (unpackExponent b).toNat = b.toNat / 2 ^ 52 % 2 ^ 11 := by
  simp [unpackExponent, Nat.shiftRight_eq_div_pow]

/-- The fraction field as a number. -/
theorem toNat_unpackMantissa (b : BitVec Format.binary64.numBits) :
    (unpackMantissa b).toNat = b.toNat % 2 ^ 52 := by
  simp [unpackMantissa]

/-- A pattern is put together from its fields. -/
theorem packComponents_fields (he : unpackExponent b = e) (hf : unpackMantissa b = f) :
    packComponents .binary64 (Sign.ofBitVec (unpackSign b)) e f = b := by
  -- The sign field is a single bit, so both of its values are tried.
  have hs (c : BitVec 1) : (Sign.ofBitVec c).toBitVec = c := by
    revert c
    decide
  subst he hf
  simp only [packComponents, hs, unpackSign, unpackExponent, unpackMantissa, BitVec.extractLsb]
  ext i hi
  grind

/-- The implicit bit stands above the fraction. -/
theorem toNat_implicit_append (f : BitVec 52) : (1#1 ++ f).toNat = 2 ^ 52 + f.toNat := by
  rw [BitVec.toNat_append, ← Nat.shiftLeft_add_eq_or_of_lt f.isLt]
  simp [Nat.shiftLeft_eq]

/-- Unpacking a pattern and packing it again changes nothing, unless it is a NaN other than the
canonical one. -/
theorem pack_unpack (h : Format.binary64.Valid b) :
    UnpackedFloat.pack .binary64 (UnpackedFloat.unpack .binary64 b) = b := by
  have hf : (unpackMantissa b).toNat < 2 ^ 52 := (unpackMantissa b).isLt
  have he : (unpackExponent b).toNat < 2 ^ 11 := (unpackExponent b).isLt
  rw [UnpackedFloat.unpack]
  split
  · rename_i hinf
    split
    · rename_i h0
      exact packComponents_fields hinf h0
    · rename_i hnan
      exact (h.eq_packedNaN hinf hnan).symm
  · rename_i hfin
    split
    · rename_i hsub
      split
      · rename_i h0
        exact packComponents_fields hsub h0
      · rename_i hpos
        -- A subnormal pattern: the significand is too short for the implicit bit.
        have hne : (unpackMantissa b).toNat ≠ 0 := fun h0 => hpos (BitVec.toNat_inj.1 (by simpa))
        have hlog : (unpackMantissa b).toNat.log2 < 52 := (Nat.log2_lt hne).2 hf
        rw [UnpackedFloat.pack, hsub]
        simp only
        rw [if_neg (by decide), if_neg (by simp [Format.mantissaBits]; omega)]
        refine packComponents_fields hsub ?_
        rw [BitVec.ofNat_toNat, BitVec.setWidth_eq]
    · rename_i hnorm
      -- A normal pattern: the biased exponent is the field, and the implicit bit is dropped.
      have hemax : (unpackExponent b).toNat ≠ 2047 := fun h0 =>
        hfin (BitVec.toNat_inj.1 (by simpa using h0))
      have hlog : (2 ^ 52 + (unpackMantissa b).toNat).log2 = 52 := by
        rw [Nat.log2_eq_iff (by omega)]
        omega
      have hbias : (((unpackExponent b).toNat : ℤ)
          - ((Format.binary64.exponentBias : ℕ) + (Format.binary64.mantissaBitsWithoutImplicit : ℕ))
          + (Format.binary64.exponentBias : ℕ)
          + (Format.binary64.mantissaBitsWithoutImplicit : ℕ)).toNat =
            (unpackExponent b).toNat := by
        omega
      rw [UnpackedFloat.pack]
      simp only [hbias, toNat_implicit_append, hlog]
      rw [if_neg (by simp only [Format.binary64]; omega), if_pos (by rfl)]
      refine packComponents_fields (by rw [BitVec.ofNat_toNat, BitVec.setWidth_eq]) ?_
      rw [← BitVec.toNat_inj, BitVec.toNat_ofNat, Nat.add_mod_left, Nat.mod_eq_of_lt hf]

end Fields

/-- A double is given by its bits. -/
theorem ofBits_toBits (x : Float) : Float.ofBits x.toBits = x := by
  obtain ⟨bits, hv⟩ := x
  have h := pack_unpack hv
  simp only [Float.ofBits, Float.toBits, Float.Model.ofBits, Float.Model.pack, h]

/-- A pattern that is no NaN is the pattern of a double. -/
theorem toBits_ofBits {b : UInt64}
    (h : b.toNat / 2 ^ 52 % 2 ^ 11 = 2047 → b.toNat % 2 ^ 52 = 0) :
    (Float.ofBits b).toBits = b := by
  -- With the largest exponent the fraction is zero, so the pattern is the one that is kept.
  have hv : Format.binary64.Valid b.toBitVec := by
    refine ⟨fun he hf => absurd ?_ hf⟩
    rw [← BitVec.toNat_inj, toNat_unpackMantissa]
    exact h (by rw [← UInt64.toNat_toBitVec, ← toNat_unpackExponent, he]; rfl)
  have hp := pack_unpack hv
  simp only [Float.ofBits, Float.toBits, Float.Model.ofBits, Float.Model.pack, hp]

/-- A NaN has the largest exponent and a fraction. -/
theorem isNaN_iff (x : Float) :
    x.isNaN ↔ x.toBits.toNat / 2 ^ 52 % 2 ^ 11 = 2047 ∧ x.toBits.toNat % 2 ^ 52 ≠ 0 := by
  have hnan (b : BitVec Format.binary64.numBits) : (UnpackedFloat.unpack .binary64 b).isNaN ↔
      unpackExponent b = -1#11 ∧ unpackMantissa b ≠ 0#52 := by
    unfold UnpackedFloat.unpack
    dsimp only
    split_ifs <;> simp_all [UnpackedFloat.isNaN]
  refine (hnan x.toBits.toBitVec).trans ?_
  rw [← BitVec.toNat_inj, Ne, ← BitVec.toNat_inj, toNat_unpackExponent, toNat_unpackMantissa]
  rfl

/-! ## The parts of a double -/

namespace Binary

/-- A double is a NaN exactly if no value is read off it. -/
theorem ofFloat_eq_nan_iff (x : Float) : ofFloat x = .nan ↔ x.isNaN := by
  rw [isNaN_iff]
  unfold ofFloat
  dsimp only
  split_ifs <;> simp_all

/-- The bits of an infinity. -/
theorem bits_of_infinite {x : Float} {negative : Bool} (h : ofFloat x = .infinite negative) :
    x.toBits.toNat = infinityBits + if negative then 2 ^ 63 else 0 := by
  have hlt := x.toBits.toNat_lt
  unfold ofFloat at h
  dsimp only at h
  split_ifs at h with he hf
  obtain rfl : _ = negative := by simpa using h
  unfold infinityBits
  split_ifs with hn
  · have := beq_iff_eq.1 hn
    omega
  · have := mt beq_iff_eq.2 hn
    omega

/-- The bits of a finite double. -/
theorem bits_of_finite {x : Float} {negative : Bool} {m : ℕ} {q : ℤ}
    (h : ofFloat x = .finite negative m q) :
    x.toBits.toNat = (q + 1074).toNat * 2 ^ 52 + m + if negative then 2 ^ 63 else 0 := by
  have hlt := x.toBits.toNat_lt
  unfold ofFloat at h
  dsimp only at h
  split_ifs at h with he hf hz
  -- Subnormal or normal, the parts are the fields, and the sign is the bit above them.
  all_goals
    obtain ⟨hs, rfl, rfl⟩ := finite.inj h
    split_ifs with hn
    · have := beq_iff_eq.1 (hs.trans hn)
      omega
    · have := mt beq_iff_eq.2 (fun h => hn (hs.symm.trans h))
      omega

/-- The significand of a finite double has at most 53 places, and all of them unless the exponent is
the least one. -/
theorem finite_range {x : Float} {negative : Bool} {m : ℕ} {q : ℤ}
    (h : ofFloat x = .finite negative m q) :
    m < 2 ^ 53 ∧ -1074 ≤ q ∧ q ≤ 971 ∧ (q = -1074 ∨ 2 ^ 52 ≤ m) := by
  unfold ofFloat at h
  dsimp only at h
  split_ifs at h with he hf hz
  · simp only [finite.injEq] at h
    omega
  · simp only [finite.injEq] at h
    omega

end Binary

end MathProgram

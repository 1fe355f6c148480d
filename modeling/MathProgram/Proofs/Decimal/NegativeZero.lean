import MathProgram.Proofs.Decimal.Bits

/-!
# Sums that are negative zeros

Adding zero to a double gives the double back, unless it is the negative zero. Such doubles are
`Settled`. A sum of nonzero doubles is never rounded to zero, since its exponent is not below the
least one (`round_pos`), so a sum is settled if its first summand is (`Settled.add`).
-/

namespace MathProgram

open Float.Model (Format UnpackedFloat totalExponent)
open Float.Model.UnpackedFloat

/-! ## Rounding -/

/-- Shifting an extended mantissa divides it by a power of two. -/
theorem mantissa_shiftRight (em : ExtendedMantissa) (n : ℕ) :
    (em >>> n).mantissa = em.mantissa / 2 ^ n := by
  show (n.repeat ExtendedMantissa.shiftRightOne em).mantissa = em.mantissa / 2 ^ n
  induction n with
  | zero => simp [Nat.repeat]
  | succ n ih =>
    rw [Nat.repeat, ExtendedMantissa.shiftRightOne, ih, Nat.div_div_eq_div_mul, ← Nat.pow_succ]

/-- Rounding leaves a mantissa or adds one to it. -/
theorem roundedMantissa_bounds (em : ExtendedMantissa) :
    em.mantissa ≤ em.roundedMantissa ∧ em.roundedMantissa ≤ em.mantissa + 1 := by
  obtain ⟨m, roundBit, stickyBit⟩ := em
  cases roundBit <;> cases stickyBit <;>
    simp only [ExtendedMantissa.roundedMantissa, ExtendedMantissa.accuracy,
      Accuracy.roundToNearestEven] <;> omega

/-- The exponent that a double of the size of `m · 2^e` has. -/
theorem targetExponent_eq (m : ℕ) (e : ℤ) :
    Format.binary64.targetExponent (totalExponent m e) = max (m.log2 + e - 52) (-1074) := by
  simp only [Format.targetExponent, totalExponent, Format.mantissaBits, Format.minExponent]
  omega

/-- Shifting to the exponent of a double leaves a positive mantissa of at most 53 places. -/
theorem shiftToTargetExponent_spec {m : ℕ} {e : ℤ} (hm : 0 < m) (he : -1074 ≤ e)
    (accuracy : Accuracy) :
    0 < (shiftToTargetExponent .binary64 m e accuracy).1.mantissa ∧
      (shiftToTargetExponent .binary64 m e accuracy).1.mantissa < 2 ^ 53 ∧
      -1074 ≤ (shiftToTargetExponent .binary64 m e accuracy).2 := by
  simp only [shiftToTargetExponent, shiftToExponent, targetExponent_eq]
  set k := (max (m.log2 + e - 52) (-1074) - e).toNat with hk
  have hmantissa : (ExtendedMantissa.ofMantissaAndAccuracy m accuracy).mantissa = m := by
    unfold ExtendedMantissa.ofMantissaAndAccuracy
    split <;> rfl
  -- What is shifted out are the places beyond 53, or those below the least exponent.
  have hshift : m.log2 - 52 = k := by omega
  have hlow := Nat.log2_self_le hm.ne'
  have hhigh := Nat.lt_log2_self (n := m)
  rw [mantissa_shiftRight, hmantissa]
  refine ⟨Nat.div_pos ?_ (by positivity), ?_, by omega⟩
  · exact (Nat.pow_le_pow_right (by norm_num) (by omega)).trans hlow
  · rw [Nat.div_lt_iff_lt_mul (by positivity), ← pow_add]
    exact hhigh.trans_le (Nat.pow_le_pow_right (by norm_num) (by omega))

/-- A positive mantissa is not rounded to zero, unless its exponent is below the least one. -/
theorem round_pos {m : ℕ} {e : ℤ} (hm : 0 < m) (he : -1074 ≤ e) (sign : Sign) :
    ∃ m' e' h, UnpackedFloat.round .binary64 sign m e = .finite sign m' e' h ∧
      m' < 2 ^ 53 ∧ -1074 ≤ e' := by
  unfold UnpackedFloat.round
  simp only [decreaseExponent, targetExponent_eq]
  set k := (e - max (m.log2 + e - 52) (-1074)).toNat
  have hm' : 0 < m <<< k := by
    rw [Nat.shiftLeft_eq]
    positivity
  -- Rounding shifts twice: to the exponent of the sum, and again after a carry.
  obtain ⟨hpos, -, hexp⟩ := shiftToTargetExponent_spec hm' (by omega : -1074 ≤ e - k) .exact
  simp only [roundWithAccuracy]
  set em := (shiftToTargetExponent .binary64 (m <<< k) (e - k) .exact).1
  obtain ⟨hpos', hlt, hexp'⟩ := shiftToTargetExponent_spec
    (hpos.trans_le (roundedMantissa_bounds em).1) hexp .exact
  rw [dif_neg hpos'.ne']
  exact ⟨_, _, hpos', rfl, hlt, hexp'⟩

/-! ## Zeros -/

/-- The pattern of a zero has no bits but the sign. -/
theorem fields_of_unpack_zero {b : BitVec Format.binary64.numBits} {sign : Sign}
    (h : UnpackedFloat.unpack .binary64 b = .zero sign) :
    unpackExponent b = 0#11 ∧ unpackMantissa b = 0#52 := by
  unfold UnpackedFloat.unpack at h
  dsimp only at h
  split_ifs at h with h1 h2 h3 h4
  exact ⟨h3, h4⟩

/-- A NaN is packed to a pattern that is no zero. -/
theorem unpack_pack_nan (sign : Sign) : UnpackedFloat.unpack .binary64
    (UnpackedFloat.pack .binary64 .notANumber) ≠ .zero sign := by
  intro h
  have hexp := (fields_of_unpack_zero h).1
  rw [UnpackedFloat.pack, packedNaN, unpackExponent_packComponents] at hexp
  exact absurd hexp (by decide)

/-- An infinity is packed to a pattern that is no zero. -/
theorem unpack_pack_infinity (sign sign' : Sign) : UnpackedFloat.unpack .binary64
    (UnpackedFloat.pack .binary64 (.infinity sign)) ≠ .zero sign' := by
  intro h
  have hexp := (fields_of_unpack_zero h).1
  rw [UnpackedFloat.pack, packedInfinity, unpackExponent_packComponents] at hexp
  exact absurd hexp (by decide)

/-- The positive zero is packed to a pattern that is not the negative zero. -/
theorem unpack_pack_zero : UnpackedFloat.unpack .binary64
    (UnpackedFloat.pack .binary64 (.zero .positive)) ≠ .zero .negative := by
  have h : UnpackedFloat.unpack .binary64 (UnpackedFloat.pack .binary64 (.zero .positive)) =
      .zero .positive := rfl
  rw [h]
  nofun

/-- A rounded finite double is packed to a pattern that is no zero. -/
theorem unpack_pack_finite {m : ℕ} {e : ℤ} {sign sign' : Sign} (hm : 0 < m) (hlt : m < 2 ^ 53)
    (he : -1074 ≤ e) : UnpackedFloat.unpack .binary64
      (UnpackedFloat.pack .binary64 (.finite sign m e hm)) ≠ .zero sign' := by
  intro h
  obtain ⟨hexp, hman⟩ := fields_of_unpack_zero h
  have hbias : (e + (Format.binary64.exponentBias : ℕ) +
      (Format.binary64.mantissaBitsWithoutImplicit : ℕ)).toNat = (e + 1075).toNat := by
    simp only [Format.exponentBias]
    omega
  rw [UnpackedFloat.pack] at hexp hman
  simp only [hbias] at hexp hman
  split_ifs at hexp hman with hinf hfull
  · rw [packedInfinity, unpackExponent_packComponents] at hexp
    exact absurd hexp (by decide)
  · -- A full mantissa stands under a positive exponent field.
    rw [unpackExponent_packComponents, ← BitVec.toNat_inj, BitVec.toNat_ofNat] at hexp
    have hzero : (0#11).toNat = 0 := rfl
    omega
  · -- A short mantissa is the fraction field.
    rw [unpackMantissa_packComponents, ← BitVec.toNat_inj, BitVec.toNat_ofNat] at hman
    have hlog : m.log2 < 53 := (Nat.log2_lt hm.ne').2 hlt
    have hlog' : m.log2 < 52 := by
      simp only [Format.mantissaBits] at hfull
      omega
    have hshort := (Nat.log2_lt hm.ne').1 hlog'
    rw [Nat.mod_eq_of_lt hshort] at hman
    exact hm.ne' hman

/-! ## Settled doubles -/

/-- A double is settled if adding it to zero gives it back. -/
def Settled (x : Float) : Prop := 0 + x = x

/-- A double is put together from what it is unpacked to. -/
theorem pack_unpack_toModel (x : Float) : Float.Model.pack x.toModel.unpack = x.toModel := by
  obtain ⟨bits, hv⟩ := x
  have h := pack_unpack hv
  simp only [Float.Model.pack, Float.Model.unpack, h]

/-- The only double that is not settled is the negative zero. -/
theorem settled_iff {x : Float} : Settled x ↔ x.toModel.unpack ≠ .zero .negative := by
  have hsum : (0 + x).toModel =
      Float.Model.pack (UnpackedFloat.add .binary64 (.zero .positive) x.toModel.unpack) := rfl
  constructor
  · intro h hx
    have hmodel : x.toModel = Float.Model.pack (.zero .positive) := by
      rw [← congrArg Float.toModel h, hsum, hx]
      rfl
    rw [hmodel] at hx
    cases hx
  · intro h
    -- Adding to the positive zero returns every other summand unchanged.
    have hadd : UnpackedFloat.add .binary64 (.zero .positive) x.toModel.unpack =
        x.toModel.unpack := by
      cases hu : x.toModel.unpack with
      | zero sign =>
        cases sign
        · exact absurd hu h
        · rfl
      | _ => rfl
    rw [hadd, pack_unpack_toModel] at hsum
    exact congrArg Float.ofModel hsum

/-- What a double is unpacked to is unpacked again after packing. -/
theorem unpack_pack_unpack (x : Float) : UnpackedFloat.unpack .binary64
    (UnpackedFloat.pack .binary64 x.toModel.unpack) = x.toModel.unpack :=
  congrArg (UnpackedFloat.unpack .binary64) (pack_unpack x.toModel.valid)

/-- A sum of finite doubles is packed to a pattern that is not the negative zero. -/
theorem unpack_pack_add_finite {m m' : ℕ} {e e' : ℤ} {sign sign' : Sign} (hm : 0 < m) (hm' : 0 < m')
    (he : -1074 ≤ e) (he' : -1074 ≤ e') :
    UnpackedFloat.unpack .binary64 (UnpackedFloat.pack .binary64
      (UnpackedFloat.add .binary64 (.finite sign m e hm) (.finite sign' m' e' hm'))) ≠
        .zero .negative := by
  have hround {s : Sign} {n : ℕ} (hn : 0 < n) : UnpackedFloat.unpack .binary64
      (UnpackedFloat.pack .binary64 (UnpackedFloat.round .binary64 s n (min e e'))) ≠
        .zero .negative := by
    obtain ⟨n', f, hn', heq, hlt, hf⟩ := round_pos hn (le_min he he') s
    rw [heq]
    exact unpack_pack_finite hn' hlt hf
  -- Opposite summands cancel to the positive zero; all other sums are rounded.
  simp only [UnpackedFloat.add, UnpackedFloat.normalize]
  split
  · rename_i hneg
    exact hround (by have := compare_lt_iff_lt.1 hneg; omega)
  · exact unpack_pack_zero
  · rename_i hpos
    exact hround (by have := compare_gt_iff_gt.1 hpos; omega)

/-- A finite double has no exponent below the least one. -/
theorem exponent_ge_of_unpack {b : BitVec Format.binary64.numBits} {sign : Sign} {m : ℕ} {e : ℤ}
    {hm : 0 < m} (h : UnpackedFloat.unpack .binary64 b = .finite sign m e hm) : -1074 ≤ e := by
  unfold UnpackedFloat.unpack at h
  dsimp only at h
  split_ifs at h with h1 h2 h3 h4
  · simp only [UnpackedFloat.finite.injEq] at h
    obtain ⟨-, -, rfl⟩ := h
    simp only [Format.exponentBias]
    omega
  · simp only [UnpackedFloat.finite.injEq] at h
    obtain ⟨-, -, rfl⟩ := h
    have hne : (unpackExponent b).toNat ≠ 0 := fun h0 => h3 (BitVec.toNat_inj.1 (by simpa using h0))
    simp only [Format.exponentBias]
    omega

/-- A sum is settled if its first summand is. -/
theorem Settled.add {x : Float} (hx : Settled x) (y : Float) : Settled (x + y) := by
  rw [settled_iff] at hx ⊢
  have hsum : (x + y).toModel.unpack = UnpackedFloat.unpack .binary64 (UnpackedFloat.pack .binary64
    (UnpackedFloat.add .binary64 x.toModel.unpack y.toModel.unpack)) := rfl
  have hx' := unpack_pack_unpack x
  have hy' := unpack_pack_unpack y
  rw [hsum]
  -- The cases of the addition, by what the two summands are.
  cases hux : x.toModel.unpack with
  | notANumber => exact unpack_pack_nan _
  | infinity s =>
    cases huy : y.toModel.unpack with
    | notANumber => exact unpack_pack_nan _
    | infinity s' =>
      simp only [UnpackedFloat.add]
      split_ifs
      · exact unpack_pack_infinity _ _
      · exact unpack_pack_nan _
    | zero s' => exact unpack_pack_infinity _ _
    | finite s' m' e' hm' => exact unpack_pack_infinity _ _
  | zero s =>
    cases huy : y.toModel.unpack with
    | notANumber => exact unpack_pack_nan _
    | infinity s' => exact unpack_pack_infinity _ _
    | zero s' =>
      have hs : s = .positive := by
        cases s
        · exact absurd hux hx
        · rfl
      simp only [UnpackedFloat.add, hs]
      split_ifs <;> exact unpack_pack_zero
    | finite s' m' e' hm' =>
      simp only [UnpackedFloat.add]
      rw [← huy, hy', huy]
      nofun
  | finite s m e hm =>
    cases huy : y.toModel.unpack with
    | notANumber => exact unpack_pack_nan _
    | infinity s' => exact unpack_pack_infinity _ _
    | zero s' =>
      simp only [UnpackedFloat.add]
      rw [← hux, hx', hux]
      nofun
    | finite s' m' e' hm' =>
      exact unpack_pack_add_finite hm hm' (exponent_ge_of_unpack hux) (exponent_ge_of_unpack huy)

/-- A double that does not equal zero is settled. -/
theorem settled_of_ne_zero {x : Float} (h : (x == 0) = false) : Settled x := by
  rw [settled_iff]
  intro hx
  have hbeq : (x == 0) = UnpackedFloat.beq x.toModel.unpack (.zero .positive) := rfl
  rw [hbeq, hx] at h
  cases h

end MathProgram

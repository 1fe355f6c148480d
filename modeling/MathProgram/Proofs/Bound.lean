import MathProgram.Bound
import MathProgram.Proofs.Decimal.NegativeZero

/-!
# Bounds to infinities and back

A bound is passed on with infinities from the threshold on, and read with the threshold in place of
these. Both ways together move it into the range between the thresholds
(`fromIeeeBound_toIeeeBound`), also where it is the threshold itself and where it is no number.

Doubles are compared by what they are unpacked to. A comparison with a finite double other than zero
that finds no difference finds the same double (`eq_of_le_of_not_lt`); zeros, which differ in their
sign, and NaNs are not covered.
-/

namespace MathProgram

open Float.Model (UnpackedFloat)

variable {x y : Float} {m : ℕ} {e : ℤ} {hm : 0 < m} {s : UnpackedFloat.Sign}

/-! ## Comparing doubles -/

/-- Doubles are in order as what they are unpacked to. -/
theorem float_le_iff : x ≤ y ↔
    (UnpackedFloat.compare x.toModel.unpack y.toModel.unpack).any (·.isLE) = true :=
  decide_eq_true_iff

/-- Doubles are in strict order as what they are unpacked to. -/
theorem float_lt_iff : x < y ↔
    UnpackedFloat.compare x.toModel.unpack y.toModel.unpack = some .lt :=
  decide_eq_true_iff.trans beq_iff_eq

/-- The strict order is part of the order. -/
theorem float_le_of_lt (h : x < y) : x ≤ y := by
  rw [float_le_iff, float_lt_iff.1 h]
  rfl

/-- Doubles that are unpacked to the same are the same. -/
theorem float_ext (h : x.toModel.unpack = y.toModel.unpack) : x = y := by
  have hmodel : x.toModel = y.toModel := by
    rw [← pack_unpack_toModel x, h, pack_unpack_toModel]
  exact congrArg Float.ofModel hmodel

/-- Finite doubles that compare equal are the same. -/
theorem finite_eq_of_compare {m' : ℕ} {e' : ℤ} {hm' : 0 < m'} {s' : UnpackedFloat.Sign}
    (h : UnpackedFloat.compare (.finite s m e hm) (.finite s' m' e' hm') = some .eq) :
    UnpackedFloat.finite s m e hm = .finite s' m' e' hm' := by
  have hthen (hc : (compare e e').then (compare m m') = .eq) : e = e' ∧ m = m' := by
    rw [Ordering.then_eq_eq, compare_eq_iff_eq, compare_eq_iff_eq] at hc
    exact hc
  -- Signs that differ decide at once; otherwise exponents and mantissas are compared.
  cases s <;> cases s' <;> simp only [UnpackedFloat.compare, Option.some.injEq] at h
  · obtain ⟨rfl, rfl⟩ := hthen (Ordering.swap_eq_eq.1 h)
    rfl
  · cases h
  · cases h
  · obtain ⟨rfl, rfl⟩ := hthen h
    rfl

/-- What compares equal to a finite double is that. -/
theorem eq_of_compare {u v : UnpackedFloat} (h : UnpackedFloat.compare u v = some .eq)
    (hfinite : u = .finite s m e hm ∨ v = .finite s m e hm) : u = v := by
  obtain rfl | rfl := hfinite
  · cases v with
    | notANumber => cases s <;> cases h
    | infinity s' => cases s' <;> cases s <;> cases h
    | zero s' => cases s' <;> cases s <;> cases h
    | finite s' m' e' hm' => exact finite_eq_of_compare h
  · cases u with
    | notANumber => cases h
    | infinity s' => cases s' <;> cases s <;> cases h
    | zero s' => cases s' <;> cases s <;> cases h
    | finite s' m' e' hm' => exact finite_eq_of_compare h

/-- Doubles in order but not in strict order are the same, if one of them is finite and not zero. -/
theorem eq_of_le_of_not_lt (hfinite : x.toModel.unpack = .finite s m e hm ∨
    y.toModel.unpack = .finite s m e hm) (hle : x ≤ y) (hlt : ¬ x < y) : x = y := by
  rw [float_le_iff] at hle
  rw [float_lt_iff] at hlt
  refine float_ext (eq_of_compare ?_ hfinite)
  rcases hc : UnpackedFloat.compare x.toModel.unpack y.toModel.unpack with _ | o
  · rw [hc] at hle
    cases hle
  · rw [hc] at hle hlt
    cases o
    · exact absurd rfl hlt
    · rfl
    · cases hle

/-! ## Bounds -/

/-- The threshold is finite. -/
theorem unpack_infinity : ∃ m e hm,
    (infinity : Float).toModel.unpack = .finite .positive m e hm := ⟨_, _, _, rfl⟩

/-- The negative threshold is finite. -/
theorem unpack_neg_infinity : ∃ m e hm,
    (-infinity : Float).toModel.unpack = .finite .negative m e hm := ⟨_, _, _, rfl⟩

/-- What is at least the threshold is not below the negative one. -/
theorem not_lt_of_infinity_le (h : infinity ≤ x) : ¬ x < -infinity := by
  obtain ⟨m, e, hm, hpos⟩ := unpack_infinity
  obtain ⟨m', e', hm', hneg⟩ := unpack_neg_infinity
  intro hlt
  rw [float_le_iff, hpos] at h
  rw [float_lt_iff, hneg] at hlt
  -- Only what is positive is at least a positive double.
  rcases hx : x.toModel.unpack with s | _ | s | ⟨s, m'', e'', hm''⟩ <;> rw [hx] at h hlt
  · cases s
    · cases h
    · cases hlt
  · cases h
  · cases hlt
  · cases s
    · cases h
    · cases hlt

/-- Passing a bound on and reading it moves it into the range between the thresholds. -/
theorem fromIeeeBound_toIeeeBound (x : Float) : fromIeeeBound (toIeeeBound x) = clampBound x := by
  obtain ⟨m, e, hm, hpos⟩ := unpack_infinity
  obtain ⟨m', e', hm', hneg⟩ := unpack_neg_infinity
  unfold toIeeeBound boundIn clampBound
  by_cases habove : infinity ≤ x
  · rw [if_pos habove, if_neg (not_lt_of_infinity_le habove)]
    split_ifs with hlt
    · rfl
    · exact eq_of_le_of_not_lt (.inl hpos) habove hlt
  · rw [if_neg habove, if_neg (c := infinity < x) fun hlt => habove (float_le_of_lt hlt)]
    by_cases hbelow : x ≤ -infinity
    · rw [if_pos hbelow]
      split_ifs with hlt
      · rfl
      · exact (eq_of_le_of_not_lt (.inr hneg) hbelow hlt).symm
    · rw [if_neg hbelow, if_neg fun hlt => hbelow (float_le_of_lt hlt)]
      exact (if_neg habove).trans (if_neg hbelow)

end MathProgram

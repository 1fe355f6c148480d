import MathProgram.Proofs.Decimal.Literal

/-!
# Doubles are read back from their literals

A decimal in the interval of a double is converted to that double (`Decimal.toFloat_of_contains`):
its exponent is far from the ends at which `Decimal.toFloat` gives up the exact arithmetic. The
decimal that `Float.scientific` writes is in the interval, and reading the literal changes neither
its sign nor its magnitude, so the literal is read as the double it was written for
(`Float.ofLiteral?_scientific`), the two zeros included. No literal is read as a NaN
(`Decimal.isNaN_toFloat`).
-/

namespace MathProgram

/-! ## No decimal is a NaN -/

/-- Bits up to those of infinity, with either sign, are not those of a NaN. -/
theorem isNaN_ofBits_signed {b : ℕ} (negative : Bool) (hb : b ≤ infinityBits) :
    (Float.ofBits (UInt64.ofNat (b + if negative then 2 ^ 63 else 0))).isNaN = false := by
  unfold infinityBits at hb
  set n := b + if negative then 2 ^ 63 else 0 with hn
  have hlt : n < 2 ^ 64 := by
    rw [hn]
    split_ifs <;> omega
  have hbits : (UInt64.ofNat n).toNat = n := UInt64.toNat_ofNat_of_lt' hlt
  -- The largest exponent leaves no room for a fraction.
  have hfraction : n / 2 ^ 52 % 2 ^ 11 = 2047 → n % 2 ^ 52 = 0 := by
    rw [hn]
    split_ifs <;> omega
  have hread := toBits_ofBits (b := UInt64.ofNat n) (by rwa [hbits])
  rw [← Bool.not_eq_true, isNaN_iff, hread, hbits]
  exact fun h => h.2 (hfraction h.1)

/-- The nearest double is at most infinity. -/
theorem nearestBits_le (num den : ℕ) : nearestBits num den ≤ infinityBits := by
  unfold nearestBits
  split_ifs
  · exact Nat.zero_le _
  · exact min_le_right _ _

/-- No ratio is rounded to a NaN. -/
theorem isNaN_nearestRatio (negative : Bool) (num den : ℕ) :
    (nearestRatio negative num den).isNaN = false :=
  isNaN_ofBits_signed negative (nearestBits_le num den)

/-- No decimal is converted to a NaN. -/
theorem Decimal.isNaN_toFloat (d : Decimal) : d.toFloat.isNaN = false := by
  unfold toFloat
  split
  · exact isNaN_nearestRatio _ _ _
  split
  · exact isNaN_ofBits_signed d.negative (Nat.le_refl infinityBits)
  split
  · exact isNaN_nearestRatio _ _ _
  · split <;> exact isNaN_nearestRatio _ _ _

/-! ## Decimals in the interval -/

namespace Decimal

variable {d : Decimal} {m : ℕ} {q : ℤ}

/-- A decimal with a whole value of moderate size is rounded exactly. -/
theorem toFloat_ofNat {k : ℕ} (hdigits : d.digits ≠ 0) (hk : d.exponent = .ofNat k)
    (hk400 : k ≤ 400) : d.toFloat = nearestRatio d.negative (d.digits * 10 ^ k) 1 := by
  have he : d.exponent = (k : ℤ) := hk
  unfold toFloat
  rw [if_neg hdigits, if_neg (by omega), if_neg (by omega), hk]

/-- A decimal of a double's size has no large exponent. -/
theorem exponent_le (hdigits : 0 < d.digits) (h : d.magnitude ≤ 2 ^ (1024 : ℤ)) :
    d.exponent ≤ 400 := by
  by_contra hlarge
  have h1 : (1 : ℚ) ≤ d.digits := by exact_mod_cast hdigits
  -- Ten is more than `2 ^ 3`, so `10 ^ 401` is beyond `2 ^ 1203`.
  have h2 : (2 : ℚ) ^ (1203 : ℤ) ≤ 10 ^ d.exponent := by
    calc (2 : ℚ) ^ (1203 : ℤ) = ((2 : ℚ) ^ (3 : ℤ)) ^ (401 : ℤ) := by rw [← zpow_mul]; rfl
      _ ≤ 10 ^ (401 : ℤ) := zpow_le_zpow_left₀ (by norm_num) (by positivity) (by norm_num)
      _ ≤ 10 ^ d.exponent := zpow_le_zpow_right₀ (by norm_num) (by omega)
  have h3 : (2 : ℚ) ^ (1203 : ℤ) ≤ d.magnitude :=
    h2.trans (le_mul_of_one_le_left (by positivity) h1)
  have h4 := (zpow_le_zpow_iff_right₀ (by norm_num : (1 : ℚ) < 2)).1 (h3.trans h)
  omega

/-- A decimal of a double's size has no small exponent for its number of digits. -/
theorem le_exponent (h : (2 : ℚ) ^ (-1075 : ℤ) ≤ d.magnitude) :
    -(400 + (d.digits.log2 + 1 : ℕ)) ≤ d.exponent := by
  by_contra hsmall
  set k := d.digits.log2 + 1 with hk
  have h1 : (d.digits : ℚ) < 2 ^ (k : ℤ) := by
    rw [zpow_natCast]
    exact_mod_cast Nat.lt_log2_self
  -- The digits gain fewer than `k` binary places, and each of the `401 + k` decimal ones loses
  -- three.
  have h2 : (10 : ℚ) ^ d.exponent ≤ 2 ^ (-(1203 + 3 * k : ℤ)) := by
    calc (10 : ℚ) ^ d.exponent ≤ 10 ^ (-(401 + k : ℤ)) :=
          zpow_le_zpow_right₀ (by norm_num) (by omega)
      _ = ((10 : ℚ) ^ (401 + k : ℤ))⁻¹ := zpow_neg _ _
      _ ≤ (((2 : ℚ) ^ (3 : ℤ)) ^ (401 + k : ℤ))⁻¹ := by
        refine inv_anti₀ (by positivity) ?_
        exact zpow_le_zpow_left₀ (by omega) (by positivity) (by norm_num)
      _ = 2 ^ (-(1203 + 3 * k : ℤ)) := by
        rw [← zpow_mul, ← zpow_neg]
        congr 1
        ring
  have h3 : d.magnitude < 2 ^ ((k : ℤ) + -(1203 + 3 * k : ℤ)) := by
    rw [zpow_add₀ (by norm_num)]
    exact mul_lt_mul h1 h2 (by positivity) (by positivity)
  have h4 := (zpow_lt_zpow_iff_right₀ (by norm_num : (1 : ℚ) < 2)).1 (h.trans_lt h3)
  omega

/-- A decimal in the interval of a positive double is neither too small nor too large for one. -/
theorem magnitude_bounds (hm : 0 < m) (hm53 : m < 2 ^ 53) (hq0 : -1074 ≤ q) (hq1 : q ≤ 971)
    (h : (Interval.around m q).Contains d.magnitude) :
    (2 : ℚ) ^ (-1075 : ℤ) ≤ d.magnitude ∧ d.magnitude ≤ 2 ^ (1024 : ℤ) := by
  obtain ⟨hlow, hhigh, -, -⟩ := Interval.contains_around hm h
  have hu : (0 : ℚ) < 2 ^ q := by positivity
  have hm1 : (1 : ℚ) ≤ m := by exact_mod_cast hm
  have hm53' : (m : ℚ) + 1 ≤ 2 ^ 53 := by exact_mod_cast hm53
  constructor
  · calc (2 : ℚ) ^ (-1075 : ℤ) ≤ 2 ^ (q - 1) := zpow_le_zpow_right₀ (by norm_num) (by omega)
      _ = 1 / 2 * 2 ^ q := by rw [zpow_sub₀ (by norm_num)]; ring
      _ ≤ (m - 1 / 2) * 2 ^ q := by gcongr; linarith
      _ ≤ d.magnitude := hlow
  · calc d.magnitude ≤ (m + 1 / 2) * 2 ^ q := hhigh
      _ ≤ 2 ^ (53 : ℤ) * 2 ^ q := by
        gcongr
        norm_num at hm53' ⊢
        linarith
      _ = 2 ^ (53 + q) := (zpow_add₀ (by norm_num) _ _).symm
      _ ≤ 2 ^ (1024 : ℤ) := zpow_le_zpow_right₀ (by norm_num) (by omega)

/-- A decimal in the interval of a positive double is converted to that double, with the sign of
the decimal. -/
theorem toFloat_of_contains (hm : 0 < m) (hm53 : m < 2 ^ 53) (hq0 : -1074 ≤ q) (hq1 : q ≤ 971)
    (hfull : q = -1074 ∨ 2 ^ 52 ≤ m) (h : (Interval.around m q).Contains d.magnitude) :
    d.toFloat = Float.ofBits (UInt64.ofNat
      ((q + 1074).toNat * 2 ^ 52 + m + if d.negative then 2 ^ 63 else 0)) := by
  obtain ⟨hdown, hup⟩ := magnitude_bounds hm hm53 hq0 hq1 h
  have hdigits : d.digits ≠ 0 := by
    intro h0
    rw [magnitude, h0] at hdown
    have : (0 : ℚ) < 2 ^ (-1075 : ℤ) := by positivity
    simp only [Nat.cast_zero, zero_mul] at hdown
    linarith
  have he0 := exponent_le (Nat.pos_of_ne_zero hdigits) hup
  have he1 := le_exponent hdown
  rw [magnitude] at h
  -- In range, the conversion rounds the exact ratio, with the power of ten above or below.
  cases hk : d.exponent with
  | ofNat k =>
    rw [toFloat_ofNat hdigits hk (by rw [hk] at he0; exact Int.ofNat_le.1 he0), nearestRatio,
      nearestBits_eq one_pos hm hm53 hq0 hq1 hfull]
    rw [hk] at h
    simpa using h
  | negSucc k =>
    unfold toFloat
    rw [if_neg hdigits, if_neg (by omega), if_neg (by omega), hk]
    dsimp only
    rw [nearestRatio, nearestBits_eq (by positivity) hm hm53 hq0 hq1 hfull]
    rw [hk, zpow_negSucc] at h
    simpa [div_eq_mul_inv] using h

end Decimal

/-! ## Doubles -/

/-- A double is given by the number its bits stand for. -/
theorem ofBits_ofNat_toBits {x : Float} {n : ℕ} (h : x.toBits.toNat = n) :
    Float.ofBits (UInt64.ofNat n) = x := by
  rw [← h, UInt64.ofNat_toNat, ofBits_toBits]

namespace Float

/-- A finite double is written as a decimal, and all decimals of that sign and magnitude are
converted to the double. -/
theorem exists_decimal {x : Float} {negative : Bool} {m : ℕ} {q : ℤ}
    (h : Binary.ofFloat x = .finite negative m q) :
    ∃ d : Decimal, scientific x = d.scientific ∧
      ∀ d' : Decimal, d'.negative = d.negative → d'.magnitude = d.magnitude → d'.toFloat = x := by
  have hbits := Binary.bits_of_finite h
  obtain ⟨hm53, hq0, hq1, hfull⟩ := Binary.finite_range h
  refine ⟨if m = 0 then ⟨negative, 0, 0⟩ else { shortest m q with negative }, ?_, ?_⟩
  · simp only [scientific, h]
  -- A zero is written without the search, and read back with its sign.
  by_cases hm : m = 0
  · intro d' hsign hmag
    rw [if_pos hm] at hsign hmag
    have hdigits : d'.digits = 0 := by
      have ht : (10 : ℚ) ^ d'.exponent ≠ 0 := by positivity
      simpa [Decimal.magnitude, ht] using hmag
    rw [Decimal.toFloat, if_pos hdigits, nearestRatio, hsign]
    refine ofBits_ofNat_toBits ?_
    rw [hbits, hm, hfull.resolve_right (by omega)]
    rfl
  · intro d' hsign hmag
    rw [if_neg hm] at hsign hmag
    have hin := (shortest_spec (Nat.pos_of_ne_zero hm) hm53 hq0 hq1).2
    rw [Decimal.toFloat_of_contains (Nat.pos_of_ne_zero hm) hm53 hq0 hq1 hfull
      (hmag.symm ▸ hin), hsign]
    exact ofBits_ofNat_toBits hbits

/-- The literal of a finite double is read as that double. -/
theorem ofLiteral?_scientific {x : Float} {negative : Bool} {m : ℕ} {q : ℤ}
    (h : Binary.ofFloat x = .finite negative m q) :
    (Decimal.ofLiteral? (scientific x).toList).map Decimal.toFloat = some x := by
  obtain ⟨d, htext, hback⟩ := exists_decimal h
  obtain ⟨d', hread, hsign, hmag⟩ := Decimal.ofLiteral?_scientific d
  rw [htext, hread, Option.map_some, hback d' hsign hmag]

/-- The literal of a finite double is that of no whole number. -/
theorem integerLiteral?_scientific {x : Float} {negative : Bool} {m : ℕ} {q : ℤ}
    (h : Binary.ofFloat x = .finite negative m q) :
    integerLiteral? (scientific x).toList = none := by
  obtain ⟨d, htext, -⟩ := exists_decimal h
  rw [htext, Decimal.integerLiteral?_scientific]

/-- A literal far beyond the largest double is read as an infinity. -/
theorem ofLiteral?_huge {x : Float} {negative : Bool} (h : Binary.ofFloat x = .infinite negative) :
    (Decimal.ofLiteral? (if negative then "-1e400" else "1e400").toList).map Decimal.toFloat =
      some x := by
  have hbits := Binary.bits_of_infinite h
  have hread : Decimal.ofLiteral? (if negative then "-1e400" else "1e400").toList =
      some ⟨negative, 1, 400⟩ := by
    cases negative <;> decide
  have hhuge : nearestBits (10 ^ 400) 1 = infinityBits := by decide +kernel
  rw [hread, Option.map_some, Decimal.toFloat_ofNat one_ne_zero rfl le_rfl, one_mul, nearestRatio,
    hhuge]
  exact congrArg some (ofBits_ofNat_toBits hbits)

end Float

end MathProgram

import MathProgram.Proofs.Decimal.ReadBack

/-!
# The nearest double

Rounding to nearest, said without the algorithm: `IsNearest` compares with every finite double, lets
the even significand decide between two that are equally close, and begins the infinities halfway
between the largest finite double and the power of two above it. A number has one nearest double
(`IsNearest.unique`), and a decimal is converted to it (`Decimal.isNearest_toFloat`).

Against all doubles a whole number of units in the last place is compared in two steps. A double is
a whole number of these units as well, or it is below the binade of the ratio
(`IsMagnitude.on_grid`); among whole numbers the rounded one is the closest (`Rounded.closest`).
-/

namespace MathProgram

/-- The unit in the last place of the largest doubles. -/
def topUnit : ℚ := 2 ^ (971 : ℤ)

/-- Where the infinities begin: halfway between the largest finite double, `(2 ^ 53 - 1) * topUnit`,
and the next power of two. -/
def overflowBound : ℚ := (2 ^ 53 - 1 / 2) * topUnit

/-- The magnitude of some finite double. -/
def IsMagnitude (b : ℚ) : Prop :=
  ∃ y negative m q, Binary.ofFloat y = .finite negative m q ∧ b = m * 2 ^ q

/-- No finite double has a magnitude closer to `r` than `a`; if another is as close, `a` is even. -/
structure Closest (r a : ℚ) (even : Prop) : Prop where
  le : ∀ b, IsMagnitude b → |a - r| ≤ |b - r|
  tie : ∀ b, IsMagnitude b → |a - r| = |b - r| → b ≠ a → even

/-- The double of a sign and a magnitude, rounded to nearest. -/
inductive IsNearest (negative : Bool) (r : ℚ) (x : Float) : Prop
  | finite {m : ℕ} {q : ℤ} (hx : Binary.ofFloat x = .finite negative m q) (hr : r < overflowBound)
      (hclosest : Closest r (m * 2 ^ q) (m % 2 = 0))
  | infinite (hx : Binary.ofFloat x = .infinite negative) (hr : overflowBound ≤ r)

/-! ## Doubles from their parts -/

namespace Binary

/-- The bits of a sign and a magnitude below `2 ^ 63` are those of a double. -/
theorem toNat_toBits_ofNat {n : ℕ} (hlt : n < 2 ^ 64)
    (hn : n / 2 ^ 52 % 2 ^ 11 = 2047 → n % 2 ^ 52 = 0) :
    (Float.ofBits (UInt64.ofNat n)).toBits.toNat = n := by
  have hbits : (UInt64.ofNat n).toNat = n := UInt64.toNat_ofNat_of_lt' hlt
  rw [toBits_ofBits (by rwa [hbits]), hbits]

/-- The parts of a finite double are read off the bits made of them. -/
theorem ofFloat_ofBits {m : ℕ} {q : ℤ} (negative : Bool) (hm : m < 2 ^ 53) (hq0 : -1074 ≤ q)
    (hq1 : q ≤ 971) (hfull : q = -1074 ∨ 2 ^ 52 ≤ m) :
    ofFloat (Float.ofBits (UInt64.ofNat
      ((q + 1074).toNat * 2 ^ 52 + m + if negative then 2 ^ 63 else 0))) =
        .finite negative m q := by
  obtain ⟨e, rfl⟩ : ∃ e : ℕ, q = e - 1074 := ⟨(q + 1074).toNat, by omega⟩
  have he : ((e : ℤ) - 1074 + 1074).toNat = e := by omega
  rw [he]
  generalize hn : e * 2 ^ 52 + m + (if negative then 2 ^ 63 else 0) = n
  have hlt : n < 2 ^ 64 := by cases negative <;> simp at hn <;> omega
  have hsign : (n / 2 ^ 63 == 1) = negative := by
    cases negative <;> simp at hn ⊢ <;> omega
  have hfield : n / 2 ^ 52 % 2 ^ 11 = e + m / 2 ^ 52 := by
    cases negative <;> simp at hn ⊢ <;> omega
  have hfraction : n % 2 ^ 52 = m % 2 ^ 52 := by
    cases negative <;> simp at hn ⊢ <;> omega
  unfold ofFloat
  dsimp only
  rw [toNat_toBits_ofNat hlt (by omega), hsign, hfield, hfraction, if_neg (by omega)]
  -- Without the implicit bit the exponent field is zero, and with it one more than `e`.
  split_ifs with hzero
  · simp only [finite.injEq, true_and]
    omega
  · simp only [finite.injEq, true_and]
    omega

/-- The bits of infinity with a sign are those of an infinity. -/
theorem ofFloat_ofBits_infinity (negative : Bool) :
    ofFloat (Float.ofBits (UInt64.ofNat (infinityBits + if negative then 2 ^ 63 else 0))) =
      .infinite negative := by
  unfold ofFloat
  dsimp only
  rw [toNat_toBits_ofNat (by cases negative <;> decide) (by cases negative <;> decide)]
  cases negative <;> rfl

/-- A finite double is given by its parts. -/
theorem eq_of_finite {x y : Float} {negative : Bool} {m : ℕ} {q : ℤ}
    (hx : ofFloat x = .finite negative m q) (hy : ofFloat y = .finite negative m q) : x = y := by
  rw [← ofBits_ofNat_toBits (bits_of_finite hx), ofBits_ofNat_toBits (bits_of_finite hy)]

/-- An infinity is given by its sign. -/
theorem eq_of_infinite {x y : Float} {negative : Bool} (hx : ofFloat x = .infinite negative)
    (hy : ofFloat y = .infinite negative) : x = y := by
  rw [← ofBits_ofNat_toBits (bits_of_infinite hx), ofBits_ofNat_toBits (bits_of_infinite hy)]

end Binary

/-! ## Whole numbers of units -/

/-- A whole number is at most a half away, and even if it is exactly a half away. -/
structure Rounded (y : ℚ) (s : ℕ) : Prop where
  low : (s : ℚ) - 1 / 2 ≤ y
  high : y ≤ s + 1 / 2
  even : s % 2 = 0 ∨ (s : ℚ) - 1 / 2 < y ∧ y < s + 1 / 2

/-- A quotient is rounded to a whole number. -/
theorem rounded_roundHalfEven (num : ℕ) {den : ℕ} (hden : 0 < den) :
    Rounded (num / den) (roundHalfEven num den) := by
  have hd : (0 : ℚ) < den := by exact_mod_cast hden
  have hdiv := Nat.div_add_mod num den
  have hmod := Nat.mod_lt num hden
  -- The bounds in whole numbers: the quotient rounded down and its remainder decide.
  obtain ⟨hlow, hhigh, heven⟩ : 2 * (den * roundHalfEven num den) ≤ 2 * num + den ∧
      2 * num ≤ 2 * (den * roundHalfEven num den) + den ∧
      (roundHalfEven num den % 2 = 0 ∨ 2 * (den * roundHalfEven num den) < 2 * num + den ∧
        2 * num < 2 * (den * roundHalfEven num den) + den) := by
    unfold roundHalfEven
    dsimp only
    generalize num / den = a at hdiv
    generalize num % den = b at hdiv hmod
    split_ifs with h1 h2
    · omega
    · rw [Nat.mul_add, Nat.mul_one]
      omega
    · obtain h | h := Nat.mod_two_eq_zero_or_one a
      · rw [h, Nat.add_zero]
        omega
      · rw [h, Nat.mul_add, Nat.mul_one]
        omega
  generalize roundHalfEven num den = s at hlow hhigh heven
  refine ⟨?_, ?_, heven.imp_right fun ⟨h1, h2⟩ => ⟨?_, ?_⟩⟩
  · rw [le_div_iff₀ hd]
    have : (2 : ℚ) * (den * s) ≤ 2 * num + den := by exact_mod_cast hlow
    linarith
  · rw [div_le_iff₀ hd]
    have : (2 : ℚ) * num ≤ 2 * (den * s) + den := by exact_mod_cast hhigh
    linarith
  · rw [lt_div_iff₀ hd]
    have : (2 : ℚ) * (den * s) < 2 * num + den := by exact_mod_cast h1
    linarith
  · rw [div_lt_iff₀ hd]
    have : (2 : ℚ) * num < 2 * (den * s) + den := by exact_mod_cast h2
    linarith

/-- Of all whole numbers the rounded one is closest, and even if another is as close. -/
theorem Rounded.closest {y : ℚ} {s : ℕ} (h : Rounded y s) (k : ℕ) :
    |(s : ℚ) - y| ≤ |(k : ℚ) - y| ∧ (|(s : ℚ) - y| = |(k : ℚ) - y| → k ≠ s → s % 2 = 0) := by
  obtain ⟨hlow, hhigh, heven⟩ := h
  have hs : |(s : ℚ) - y| ≤ 1 / 2 := abs_le.2 ⟨by linarith, by linarith⟩
  by_cases hk : k = s
  · exact ⟨by rw [hk], fun _ hne => absurd hk hne⟩
  have hfar : (1 / 2 : ℚ) ≤ |(k : ℚ) - y| := by
    obtain hlt | hgt := Nat.lt_or_gt_of_ne hk
    · have : (k : ℚ) + 1 ≤ s := by exact_mod_cast hlt
      rw [abs_sub_comm]
      exact le_trans (by linarith) (le_abs_self _)
    · have : (s : ℚ) + 1 ≤ k := by exact_mod_cast hgt
      exact le_trans (by linarith) (le_abs_self _)
  refine ⟨hs.trans hfar, fun heq _ => heven.resolve_right fun ⟨h1, h2⟩ => ?_⟩
  have : |(s : ℚ) - y| < 1 / 2 := abs_lt.2 ⟨by linarith, by linarith⟩
  linarith

/-! ## Comparing with all doubles -/

section Grid

variable {r b : ℚ} {q : ℤ} {s : ℕ}

/-- A power of two in units of another. -/
theorem two_zpow_natCast_add (n : ℕ) (q : ℤ) : (2 : ℚ) ^ (n + q) = 2 ^ n * 2 ^ q := by
  rw [zpow_add₀ (by norm_num), zpow_natCast]

/-- A double is a whole number of units, unless it is below the binade of this unit. -/
theorem IsMagnitude.on_grid (hb : IsMagnitude b) (hq0 : -1074 ≤ q) :
    (∃ k : ℕ, b = k * 2 ^ q) ∨ -1074 < q ∧ b < 2 ^ 52 * 2 ^ q := by
  obtain ⟨y, negative, m, q', hy, rfl⟩ := hb
  obtain ⟨hm, hq', -, -⟩ := Binary.finite_range hy
  obtain hle | hlt := le_or_gt q q'
  · obtain ⟨k, rfl⟩ : ∃ k : ℕ, q' = k + q := ⟨(q' - q).toNat, by omega⟩
    refine .inl ⟨m * 2 ^ k, ?_⟩
    rw [two_zpow_natCast_add]
    push_cast
    ring
  · refine .inr ⟨by omega, ?_⟩
    have hm' : (m : ℚ) < 2 ^ 53 := by exact_mod_cast hm
    calc (m : ℚ) * 2 ^ q' < 2 ^ 53 * 2 ^ q' := mul_lt_mul_of_pos_right hm' (by positivity)
      _ = 2 ^ ((53 : ℕ) + q') := (two_zpow_natCast_add 53 q').symm
      _ ≤ 2 ^ ((52 : ℕ) + q) := zpow_le_zpow_right₀ (by norm_num) (by push_cast; omega)
      _ = 2 ^ 52 * 2 ^ q := two_zpow_natCast_add 52 q

/-- A difference in units. -/
theorem abs_sub_units (k : ℕ) (r : ℚ) (q : ℤ) :
    |k * 2 ^ q - r| = |(k : ℚ) - r * 2 ^ (-q)| * 2 ^ q := by
  have hu : (0 : ℚ) < 2 ^ q := by positivity
  have hsplit : (k : ℚ) * 2 ^ q - r = (k - r * 2 ^ (-q)) * 2 ^ q := by
    rw [zpow_neg, sub_mul, mul_assoc, inv_mul_cancel₀ hu.ne', mul_one]
  rw [hsplit, abs_mul, abs_of_pos hu]

/-- Rounded in units that leave it 53 places, or in the least unit, a ratio is the closest. -/
theorem closest_of_rounded (hq0 : -1074 ≤ q) (hbinade : q = -1074 ∨ 2 ^ 52 * 2 ^ q ≤ r)
    (hs : Rounded (r * 2 ^ (-q)) s) : Closest r (s * 2 ^ q) (s % 2 = 0) := by
  have hu : (0 : ℚ) < 2 ^ q := by positivity
  -- A double below the binade is farther away than the power of two at its lower end.
  have hbelow {b : ℚ} (hq : -1074 < q) (hb : b < 2 ^ 52 * 2 ^ q) :
      |s * 2 ^ q - r| < |b - r| := by
    have hr := hbinade.resolve_left (by omega)
    have hpow : |s * 2 ^ q - r| ≤ |(2 ^ 52 : ℕ) * 2 ^ q - r| := by
      rw [abs_sub_units, abs_sub_units]
      exact mul_le_mul_of_nonneg_right (hs.closest _).1 hu.le
    push_cast at hpow
    refine hpow.trans_lt ?_
    rw [abs_of_nonpos (by linarith), abs_of_neg (by linarith)]
    linarith
  constructor
  · intro b hb
    obtain ⟨k, rfl⟩ | ⟨hq, hlt⟩ := hb.on_grid hq0
    · rw [abs_sub_units, abs_sub_units]
      exact mul_le_mul_of_nonneg_right (hs.closest k).1 hu.le
    · exact (hbelow hq hlt).le
  · intro b hb heq hne
    obtain ⟨k, rfl⟩ | ⟨hq, hlt⟩ := hb.on_grid hq0
    · rw [abs_sub_units, abs_sub_units] at heq
      exact (hs.closest k).2 (mul_right_cancel₀ hu.ne' heq) fun hk => hne (by rw [hk])
    · exact absurd heq (hbelow hq hlt).ne

/-- A ratio in its unit in the last place: how large the unit is, and what the significand is. -/
structure InUnit (r : ℚ) (q : ℤ) (s : ℕ) : Prop where
  least : -1074 ≤ q
  binade : q = -1074 ∨ 2 ^ 52 * 2 ^ q ≤ r
  below : r < 2 ^ 53 * 2 ^ q
  rounded : Rounded (r * 2 ^ (-q)) s

/-- The significand of a ratio has at most 53 places, or is the next power of two. -/
theorem InUnit.le_two_pow (h : InUnit r q s) : s ≤ 2 ^ 53 := by
  have hu : (0 : ℚ) < 2 ^ q := by positivity
  have hy : r * 2 ^ (-q) < 2 ^ 53 := by
    rw [zpow_neg, ← div_eq_mul_inv, div_lt_iff₀ hu]
    exact h.below
  have hlow := h.rounded.low
  by_contra hs
  have : (2 : ℚ) ^ 53 + 1 ≤ s := by exact_mod_cast Nat.lt_of_not_le hs
  linarith

/-- The significand of a ratio has 53 places, unless the unit is the least one. -/
theorem InUnit.full (h : InUnit r q s) : q = -1074 ∨ 2 ^ 52 ≤ s := by
  have hu : (0 : ℚ) < 2 ^ q := by positivity
  refine h.binade.imp_right fun hr => ?_
  have hy : 2 ^ 52 ≤ r * 2 ^ (-q) := by
    rw [zpow_neg, ← div_eq_mul_inv, le_div_iff₀ hu]
    exact hr
  have hhigh := h.rounded.high
  by_contra hs
  have : (s : ℚ) + 1 ≤ 2 ^ 52 := by exact_mod_cast Nat.lt_of_not_le hs
  linarith

/-- The largest unit is positive. -/
theorem topUnit_pos : 0 < topUnit := zpow_pos two_pos _

/-- The largest unit is a half of the one above it, and more than any below it. -/
theorem two_mul_topUnit_le (hq : 971 < q) : 2 * topUnit ≤ 2 ^ q := by
  rw [topUnit, mul_comm, ← zpow_add_one₀ two_ne_zero]
  exact zpow_le_zpow_right₀ one_le_two (by omega)

/-- Any unit below the largest is at most a half of it. -/
theorem two_mul_le_topUnit (hq : q < 971) : 2 * 2 ^ q ≤ topUnit := by
  rw [topUnit, mul_comm, ← zpow_add_one₀ two_ne_zero]
  exact zpow_le_zpow_right₀ one_le_two (by omega)

/-- Below the infinities a ratio has a unit and a significand of a finite double. -/
theorem InUnit.finite (h : InUnit r q s) (hr : r < overflowBound) :
    q ≤ 970 ∨ q = 971 ∧ s < 2 ^ 53 := by
  have htop := topUnit_pos
  unfold overflowBound at hr
  obtain hlt | rfl | hgt := lt_trichotomy q 971
  · exact .inl (by omega)
  · have hy : r * 2 ^ (-971 : ℤ) < 2 ^ 53 - 1 / 2 := by
      rw [zpow_neg, ← div_eq_mul_inv]
      exact (div_lt_iff₀ htop).2 hr
    refine .inr ⟨rfl, ?_⟩
    exact_mod_cast (sub_lt_sub_iff_right _).1 (h.rounded.low.trans_lt hy)
  · have hunit := two_mul_topUnit_le hgt
    have hbinade := h.binade.resolve_left (by omega)
    linarith

/-- From the infinities on the bits of a ratio are too large for a finite double. -/
theorem InUnit.infinite (h : InUnit r q s) (hr : overflowBound ≤ r) :
    infinityBits ≤ (q + 1074).toNat * 2 ^ 52 + s := by
  have htop := topUnit_pos
  have hbelow := h.below
  unfold overflowBound at hr
  unfold infinityBits
  obtain hlt | rfl | hgt := lt_trichotomy q 971
  · have hunit := two_mul_le_topUnit hlt
    linarith
  · have hy : 2 ^ 53 - 1 / 2 ≤ r * 2 ^ (-971 : ℤ) := by
      rw [zpow_neg, ← div_eq_mul_inv]
      exact (le_div_iff₀ htop).2 hr
    obtain ⟨-, hhigh, heven⟩ := h.rounded
    generalize r * 2 ^ (-971 : ℤ) = y at hy hhigh heven
    -- The largest significand is odd, so halfway above it the next one is taken.
    have hs : 2 ^ 53 ≤ s := by
      by_contra hs
      have hle : (s : ℚ) + 1 ≤ 2 ^ 53 := by exact_mod_cast Nat.lt_of_not_le hs
      have hlast : (2 : ℚ) ^ 53 ≤ s + 1 := by linarith
      have hlast : 2 ^ 53 ≤ s + 1 := by exact_mod_cast hlast
      obtain ⟨-, hstrict⟩ := heven.resolve_left (by omega)
      linarith
    omega
  · have := h.full.resolve_left (by omega)
    omega

end Grid

/-! ## The nearest double of a ratio -/

/-- The bits of a ratio are those of its significand in its unit. -/
theorem exists_inUnit {num den : ℕ} (hnum : 0 < num) (hden : 0 < den) : ∃ q s,
    InUnit (num / den) q s ∧
      nearestBits num den = min ((q + 1074).toNat * 2 ^ 52 + s) infinityBits := by
  obtain ⟨hlow, hhigh⟩ := ratioLog2_spec hnum hden
  obtain ⟨q, hq⟩ : ∃ q, max (ratioLog2 num den - 52) (-1074) = q := ⟨_, rfl⟩
  refine ⟨q, roundHalfEven (scaleRatio num den (-q)).1 (scaleRatio num den (-q)).2,
    ⟨by omega, ?_, ?_, ?_⟩, ?_⟩
  · obtain h | h := max_choice (ratioLog2 num den - 52) (-1074)
    · refine .inr ?_
      rw [← two_zpow_natCast_add]
      exact (zpow_le_zpow_right₀ (by norm_num) (by push_cast; omega)).trans hlow
    · exact .inl (by omega)
  · rw [← two_zpow_natCast_add]
    exact hhigh.trans_le (zpow_le_zpow_right₀ (by norm_num) (by push_cast; omega))
  · rw [← scaleRatio_div]
    exact rounded_roundHalfEven _ (scaleRatio_pos hden (-q))
  · unfold nearestBits
    dsimp only
    rw [if_neg hnum.ne', hq]

/-- Up to half the least positive double the nearest double is a zero. -/
theorem isNearest_zero {r : ℚ} (negative : Bool) (den : ℕ) (hr0 : 0 ≤ r)
    (hr : r ≤ 2 ^ (-1075 : ℤ)) : IsNearest negative r (nearestRatio negative 0 den) := by
  have hzero := Binary.ofFloat_ofBits (m := 0) (q := -1074) negative (by norm_num) le_rfl
    (by norm_num) (.inl rfl)
  have hhalf : (2 : ℚ) ^ (-1075 : ℤ) * 2 ^ (1074 : ℤ) = 1 / 2 := by
    rw [← zpow_add₀ two_ne_zero]
    norm_num
  refine .finite hzero (hr.trans_lt ?_) (closest_of_rounded le_rfl (.inl rfl) ⟨?_, ?_, .inl rfl⟩)
  · have htop := topUnit_pos
    calc (2 : ℚ) ^ (-1075 : ℤ) ≤ topUnit := zpow_le_zpow_right₀ one_le_two (by norm_num)
      _ < overflowBound := by unfold overflowBound; linarith
  · rw [neg_neg, Nat.cast_zero]
    calc (0 : ℚ) - 1 / 2 ≤ 0 := by norm_num
      _ ≤ r * 2 ^ (1074 : ℤ) := by positivity
  · rw [neg_neg, Nat.cast_zero, zero_add, ← hhalf]
    gcongr

/-- A ratio is rounded to the nearest double. -/
theorem isNearest_nearestRatio (negative : Bool) (num den : ℕ) (hden : 0 < den) :
    IsNearest negative (num / den) (nearestRatio negative num den) := by
  obtain rfl | hnum := Nat.eq_zero_or_pos num
  · rw [Nat.cast_zero, zero_div]
    exact isNearest_zero negative den le_rfl (by positivity)
  obtain ⟨q, s, h, hbits⟩ := exists_inUnit hnum hden
  rw [nearestRatio, hbits]
  obtain hr | hr := lt_or_ge ((num : ℚ) / den) overflowBound
  · have hclosest := closest_of_rounded h.least h.binade h.rounded
    have hq := h.finite hr
    have hfull := h.full
    have hleast := h.least
    obtain hs | hs := h.le_two_pow.lt_or_eq
    · rw [min_eq_left (by unfold infinityBits; omega)]
      exact .finite (Binary.ofFloat_ofBits negative hs h.least (by omega) hfull) hr hclosest
    · -- The significand is rounded up to `2 ^ 53`, which is `2 ^ 52` in the next unit.
      have hcarry : (q + 1074).toNat * 2 ^ 52 + s = (q + 1 + 1074).toNat * 2 ^ 52 + 2 ^ 52 := by
        omega
      have hvalue : (s : ℚ) * 2 ^ q = (2 ^ 52 : ℕ) * 2 ^ (q + 1) := by
        rw [hs, add_comm q 1, show (1 : ℤ) + q = (1 : ℕ) + q from rfl, two_zpow_natCast_add]
        push_cast
        ring
      rw [min_eq_left (by unfold infinityBits; omega), hcarry]
      refine .finite (Binary.ofFloat_ofBits negative (by norm_num) (by omega) (by omega)
        (.inr le_rfl)) hr ?_
      rw [← hvalue]
      exact ⟨hclosest.le, fun _ _ _ _ => rfl⟩
  · rw [min_eq_right (h.infinite hr)]
    exact .infinite (Binary.ofFloat_ofBits_infinity negative) hr

/-! ## The nearest double of a decimal -/

/-- A decimal is converted to the nearest double. -/
theorem Decimal.isNearest_toFloat (d : Decimal) :
    IsNearest d.negative d.magnitude d.toFloat := by
  have hmag0 : 0 ≤ d.magnitude := by
    unfold magnitude
    positivity
  unfold toFloat
  split
  · rename_i hdigits
    refine isNearest_zero d.negative 1 hmag0 ?_
    rw [magnitude, hdigits, Nat.cast_zero, zero_mul]
    positivity
  rename_i hdigits
  split
  · -- A large exponent puts the decimal beyond the bound.
    refine .infinite (Binary.ofFloat_ofBits_infinity d.negative) ?_
    by_contra hlt
    have hle : d.magnitude ≤ 2 ^ (1024 : ℤ) := by
      have htop := topUnit_pos
      rw [show (2 : ℚ) ^ (1024 : ℤ) = 2 ^ 53 * topUnit from two_zpow_natCast_add 53 971]
      unfold overflowBound at hlt
      linarith
    have := exponent_le (Nat.pos_of_ne_zero hdigits) hle
    omega
  split
  · -- A small exponent puts it below half the least positive double.
    refine isNearest_zero d.negative 1 hmag0 ?_
    by_contra hgt
    have := le_exponent (lt_of_not_ge hgt).le
    omega
  · rw [magnitude]
    split <;> rename_i k hk <;> rw [hk]
    · have h := isNearest_nearestRatio d.negative (d.digits * 10 ^ k) 1 one_pos
      rw [Nat.cast_one, div_one] at h
      simpa using h
    · have h := isNearest_nearestRatio d.negative d.digits (10 ^ (k + 1)) (by positivity)
      simpa [zpow_negSucc, div_eq_mul_inv] using h

/-! ## There is only one -/

/-- The significands of two finite doubles of one magnitude agree, and so do the exponents. -/
theorem eq_of_magnitude_eq {m m' : ℕ} {q q' : ℤ} (hm' : m' < 2 ^ 53)
    (hfull : q = -1074 ∨ 2 ^ 52 ≤ m) (hq' : -1074 ≤ q') (hle : q' ≤ q)
    (h : (m : ℚ) * 2 ^ q = m' * 2 ^ q') : q = q' ∧ m = m' := by
  obtain ⟨k, rfl⟩ : ∃ k : ℕ, q = q' + k := ⟨(q - q').toNat, by omega⟩
  have hu : (2 : ℚ) ^ q' ≠ 0 := by positivity
  rw [zpow_add₀ (by norm_num), zpow_natCast, mul_comm ((2 : ℚ) ^ q'), ← mul_assoc] at h
  have hnat : m * 2 ^ k = m' := by exact_mod_cast mul_right_cancel₀ hu h
  -- With a larger exponent the significand on the other side would have more than 53 places.
  obtain rfl | hk := Nat.eq_zero_or_pos k
  · exact ⟨by simp, by simpa using hnat⟩
  · have h52 := hfull.resolve_left (by omega)
    have hpow : 2 ^ 1 ≤ 2 ^ k := Nat.pow_le_pow_right two_pos hk
    have := Nat.mul_le_mul h52 hpow
    omega

/-- Two finite doubles that are both the closest have the same magnitude: of two that were equally
far on both sides the lower one would be next to the upper one, and only one of them even. -/
theorem magnitude_le_of_closest {r : ℚ} {x y : Float} {n n' : Bool} {m m' : ℕ} {q q' : ℤ}
    (hx : Binary.ofFloat x = .finite n m q) (hy : Binary.ofFloat y = .finite n' m' q')
    (hcx : Closest r (m * 2 ^ q) (m % 2 = 0)) (hcy : Closest r (m' * 2 ^ q') (m' % 2 = 0)) :
    (m' : ℚ) * 2 ^ q' ≤ m * 2 ^ q := by
  by_contra hlt
  have hlt := lt_of_not_ge hlt
  obtain ⟨hm, hq0, hq1, hfull⟩ := Binary.finite_range hx
  obtain ⟨hm', hq0', hq1', hfull'⟩ := Binary.finite_range hy
  have hu : (0 : ℚ) < 2 ^ q := by positivity
  have hbx : IsMagnitude (m * 2 ^ q) := ⟨x, n, m, q, hx, rfl⟩
  have hby : IsMagnitude (m' * 2 ^ q') := ⟨y, n', m', q', hy, rfl⟩
  have heq := le_antisymm (hcx.le _ hby) (hcy.le _ hbx)
  have heven := hcx.tie _ hby heq hlt.ne'
  have heven' := hcy.tie _ hbx heq.symm hlt.ne
  -- The lower significand is even, so the next one still has 53 places.
  have hnext : IsMagnitude ((m + 1 : ℕ) * 2 ^ q) := ⟨_, false, m + 1, q,
    Binary.ofFloat_ofBits false (by omega) hq0 hq1 (by omega), rfl⟩
  have hstep : ((m + 1 : ℕ) : ℚ) * 2 ^ q ≤ m' * 2 ^ q' := by
    obtain ⟨k, hk⟩ | ⟨hq, hbelow⟩ := hby.on_grid hq0
    · rw [hk] at hlt ⊢
      have : m < k := by exact_mod_cast lt_of_mul_lt_mul_right hlt hu.le
      have : ((m + 1 : ℕ) : ℚ) ≤ k := by exact_mod_cast this
      exact mul_le_mul_of_nonneg_right this hu.le
    · have h52 : (2 : ℚ) ^ (52 : ℤ) ≤ m := by exact_mod_cast hfull.resolve_left (by omega)
      have := mul_le_mul_of_nonneg_right h52 hu.le
      linarith
  -- The ratio is in the middle, so the next one is no other than the upper one.
  have hmiddle : r - m * 2 ^ q = m' * 2 ^ q' - r := by
    obtain h | h := abs_eq_abs.1 heq
    · linarith
    · linarith
  obtain hsame | hless := hstep.eq_or_lt
  · obtain hle | hle := le_total q' q
    · obtain ⟨-, h⟩ := eq_of_magnitude_eq hm' (by omega) hq0' hle hsame
      omega
    · obtain ⟨-, h⟩ := eq_of_magnitude_eq (by omega) hfull' hq0 hle hsame.symm
      omega
  · have hcloser := hcx.le _ hnext
    push_cast at hcloser hless
    rw [abs_sub_comm, abs_of_pos (by linarith)] at hcloser
    have : |((m : ℚ) + 1) * 2 ^ q - r| < r - m * 2 ^ q := abs_lt.2 ⟨by linarith, by linarith⟩
    linarith

/-- A sign and a magnitude have one nearest double. -/
theorem IsNearest.unique {negative : Bool} {r : ℚ} {x y : Float} (hx : IsNearest negative r x)
    (hy : IsNearest negative r y) : x = y := by
  cases hx with
  | infinite hx hr =>
    cases hy with
    | infinite hy _ => exact Binary.eq_of_infinite hx hy
    | finite _ hr' _ => exact absurd hr (not_le_of_gt hr')
  | @finite m q hx hr hcx =>
    cases hy with
    | infinite _ hr' => exact absurd hr (not_lt_of_ge hr')
    | @finite m' q' hy _ hcy =>
      obtain ⟨hm, hq0, -, hfull⟩ := Binary.finite_range hx
      obtain ⟨hm', hq0', -, hfull'⟩ := Binary.finite_range hy
      have heq := le_antisymm (magnitude_le_of_closest hy hx hcy hcx)
        (magnitude_le_of_closest hx hy hcx hcy)
      obtain ⟨rfl, rfl⟩ : q = q' ∧ m = m' := by
        obtain hle | hle := le_total q' q
        · exact eq_of_magnitude_eq hm' hfull hq0' hle heq
        · obtain ⟨h, h'⟩ := eq_of_magnitude_eq hm hfull' hq0 hle heq.symm
          exact ⟨h.symm, h'.symm⟩
      exact Binary.eq_of_finite hx hy

end MathProgram

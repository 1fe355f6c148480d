import MathProgram.Decimal.Shortest
import MathProgram.Proofs.Decimal.Bits

/-!
# Rounding to the nearest double

`nearestBits` rounds a ratio of natural numbers. `nearestBits_eq` says that every ratio in the
interval of a positive double `m · 2^q` is rounded to that double. The ratio is followed as a
rational number: `scaleRatio` multiplies it by a power of two (`scaleRatio_div`), `ratioLog2` finds
its binade (`ratioLog2_spec`), and `roundHalfEven` gives the whole number that is less than a half
away, or a half away and even (`roundHalfEven_eq`). Only one case is not direct: just below a power
of two the binade is the lower one, and the significand rounds up to `2^53`.
-/

namespace MathProgram

/-- A rational number belongs to an interval. -/
def Interval.Contains (i : Interval) (r : ℚ) : Prop :=
  i.low * (2 : ℚ) ^ i.shift ≤ r ∧ r ≤ i.high * (2 : ℚ) ^ i.shift ∧
    (i.closed = false → i.low * (2 : ℚ) ^ i.shift < r ∧ r < i.high * (2 : ℚ) ^ i.shift)

/-- Scaling by a power of two leaves a denominator. -/
theorem scaleRatio_pos {num den : ℕ} (hden : 0 < den) (k : ℤ) : 0 < (scaleRatio num den k).2 := by
  cases k with
  | ofNat k => exact hden
  | negSucc k => exact Nat.mul_pos hden (by positivity)

/-- `scaleRatio` multiplies a ratio by a power of two. -/
theorem scaleRatio_div (num den : ℕ) (k : ℤ) :
    ((scaleRatio num den k).1 : ℚ) / (scaleRatio num den k).2 = num / den * 2 ^ k := by
  cases k with
  | ofNat k =>
    simp only [scaleRatio, Int.ofNat_eq_natCast, zpow_natCast]
    push_cast
    ring
  | negSucc k =>
    simp only [scaleRatio, zpow_negSucc]
    push_cast
    rw [div_mul_eq_div_div, div_eq_mul_inv _ ((2 : ℚ) ^ (k + 1))]

/-- A ratio is compared with a power of two by scaling it down. -/
theorem scaleRatio_le_iff (num : ℕ) {den : ℕ} (hden : 0 < den) (k : ℤ) :
    (scaleRatio num den (-k)).2 ≤ (scaleRatio num den (-k)).1 ↔ (2 : ℚ) ^ k ≤ num / den := by
  have hp : (0 : ℚ) < (scaleRatio num den (-k)).2 := by exact_mod_cast scaleRatio_pos hden (-k)
  have h2 : (0 : ℚ) < 2 ^ k := by positivity
  rw [← Nat.cast_le (α := ℚ), ← one_le_div hp, scaleRatio_div, zpow_neg, ← div_eq_mul_inv,
    one_le_div h2]

/-- A ratio lies in its binade. -/
theorem ratioLog2_spec {num den : ℕ} (hnum : 0 < num) (hden : 0 < den) :
    (2 : ℚ) ^ ratioLog2 num den ≤ num / den ∧ (num : ℚ) / den < 2 ^ (ratioLog2 num den + 1) := by
  have hn1 : (2 : ℚ) ^ num.log2 ≤ num := by exact_mod_cast Nat.log2_self_le hnum.ne'
  have hn2 : (num : ℚ) < 2 ^ (num.log2 + 1) := by exact_mod_cast Nat.lt_log2_self
  have hd1 : (2 : ℚ) ^ den.log2 ≤ den := by exact_mod_cast Nat.log2_self_le hden.ne'
  have hd2 : (den : ℚ) < 2 ^ (den.log2 + 1) := by exact_mod_cast Nat.lt_log2_self
  have hd0 : (0 : ℚ) < den := by exact_mod_cast hden
  have h2 : (2 : ℚ) ≠ 0 := by norm_num
  have hcmp := scaleRatio_le_iff num hden ((num.log2 : ℤ) - den.log2)
  unfold ratioLog2
  dsimp only
  set e : ℤ := (num.log2 : ℤ) - den.log2 with he
  -- The estimate is the binade or the one above it.
  have hlow : (2 : ℚ) ^ (e - 1) ≤ num / den := by
    rw [le_div_iff₀ hd0, he, show (num.log2 : ℤ) - den.log2 - 1 = num.log2 - (den.log2 + 1 : ℕ) by
      push_cast; ring, zpow_sub₀ h2, zpow_natCast, zpow_natCast, div_mul_eq_mul_div,
      div_le_iff₀ (by positivity)]
    exact mul_le_mul hn1 hd2.le hd0.le (by positivity)
  have hhigh : (num : ℚ) / den < 2 ^ (e + 1) := by
    rw [div_lt_iff₀ hd0, he, show (num.log2 : ℤ) - den.log2 + 1 = (num.log2 + 1 : ℕ) - den.log2 by
      push_cast; ring, zpow_sub₀ h2, zpow_natCast, zpow_natCast, div_mul_eq_mul_div,
      lt_div_iff₀ (by positivity)]
    exact mul_lt_mul hn2 hd1 (by positivity) (by positivity)
  split_ifs with hle
  · exact ⟨hcmp.1 hle, hhigh⟩
  · refine ⟨hlow, ?_⟩
    rw [sub_add_cancel]
    exact lt_of_not_ge fun h => hle (hcmp.2 h)

/-- The binade of a ratio is the only one that holds it. -/
theorem ratioLog2_eq {num den : ℕ} {e : ℤ} (hnum : 0 < num) (hden : 0 < den)
    (hlow : (2 : ℚ) ^ e ≤ num / den) (hhigh : (num : ℚ) / den < 2 ^ (e + 1)) :
    ratioLog2 num den = e := by
  obtain ⟨h1, h2⟩ := ratioLog2_spec hnum hden
  have hle := (zpow_lt_zpow_iff_right₀ (by norm_num : (1 : ℚ) < 2)).1 (h1.trans_lt hhigh)
  have hge := (zpow_lt_zpow_iff_right₀ (by norm_num : (1 : ℚ) < 2)).1 (hlow.trans_lt h2)
  omega

/-- A quotient within a half of a whole number is rounded to it, if it is not a half away from an
odd one. -/
theorem roundHalfEven_eq {num den m : ℕ} (hden : 0 < den)
    (hlow : (m : ℚ) - 1 / 2 ≤ num / den) (hhigh : (num : ℚ) / den ≤ m + 1 / 2)
    (heven : m % 2 = 0 ∨ (m : ℚ) - 1 / 2 < num / den ∧ (num : ℚ) / den < m + 1 / 2) :
    roundHalfEven num den = m := by
  have hd : (0 : ℚ) < den := by exact_mod_cast hden
  -- The bounds in whole numbers, without division.
  have hlow' : 2 * m * den ≤ 2 * num + den := by
    rw [le_div_iff₀ hd] at hlow
    exact_mod_cast (by linarith : 2 * (m : ℚ) * den ≤ 2 * num + den)
  have hhigh' : 2 * num ≤ 2 * m * den + den := by
    rw [div_le_iff₀ hd] at hhigh
    exact_mod_cast (by linarith : 2 * (num : ℚ) ≤ 2 * m * den + den)
  have heven' : m % 2 = 0 ∨ 2 * m * den < 2 * num + den ∧ 2 * num < 2 * m * den + den := by
    refine heven.imp_right fun ⟨hl, hh⟩ => ⟨?_, ?_⟩
    · rw [lt_div_iff₀ hd] at hl
      exact_mod_cast (by linarith : 2 * (m : ℚ) * den < 2 * num + den)
    · rw [div_lt_iff₀ hd] at hh
      exact_mod_cast (by linarith : 2 * (num : ℚ) < 2 * m * den + den)
  have hdiv := Nat.div_add_mod num den
  have hmod := Nat.mod_lt num hden
  unfold roundHalfEven
  dsimp only
  set a := num / den
  set r := num % den
  -- The quotient rounded down is `m`, or `m - 1` with a remainder of at least a half.
  have hcases : a = m ∨ a + 1 = m := by
    have h1 : den * (2 * a) < den * (2 * m + 2) := by linarith
    have h2 : den * (2 * m) < den * (2 * a + 4) := by linarith
    have h3 := Nat.lt_of_mul_lt_mul_left h1
    have h4 := Nat.lt_of_mul_lt_mul_left h2
    omega
  obtain rfl | rfl := hcases
  · have hprod : 2 * a * den = 2 * (den * a) := by ring
    split_ifs <;> omega
  · have hprod : 2 * (a + 1) * den = 2 * (den * a) + 2 * den := by ring
    split_ifs <;> omega

section Nearest

variable {num den m : ℕ} {q : ℤ}

/-- The bits of a ratio once its unit in the last place and its significand are known. -/
theorem nearestBits_of_unit {s : ℕ} (hnum : 0 < num) (hden : 0 < den)
    (hq : max (ratioLog2 num den - 52) (-1074) = q)
    (hlow : (s : ℚ) - 1 / 2 ≤ num / den * 2 ^ (-q)) (hhigh : num / den * (2 : ℚ) ^ (-q) ≤ s + 1 / 2)
    (heven : s % 2 = 0 ∨
      (s : ℚ) - 1 / 2 < num / den * 2 ^ (-q) ∧ num / den * (2 : ℚ) ^ (-q) < s + 1 / 2) :
    nearestBits num den = min ((q + 1074).toNat * 2 ^ 52 + s) infinityBits := by
  rw [← scaleRatio_div] at hlow hhigh heven
  unfold nearestBits
  dsimp only
  rw [if_neg hnum.ne', hq, roundHalfEven_eq (scaleRatio_pos hden (-q)) hlow hhigh heven]

/-- The interval of a positive double in units in its last place: a half on both sides, and below a
power of two a quarter. -/
theorem Interval.contains_around {r : ℚ} (hm : 0 < m) (hr : (around m q).Contains r) :
    ((m : ℚ) - 1 / 2) * 2 ^ q ≤ r ∧ r ≤ (m + 1 / 2) * 2 ^ q ∧
      (m % 2 = 1 → ((m : ℚ) - 1 / 2) * 2 ^ q < r ∧ r < (m + 1 / 2) * 2 ^ q) ∧
      (m = 2 ^ 52 → ((m : ℚ) - 1 / 4) * 2 ^ q ≤ r) := by
  obtain ⟨hlow, hhigh, hopen⟩ := hr
  simp only [around] at hlow hhigh hopen
  have hu : (0 : ℚ) < 2 ^ q := by positivity
  have hshift : (2 : ℚ) ^ (q - 2) = 2 ^ q / 4 := by
    rw [zpow_sub₀ (by norm_num)]
    norm_num
  -- The lower end is one unit of a quarter below a power of two, and two elsewhere.
  generalize hlast : (4 * m - if m = 2 ^ 52 then 1 else 2) = low at hlow hopen
  have hhalf : (4 * m : ℚ) - 2 ≤ low := by
    rw [sub_le_iff_le_add]
    exact_mod_cast (by split_ifs at hlast <;> omega : 4 * m ≤ low + 2)
  have hhalf' := mul_le_mul_of_nonneg_right hhalf hu.le
  push_cast at hhigh hopen
  rw [hshift] at hlow hhigh hopen
  refine ⟨by linarith, by linarith, fun hodd => ?_, fun hpow => ?_⟩
  · have := hopen (by simp [hodd])
    constructor <;> linarith
  · have hquarter : (4 * m : ℚ) = low + 1 := by
      exact_mod_cast (by rw [if_pos hpow] at hlast; omega : 4 * m = low + 1)
    rw [show (m : ℚ) - 1 / 4 = low / 4 by linarith]
    linarith

/-- The unit in the last place of a ratio below `2 ^ (q + 53)` is `2 ^ q`, if `q` is the least
exponent or the ratio has 53 places in this unit. -/
theorem max_ratioLog2_eq (hnum : 0 < num) (hden : 0 < den) (hq0 : -1074 ≤ q)
    (hbinade : q = -1074 ∨ (2 : ℚ) ^ (q + 52) ≤ num / den)
    (htop : (num : ℚ) / den < 2 ^ (q + 52 + 1)) : max (ratioLog2 num den - 52) (-1074) = q := by
  obtain rfl | hge := hbinade
  · have := (zpow_lt_zpow_iff_right₀ (by norm_num : (1 : ℚ) < 2)).1
      ((ratioLog2_spec hnum hden).1.trans_lt htop)
    omega
  · rw [ratioLog2_eq hnum hden hge htop]
    omega

/-- Less than a quarter of a unit below a power of two a ratio is rounded to this power: the unit
there is a half of the one above, and the significand rounds up. -/
theorem nearestBits_of_below_power (hnum : 0 < num) (hden : 0 < den) (hq0 : -1074 < q)
    (hq1 : q ≤ 971) (hlow : ((2 : ℚ) ^ 52 - 1 / 4) * 2 ^ q ≤ num / den)
    (hhigh : (num : ℚ) / den < 2 ^ q * 2 ^ (52 : ℤ)) :
    nearestBits num den = (q + 1074).toNat * 2 ^ 52 + 2 ^ 52 := by
  have hu : (0 : ℚ) < 2 ^ q := by positivity
  have h2 : (2 : ℚ) ≠ 0 := by norm_num
  have hhalf : (2 : ℚ) ^ (-(q - 1)) = 2 / 2 ^ q := by
    rw [neg_sub, zpow_sub₀ h2, zpow_one]
  have hlog : ratioLog2 num den = q + 51 := by
    refine ratioLog2_eq hnum hden ?_ ?_
    · rw [zpow_add₀ h2]
      norm_num at hlow ⊢
      linarith
    · rwa [add_assoc, zpow_add₀ h2]
  rw [nearestBits_of_unit (s := 2 ^ 53) (q := q - 1) hnum hden (by omega)]
  · unfold infinityBits
    omega
  · rw [hhalf, ← mul_div_assoc, le_div_iff₀ hu]
    norm_num at hlow ⊢
    linarith
  · rw [hhalf, ← mul_div_assoc, div_le_iff₀ hu]
    norm_num at hhigh ⊢
    linarith
  · exact .inl rfl

/-- A ratio in the interval of a positive double is rounded to that double. -/
theorem nearestBits_eq (hden : 0 < den) (hm : 0 < m) (hm53 : m < 2 ^ 53) (hq0 : -1074 ≤ q)
    (hq1 : q ≤ 971) (hfull : q = -1074 ∨ 2 ^ 52 ≤ m)
    (hr : (Interval.around m q).Contains (num / den)) :
    nearestBits num den = (q + 1074).toNat * 2 ^ 52 + m := by
  obtain ⟨hlow, hhigh, hopen, hpower⟩ := Interval.contains_around hm hr
  have hu : (0 : ℚ) < 2 ^ q := by positivity
  have h2 : (2 : ℚ) ≠ 0 := by norm_num
  have hm1 : (1 : ℚ) ≤ m := by exact_mod_cast hm
  have hm53' : (m : ℚ) + 1 ≤ 2 ^ 53 := by exact_mod_cast hm53
  have hpos : (0 : ℚ) < num / den := lt_of_lt_of_le (by nlinarith) hlow
  have hnum : 0 < num := by
    by_contra h
    simp [Nat.eq_zero_of_not_pos h] at hpos
  -- The ratio is below the next power of two even at the upper end.
  have htop : (num : ℚ) / den < 2 ^ (q + 52 + 1) := by
    rw [add_assoc, zpow_add₀ h2]
    refine hhigh.trans_lt ?_
    rw [mul_comm]
    exact mul_lt_mul_of_pos_left (by norm_num at hm53' ⊢; linarith) hu
  by_cases hbinade : q = -1074 ∨ (2 : ℚ) ^ (q + 52) ≤ num / den
  · -- The unit in the last place is that of the double.
    rw [nearestBits_of_unit (s := m) hnum hden (max_ratioLog2_eq hnum hden hq0 hbinade htop),
      min_eq_left (by unfold infinityBits; omega)]
    · rwa [zpow_neg, ← div_eq_mul_inv, le_div_iff₀ hu]
    · rwa [zpow_neg, ← div_eq_mul_inv, div_le_iff₀ hu]
    · rw [zpow_neg, ← div_eq_mul_inv, lt_div_iff₀ hu, div_lt_iff₀ hu]
      exact (Nat.mod_two_eq_zero_or_one m).imp_right hopen
  · -- The ratio is below the binade of the double, so the double is a power of two.
    obtain ⟨hq, hlt⟩ := not_or.1 hbinade
    rw [not_le, zpow_add₀ h2] at hlt
    have hm52 : 2 ^ 52 ≤ m := hfull.resolve_left hq
    have hpow : m = 2 ^ 52 := by
      by_contra hne
      have : (2 : ℚ) ^ 52 + 1 ≤ m := by exact_mod_cast (by omega : 2 ^ 52 + 1 ≤ m)
      have := mul_le_mul_of_nonneg_right this hu.le
      norm_num at this hlt
      linarith
    have hlow' := hpower hpow
    subst hpow
    push_cast at hlow'
    exact nearestBits_of_below_power hnum hden (by omega) hq1 hlow' hlt

end Nearest

end MathProgram

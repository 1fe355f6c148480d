import MathProgram.Decimal.Shortest
import MathProgram.Proofs.Decimal.Rounding

/-!
# The shortest decimal lies in the interval

`shortest` looks for a multiple of a power of ten in the interval of a double, first on the coarsest
grid. A decimal it takes lies in the interval (`Interval.onGrid?_contains`). It always takes one:
the power of ten it starts from is at most the value (`ten_zpow_ratioLog10_le`), so the grid of the
seventeenth digit is finer than the interval is long (`Interval.onGrid?_isSome`).
-/

namespace MathProgram

/-- The value of a decimal without its sign. -/
def Decimal.magnitude (d : Decimal) : ℚ := d.digits * 10 ^ d.exponent

/-! ## Powers of ten -/

/-- Scaling by a power of ten leaves a denominator. -/
theorem scaleTen_pos {n d : ℕ} (hd : 0 < d) (k : ℤ) : 0 < (scaleTen n d k).2 := by
  cases k with
  | ofNat k => exact hd
  | negSucc k => exact Nat.mul_pos hd (by positivity)

/-- `scaleTen` multiplies a ratio by a power of ten. -/
theorem scaleTen_div (n d : ℕ) (k : ℤ) :
    ((scaleTen n d k).1 : ℚ) / (scaleTen n d k).2 = n / d * 10 ^ k := by
  cases k with
  | ofNat k =>
    simp only [scaleTen, Int.ofNat_eq_natCast, zpow_natCast]
    push_cast
    ring
  | negSucc k =>
    simp only [scaleTen, zpow_negSucc]
    push_cast
    rw [div_mul_eq_div_div, div_eq_mul_inv _ ((10 : ℚ) ^ (k + 1))]

/-- A ratio is compared with a power of ten by scaling it down. -/
theorem scaleTen_le_iff {n d : ℕ} (hd : 0 < d) (k : ℤ) :
    (scaleTen n d (-k)).2 ≤ (scaleTen n d (-k)).1 ↔ (10 : ℚ) ^ k ≤ n / d := by
  have hp : (0 : ℚ) < (scaleTen n d (-k)).2 := by exact_mod_cast scaleTen_pos hd (-k)
  have ht : (0 : ℚ) < 10 ^ k := by positivity
  rw [← Nat.cast_le (α := ℚ), ← one_le_div hp, scaleTen_div, zpow_neg, ← div_eq_mul_inv,
    one_le_div ht]

/-- The decimal logarithm of two is close to `0.30103`: near enough for exponents of five places. -/
theorem ten_zpow_le_two_zpow {k e : ℤ} (hlow : -10000 ≤ e) (hhigh : e ≤ 10000)
    (hk : 100000 * (k + 1) ≤ 30103 * e) : (10 : ℚ) ^ k ≤ 2 ^ e := by
  have h10 : (1 : ℚ) ≤ 10 := by norm_num
  -- Powers are compared by the fractions `59 / 196` and `28 / 93`, on either side of the logarithm.
  obtain he | he := le_total 0 e
  · rw [← zpow_le_zpow_iff_left₀ (by positivity) (by positivity) (by norm_num : (0 : ℤ) < 196)]
    calc ((10 : ℚ) ^ k) ^ (196 : ℤ) = 10 ^ (196 * k) := by rw [← zpow_mul, mul_comm]
      _ ≤ 10 ^ (59 * e) := zpow_le_zpow_right₀ h10 (by omega)
      _ = ((10 : ℚ) ^ (59 : ℤ)) ^ e := zpow_mul _ _ _
      _ ≤ ((2 : ℚ) ^ (196 : ℤ)) ^ e := zpow_le_zpow_left₀ he (by positivity) (by norm_num)
      _ = (2 ^ e) ^ (196 : ℤ) := by rw [← zpow_mul, ← zpow_mul, mul_comm]
  · rw [← zpow_le_zpow_iff_left₀ (by positivity) (by positivity) (by norm_num : (0 : ℤ) < 93)]
    calc ((10 : ℚ) ^ k) ^ (93 : ℤ) = 10 ^ (93 * k) := by rw [← zpow_mul, mul_comm]
      _ ≤ 10 ^ (28 * e) := zpow_le_zpow_right₀ h10 (by omega)
      _ = (((10 : ℚ) ^ (28 : ℤ)) ^ (-e))⁻¹ := by rw [zpow_neg, inv_inv, zpow_mul]
      _ ≤ (((2 : ℚ) ^ (93 : ℤ)) ^ (-e))⁻¹ := by
        refine inv_anti₀ (by positivity) ?_
        exact zpow_le_zpow_left₀ (by omega) (by positivity) (by norm_num)
      _ = (2 ^ e) ^ (93 : ℤ) := by rw [zpow_neg, inv_inv, ← zpow_mul, ← zpow_mul, mul_comm]

/-- The decimal logarithm of a ratio does not exceed it. -/
theorem ten_zpow_ratioLog10_le {num den : ℕ} (hnum : 0 < num) (hden : 0 < den)
    (hlow : -10000 ≤ ratioLog2 num den) (hhigh : ratioLog2 num den ≤ 10000) :
    (10 : ℚ) ^ ratioLog10 num den ≤ num / den := by
  unfold ratioLog10
  dsimp only
  set estimate : ℤ := (ratioLog2 num den * 30103).fdiv 100000 with hest
  -- The estimate may be one too large, and is corrected by a comparison each time.
  split_ifs with h0 h1
  · have hk : 100000 * (estimate - 1 + 1) ≤ 30103 * ratioLog2 num den := by
      rw [hest, Int.fdiv_eq_ediv_of_nonneg _ (by norm_num)]
      omega
    exact (ten_zpow_le_two_zpow hlow hhigh hk).trans (ratioLog2_spec hnum hden).1
  · exact (scaleTen_le_iff hden _).1 (by simpa using h1)
  · exact (scaleTen_le_iff hden _).1 (by simpa using h0)

/-! ## The grid of a power of ten -/

namespace Interval

variable {i : Interval} {e : ℤ}

/-- Multiples of the unit of an interval are put on a grid with one denominator. -/
theorem exists_grid (i : Interval) (e : ℤ) : ∃ (d : ℕ) (a : ℕ → ℕ), 0 < d ∧
    (∀ n, scaleTen (scaleRatio n 1 i.shift).1 (scaleRatio n 1 i.shift).2 (-e) = (a n, d)) ∧
    ∀ n, (a n : ℚ) = n * 2 ^ i.shift / 10 ^ e * d := by
  have hd (n : ℕ) : 0 < (scaleTen (scaleRatio n 1 i.shift).1 (scaleRatio n 1 i.shift).2 (-e)).2 :=
    scaleTen_pos (scaleRatio_pos one_pos _) _
  have hsame (n : ℕ) : (scaleTen (scaleRatio n 1 i.shift).1 (scaleRatio n 1 i.shift).2 (-e)).2 =
      (scaleTen (scaleRatio 0 1 i.shift).1 (scaleRatio 0 1 i.shift).2 (-e)).2 := by
    cases i.shift <;> cases -e <;> rfl
  refine ⟨_, fun n => (scaleTen (scaleRatio n 1 i.shift).1 (scaleRatio n 1 i.shift).2 (-e)).1,
    hd 0, fun n => Prod.ext rfl (hsame n), fun n => ?_⟩
  have hp : (0 : ℚ) < (scaleTen (scaleRatio n 1 i.shift).1 (scaleRatio n 1 i.shift).2 (-e)).2 := by
    exact_mod_cast hd n
  rw [← hsame n, ← div_eq_iff hp.ne', scaleTen_div, scaleRatio_div, zpow_neg, ← div_eq_mul_inv]
  simp

/-- A decimal that is taken lies in the interval. -/
theorem onGrid?_contains {c : Decimal} (hlow : i.low < i.value) (hhigh : i.value < i.high)
    (h : i.onGrid? e = some c) : c.negative = false ∧ c.exponent = e ∧ i.Contains c.magnitude := by
  obtain ⟨d, a, hd, hgrid, ha⟩ := exists_grid i e
  have hdq : (0 : ℚ) < d := by exact_mod_cast hd
  have ht : (0 : ℚ) < 10 ^ e := by positivity
  -- Comparisons on the grid are comparisons of the rational numbers.
  have hend (p k : ℕ) : a p ≤ k * d ↔ (p : ℚ) * 2 ^ i.shift ≤ k * 10 ^ e := by
    rw [← div_le_iff₀ ht, ← mul_le_mul_iff_left₀ hdq, ← ha]
    exact_mod_cast Iff.rfl
  have hstart (p k : ℕ) : k * d ≤ a p ↔ (k : ℚ) * 10 ^ e ≤ p * 2 ^ i.shift := by
    rw [← le_div_iff₀ ht, ← mul_le_mul_iff_left₀ hdq, ← ha]
    exact_mod_cast Iff.rfl
  have hmono {p k : ℕ} (hlt : p < k) : a p < a k := by
    have hlt' : (p : ℚ) < k := by exact_mod_cast hlt
    have h1 : (a p : ℚ) < a k := by
      rw [ha, ha]
      gcongr
    exact_mod_cast h1
  have hlow' := hmono hlow
  have hhigh' := hmono hhigh
  have hdiv := Nat.div_add_mod' (a i.value) d
  have hmod := Nat.mod_lt (a i.value) hd
  simp only [onGrid?, hgrid] at h
  set n := a i.value / d
  have hsucc : (n + 1) * d = n * d + d := by ring
  -- The multiple above the value is past the lower end, and the one below before the upper end.
  obtain ⟨k, rfl, hk1, hk2, hk3⟩ : ∃ k, c = ⟨false, k, e⟩ ∧ a i.low ≤ k * d ∧ k * d ≤ a i.high ∧
      (i.closed = false → a i.low < k * d ∧ k * d < a i.high) := by
    split_ifs at h with hcl hup hlo hup' hlo'
    all_goals
      obtain rfl := Option.some.inj h
      refine ⟨_, rfl, ?_⟩
      simp_all only [Bool.and_eq_true, decide_eq_true_eq]
      grind
  refine ⟨rfl, rfl, (hend _ _).1 hk1, (hstart _ _).1 hk2, fun hopen => ?_⟩
  obtain ⟨hk4, hk5⟩ := hk3 hopen
  exact ⟨not_le.1 ((hstart _ _).not.1 (not_le.2 hk4)), not_le.1 ((hend _ _).not.1 (not_le.2 hk5))⟩

/-- A grid finer than the interval is long meets it. -/
theorem onGrid?_isSome (hwide : (10 : ℚ) ^ e < (i.high - i.low) * 2 ^ i.shift) :
    (i.onGrid? e).isSome := by
  obtain ⟨d, a, hd, hgrid, ha⟩ := exists_grid i e
  have hdq : (0 : ℚ) < d := by exact_mod_cast hd
  have ht : (0 : ℚ) < 10 ^ e := by positivity
  -- The ends are more than one step of the grid apart.
  have hfine : a i.low + d < a i.high := by
    have h1 : (1 : ℚ) < (i.high - i.low) * 2 ^ i.shift / 10 ^ e := by rwa [one_lt_div ht]
    have h2 := mul_lt_mul_of_pos_right h1 hdq
    have h3 : (a i.low : ℚ) + d < a i.high := by
      rw [sub_mul, sub_div, sub_mul, one_mul, ← ha, ← ha] at h2
      linarith
    exact_mod_cast h3
  simp only [onGrid?, hgrid]
  set n := a i.value / d
  have hsucc : (n + 1) * d = n * d + d := by ring
  -- The lower end is past one multiple and the upper end before the next: they are too close.
  cases i.closed
  · simp only [Bool.false_eq_true, if_false, Bool.and_eq_true, Bool.or_eq_true, decide_eq_true_eq,
      Bool.not_eq_true', decide_eq_false_iff_not]
    split_ifs with hup hlo
    · rfl
    · rfl
    · omega
  · simp only [if_true, Bool.and_eq_true, Bool.or_eq_true, decide_eq_true_eq, Bool.not_eq_true',
      decide_eq_false_iff_not]
    split_ifs with hup hlo
    · rfl
    · rfl
    · omega

end Interval

/-! ## The search -/

section Search

variable {m : ℕ} {q : ℤ}

/-- The grid of the seventeenth digit is finer than the interval of a double is long. -/
theorem seventeenth_digit_lt {top : ℤ} (hm : 0 < m) (hm53 : m < 2 ^ 53)
    (htop : (10 : ℚ) ^ top ≤ m * 2 ^ q) : (10 : ℚ) ^ (top - 16) <
      ((Interval.around m q).high - (Interval.around m q).low) *
        2 ^ (Interval.around m q).shift := by
  have hu : (0 : ℚ) < 2 ^ q := by positivity
  have h10 : (10 : ℚ) ^ (top - 16) = 10 ^ top / 10 ^ 16 := by
    rw [zpow_sub₀ (by norm_num)]
    rfl
  have h2 : (2 : ℚ) ^ (q - 2) = 2 ^ q / 4 := by
    rw [zpow_sub₀ (by norm_num)]
    norm_num
  simp only [Interval.around]
  rw [h10, h2, div_lt_iff₀ (by norm_num)]
  refine htop.trans_lt ?_
  split_ifs with hpow
  · subst hpow
    norm_num
    linarith
  · have hm' : (m : ℚ) ≤ 2 ^ 53 := by exact_mod_cast hm53.le
    have hmul := mul_le_mul_of_nonneg_right hm' hu.le
    push_cast [show 2 ≤ 4 * m by omega]
    norm_num at hmul ⊢
    linarith

/-- The ends of the interval of a positive double are on both sides of the value. -/
theorem around_lt (hm : 0 < m) (q : ℤ) :
    (Interval.around m q).low < (Interval.around m q).value ∧
      (Interval.around m q).value < (Interval.around m q).high := by
  simp only [Interval.around]
  constructor
  · split_ifs <;> omega
  · omega

/-- The value in the interval of a double is the double. -/
theorem value_around (m : ℕ) (q : ℤ) :
    ((scaleRatio (Interval.around m q).value 1 (Interval.around m q).shift).1 : ℚ) /
      (scaleRatio (Interval.around m q).value 1 (Interval.around m q).shift).2 = m * 2 ^ q := by
  rw [scaleRatio_div]
  simp only [Interval.around]
  rw [zpow_sub₀ (by norm_num)]
  push_cast
  ring

/-- The binade of a double is bounded by the size of its significand. -/
theorem ratioLog2_bounds {v d : ℕ} (hv : 0 < v) (hd : 0 < d) (hm : 0 < m) (hm53 : m < 2 ^ 53)
    (hratio : (v : ℚ) / d = m * 2 ^ q) : q < ratioLog2 v d + 1 ∧ ratioLog2 v d < 53 + q := by
  have hu : (0 : ℚ) < 2 ^ q := by positivity
  have hm1 : (1 : ℚ) ≤ m := by exact_mod_cast hm
  obtain ⟨hle, hlt⟩ := ratioLog2_spec hv hd
  rw [hratio] at hle hlt
  constructor
  · refine (zpow_lt_zpow_iff_right₀ (by norm_num : (1 : ℚ) < 2)).1 (lt_of_le_of_lt ?_ hlt)
    exact le_mul_of_one_le_left hu.le hm1
  · refine (zpow_lt_zpow_iff_right₀ (by norm_num : (1 : ℚ) < 2)).1 (hle.trans_lt ?_)
    rw [zpow_add₀ (by norm_num)]
    exact mul_lt_mul_of_pos_right (by exact_mod_cast hm53) hu

/-- The decimal of a positive double lies in its interval. -/
theorem shortest_spec (hm : 0 < m) (hm53 : m < 2 ^ 53) (hq0 : -1074 ≤ q) (hq1 : q ≤ 971) :
    (shortest m q).negative = false ∧ (Interval.around m q).Contains (shortest m q).magnitude := by
  obtain ⟨hlow, hhigh⟩ := around_lt hm q
  have hratio := value_around m q
  unfold shortest
  dsimp only
  set i := Interval.around m q
  set v := (scaleRatio i.value 1 i.shift).1
  set d := (scaleRatio i.value 1 i.shift).2
  have hd : 0 < d := scaleRatio_pos one_pos _
  have hv : 0 < v := by
    have hpos : (0 : ℚ) < v / d := by
      rw [hratio]
      positivity
    by_contra h
    simp [Nat.eq_zero_of_not_pos h] at hpos
  obtain ⟨hdown, hup⟩ := ratioLog2_bounds hv hd hm hm53 hratio
  have htop := ten_zpow_ratioLog10_le hv hd (by omega) (by omega)
  rw [hratio] at htop
  set top := ratioLog10 v d
  -- The search ends at the seventeenth digit at the latest.
  have hfound : ((List.range 17).findSome? fun n : ℕ => i.onGrid? (top - n)).isSome := by
    rw [List.findSome?_isSome_iff]
    exact ⟨16, by simp, Interval.onGrid?_isSome (seventeenth_digit_lt hm hm53 htop)⟩
  obtain ⟨c, hc⟩ := Option.isSome_iff_exists.1 hfound
  rw [hc, Option.getD_some]
  obtain ⟨n, -, hn⟩ := List.exists_of_findSome?_eq_some hc
  obtain ⟨hsign, -, hin⟩ := Interval.onGrid?_contains hlow hhigh hn
  exact ⟨hsign, hin⟩

end Search

end MathProgram

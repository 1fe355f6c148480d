import Mathlib.Data.List.TakeWhile
import Mathlib.Tactic
import MathProgram.Proofs.Decimal.Shortest

/-!
# Reading the literals that are written

Whole numbers are written as `toString` writes them, and `integerLiteral?` reads them back
(`integerLiteral?_toString`). Decimals are written by `Decimal.scientific` as digits, perhaps a
point and more digits, and an exponent. `ofLiteral?_parts` reads any such text; the zeros at the
end of the digits are not written, so what `ofLiteral?` gives back is a decimal of the same sign
and magnitude, and not always the same digits (`ofLiteral?_scientific`).
-/

namespace MathProgram

namespace Decimal

/-! ## Runs of digits -/

/-- A run of digits is read in two parts. -/
theorem digitsValue_append (n : ℕ) (xs ys : List Char) :
    digitsValue n (xs ++ ys) = digitsValue (digitsValue n xs) ys :=
  List.foldl_append

/-- The digits of a number denote it. -/
theorem digitsValue_toDigits (n : ℕ) : digitsValue 0 (Nat.toDigits 10 n) = n :=
  Nat.ofDigitChars_ten_toDigits

/-- Zeros at the end multiply by ten. -/
theorem digitsValue_replicate_zero (n k : ℕ) :
    digitsValue n (List.replicate k '0') = 10 ^ k * n :=
  Nat.ofDigitChars_replicate_zero

/-- The digits of a number are digits. -/
theorem isDigit_toDigits (n : ℕ) : ∀ c ∈ Nat.toDigits 10 n, c.isDigit :=
  fun _ => Nat.isDigit_of_mem_toDigits (by norm_num) (by norm_num)

/-- The digits of a number are read whole. -/
theorem wholeDigits?_toDigits (n : ℕ) : wholeDigits? (Nat.toDigits 10 n) = some n := by
  have hall : (Nat.toDigits 10 n).all Char.isDigit := List.all_eq_true.2 (isDigit_toDigits n)
  have hne : (Nat.toDigits 10 n).isEmpty = false := by simp [Nat.toDigits_ne_nil]
  simp [wholeDigits?, hall, hne, digitsValue_toDigits]

/-- A run of digits ends at the first character that is none. -/
theorem span_digits {xs ys : List Char} (hxs : ∀ d ∈ xs, d.isDigit)
    (hys : ∀ c ∈ ys.head?, c.isDigit = false) : (xs ++ ys).span Char.isDigit = (xs, ys) := by
  rw [List.span_eq_takeWhile_dropWhile, List.takeWhile_append_of_pos hxs,
    List.dropWhile_append_of_pos hxs]
  cases ys with
  | nil => simp
  | cons c cs => simp [hys c rfl]

/-! ## Signs and exponents -/

/-- A text that begins with a digit has no sign. -/
theorem splitSign_digit {c : Char} (cs : List Char) (hc : c.isDigit) :
    splitSign (c :: cs) = (false, c :: cs) := by
  unfold splitSign
  split
  · rename_i h
    obtain rfl := (List.cons.inj h).1
    simp at hc
  · rename_i h
    obtain rfl := (List.cons.inj h).1
    simp at hc
  · rfl

/-- A nonempty run of digits has no sign. -/
theorem splitSign_digits {xs : List Char} (ys : List Char) (hne : xs ≠ [])
    (hxs : ∀ c ∈ xs, c.isDigit) : splitSign (xs ++ ys) = (false, xs ++ ys) := by
  obtain ⟨c, cs, rfl⟩ := List.exists_cons_of_ne_nil hne
  exact splitSign_digit _ (hxs c (by simp))

/-- The characters of a whole number. -/
theorem toList_toString_int (i : ℤ) : (toString i).toList =
    (if 0 ≤ i then [] else ['-']) ++ Nat.toDigits 10 i.natAbs := by
  rw [Int.toString_eq_repr, Int.repr_eq_if]
  split_ifs with h
  · rw [Nat.toList_repr, show i.toNat = i.natAbs by omega]
    rfl
  · rw [String.toList_append, Nat.toList_repr, show (-i).toNat = i.natAbs by omega]
    rfl

/-- The sign and the digits of a whole number. -/
theorem splitSign_toString_int (i : ℤ) :
    splitSign (toString i).toList = (decide (i < 0), Nat.toDigits 10 i.natAbs) := by
  rw [toList_toString_int]
  split_ifs with h
  · have := splitSign_digits [] (Nat.toDigits_ne_nil (n := i.natAbs)) (isDigit_toDigits _)
    rw [List.append_nil] at this
    rw [List.nil_append, this, decide_eq_false (by omega)]
  · rw [decide_eq_true (by omega)]
    rfl

/-- A whole number is put together from its sign and its absolute value. -/
theorem signed_natAbs (i : ℤ) : (if decide (i < 0) then -(i.natAbs : ℤ) else i.natAbs) = i := by
  split_ifs with h
  · have := of_decide_eq_true h
    omega
  · have : ¬ i < 0 := fun h' => h (decide_eq_true h')
    omega

/-- An exponent part begins with the letter `e` or `E`, if it is there at all. -/
theorem head_of_exponentPart? {cs : List Char} {e : ℤ} (h : exponentPart? cs = some e) :
    ∀ c ∈ cs.head?, c = 'e' ∨ c = 'E' := by
  cases cs with
  | nil => simp
  | cons c cs =>
    rw [exponentPart?] at h
    split_ifs at h with hc
    rintro _ ⟨⟩
    simpa using hc

/-- The exponent of a literal is read back. -/
theorem exponentPart?_toString (e : ℤ) : exponentPart? ('e' :: (toString e).toList) = some e := by
  rw [exponentPart?, if_pos (by decide), splitSign_toString_int]
  dsimp only
  rw [wholeDigits?_toDigits]
  exact congrArg some (signed_natAbs e)

end Decimal

/-- A whole number is read back. -/
theorem integerLiteral?_toString (i : ℤ) : integerLiteral? (toString i).toList = some i := by
  rw [integerLiteral?, Decimal.splitSign_toString_int]
  dsimp only
  rw [Decimal.wholeDigits?_toDigits]
  exact congrArg some (Decimal.signed_natAbs i)

namespace Decimal

/-! ## Decimals -/

/-- The fraction of a literal as it is written: nothing, or a point and its digits. -/
def fractionText (fraction : List Char) : List Char :=
  if fraction = [] then [] else '.' :: fraction

/-- The sign of a literal as it is written. -/
def signText (negative : Bool) : List Char := if negative then ['-'] else []

/-- A written sign is read back. -/
theorem splitSign_signText {xs : List Char} (negative : Bool) (ys : List Char) (hne : xs ≠ [])
    (hxs : ∀ c ∈ xs, c.isDigit) :
    splitSign (signText negative ++ (xs ++ ys)) = (negative, xs ++ ys) := by
  cases negative
  · exact splitSign_digits ys hne hxs
  · rfl

/-- A written fraction is read back. -/
theorem splitFraction_fractionText {fraction rest : List Char} (hf : ∀ c ∈ fraction, c.isDigit)
    (hrest : ∀ c ∈ rest.head?, c = 'e' ∨ c = 'E') :
    splitFraction (fractionText fraction ++ rest) = (fraction, rest) := by
  unfold fractionText
  split_ifs with h
  · subst h
    rw [List.nil_append]
    unfold splitFraction
    split
    · exact absurd (hrest '.' (by simp)) (by decide)
    · rfl
  · exact span_digits hf fun c hc => by obtain rfl | rfl := hrest c hc <;> decide

/-- A literal that is written out in its parts is read. -/
theorem ofLiteral?_parts {whole fraction rest : List Char} {e : ℤ} (negative : Bool)
    (hne : whole ≠ []) (hw : ∀ c ∈ whole, c.isDigit) (hf : ∀ c ∈ fraction, c.isDigit)
    (hrest : exponentPart? rest = some e) :
    ofLiteral? (signText negative ++ (whole ++ (fractionText fraction ++ rest))) =
      some ⟨negative, digitsValue 0 (whole ++ fraction), e - fraction.length⟩ := by
  have hhead := head_of_exponentPart? hrest
  -- Whatever stands behind the whole part begins with a point or the letter of the exponent.
  have hspan : (whole ++ (fractionText fraction ++ rest)).span Char.isDigit =
      (whole, fractionText fraction ++ rest) := by
    refine span_digits hw ?_
    unfold fractionText
    split_ifs
    · exact fun c hc => by obtain rfl | rfl := hhead c hc <;> decide
    · rintro _ ⟨⟩
      decide
  have hwhole : whole.isEmpty = false := by simp [hne]
  simp only [ofLiteral?, splitSign_signText negative _ hne hw, hspan,
    splitFraction_fractionText hf hhead, hrest, hwhole]
  rfl

/-- A text that goes on with something else than digits is no whole number. -/
theorem integerLiteral?_parts {xs ys : List Char} (negative : Bool) (hne : xs ≠ [])
    (hxs : ∀ c ∈ xs, c.isDigit) (hys : ∃ c ∈ ys, ¬ c.isDigit) :
    integerLiteral? (signText negative ++ (xs ++ ys)) = none := by
  have hall : (xs ++ ys).all Char.isDigit = false := by
    obtain ⟨c, hc, hdigit⟩ := hys
    rw [List.all_eq_false]
    exact ⟨c, by simp [hc], hdigit⟩
  simp [integerLiteral?, splitSign_signText negative ys hne hxs, wholeDigits?, hall]

/-- The zeros that are dropped. -/
theorem exists_dropTrailingZeros (cs : List Char) :
    ∃ k, cs = dropTrailingZeros cs ++ List.replicate k '0' := by
  refine ⟨(cs.reverse.takeWhile (· == '0')).length, ?_⟩
  -- What is dropped are the zeros in front of the reversed digits.
  have hzeros : cs.reverse.takeWhile (· == '0') =
      List.replicate (cs.reverse.takeWhile (· == '0')).length '0' := by
    rw [List.eq_replicate_iff]
    refine ⟨rfl, fun c hc => ?_⟩
    exact beq_iff_eq.1 (List.mem_takeWhile_imp (p := (· == '0')) hc)
  have h := congrArg List.reverse
    (List.takeWhile_append_dropWhile (p := (· == '0')) (l := cs.reverse))
  rw [hzeros, List.reverse_append, List.reverse_replicate, List.reverse_reverse] at h
  exact h.symm

/-- Digits that are dropped are made up for by the exponent. -/
theorem magnitude_dropped {d : Decimal} {n k : ℕ} {e : ℤ} (hn : d.digits = 10 ^ k * n)
    (he : e = d.exponent + k) : (Decimal.mk d.negative n e).magnitude = d.magnitude := by
  rw [magnitude, magnitude, hn, he, zpow_add₀ (by norm_num), zpow_natCast]
  push_cast
  ring

/-- A decimal is written in its parts. -/
theorem scientific_parts (d : Decimal) : ∃ (whole fraction : List Char) (e : ℤ), whole ≠ [] ∧
    (∀ c ∈ whole, c.isDigit) ∧ (∀ c ∈ fraction, c.isDigit) ∧
    d.scientific.toList =
      signText d.negative ++ (whole ++ (fractionText fraction ++ 'e' :: (toString e).toList)) ∧
    (Decimal.mk d.negative (digitsValue 0 (whole ++ fraction)) (e - fraction.length)).magnitude =
      d.magnitude := by
  obtain ⟨k, hk⟩ := exists_dropTrailingZeros (Nat.toDigits 10 d.digits)
  have hdigits : ∀ c ∈ dropTrailingZeros (Nat.toDigits 10 d.digits), c.isDigit := fun c hc =>
    isDigit_toDigits d.digits c (by rw [hk]; simp [hc])
  have hvalue : d.digits =
      10 ^ k * digitsValue 0 (dropTrailingZeros (Nat.toDigits 10 d.digits)) := by
    rw [← digitsValue_replicate_zero, ← digitsValue_append, ← hk, digitsValue_toDigits]
  have hlength := congrArg List.length hk
  rw [List.length_append, List.length_replicate] at hlength
  have hsign : (if d.negative then "-" else "").toList = signText d.negative := by
    cases d.negative <;> rfl
  simp only [scientific, String.toList_append, hsign, String.toList_ofList]
  generalize dropTrailingZeros (Nat.toDigits 10 d.digits) = shown at hdigits hvalue hlength
  -- No digit, one digit without a point, or a point after the first digit.
  match shown with
  | [] =>
    refine ⟨['0'], [], 0, by simp, List.all_eq_true.1 rfl, by simp, by simp [fractionText], ?_⟩
    rw [magnitude, magnitude, hvalue]
    simp [digitsValue]
  | [c] =>
    refine ⟨[c], [], d.exponent + ((Nat.toDigits 10 d.digits).length - 1 : ℕ), by simp,
      by simpa using hdigits, by simp, ?_, ?_⟩
    · simp only [fractionText, if_true, List.append_assoc]
      rfl
    · refine magnitude_dropped hvalue ?_
      simp only [List.length_cons, List.length_nil] at hlength ⊢
      omega
  | c :: c' :: cs =>
    refine ⟨[c], c' :: cs, d.exponent + ((Nat.toDigits 10 d.digits).length - 1 : ℕ), by simp,
      ?_, ?_, ?_, ?_⟩
    · exact fun x hx => hdigits x (List.mem_cons.2 (.inl (List.mem_singleton.1 hx)))
    · exact fun x hx => hdigits x (List.mem_cons_of_mem _ hx)
    · simp only [fractionText, List.append_assoc]
      rfl
    · refine magnitude_dropped hvalue ?_
      simp only [List.length_cons] at hlength ⊢
      omega

/-- A written decimal is read as a decimal of the same sign and magnitude. -/
theorem ofLiteral?_scientific (d : Decimal) : ∃ d', ofLiteral? d.scientific.toList = some d' ∧
    d'.negative = d.negative ∧ d'.magnitude = d.magnitude := by
  obtain ⟨whole, fraction, e, hne, hw, hf, htext, hmag⟩ := scientific_parts d
  have hread := ofLiteral?_parts d.negative hne hw hf (exponentPart?_toString e)
  rw [← htext] at hread
  exact ⟨_, hread, rfl, hmag⟩

/-- A written decimal is no whole number. -/
theorem integerLiteral?_scientific (d : Decimal) : integerLiteral? d.scientific.toList = none := by
  obtain ⟨whole, fraction, e, hne, hw, hf, htext, -⟩ := scientific_parts d
  rw [htext, integerLiteral?_parts d.negative hne hw ⟨'e', by simp, by decide⟩]

end Decimal

end MathProgram

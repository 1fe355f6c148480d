import Mathlib.Algebra.BigOperators.Group.List.Basic
import Mathlib.Algebra.Order.Ring.Defs
import Mathlib.Order.WithBot
import MathProgram.Proofs.Expr.Values
import MathProgram.Relation

/-!
# What a constraint means

In exact arithmetic, that is over any ordered ring, an expression has a value where the columns have
values, and a bound is read as infinite from the threshold on. A row that states a constraint is
satisfied exactly where the constraint holds as it was written (`holds_statedRow?`,
`holds_rowBetween`), provided that a bound which was finite is still so after the constants were
moved to it. Merging the terms of the row does not matter (`Terms.value_purge`).
-/

namespace MathProgram

variable {k : Kind} {α : Type}

/-! ## Values -/

section

variable [CommRing α] {x : ℕ → α}

/-- The value of terms, where `x` gives the values by index. -/
def Terms.value (x : ℕ → α) (ts : Terms k α) : α := (ts.map fun t => t.2 * x t.1.index).sum

/-- The value of an expression. -/
def LinearExpr.value (x : ℕ → α) (e : LinearExpr α) : α := e.terms.value x + e.constant

namespace Terms

variable {t : Handle k × α} {ts us : Terms k α}

/-- It is the value under the assignment of these values to the columns of all models. -/
theorem value_eq_eval : ts.value x = ts.eval fun _ _ j => x j := rfl

@[simp] theorem value_nil : value x ([] : Terms k α) = 0 := rfl

@[simp] theorem value_cons : value x (t :: ts) = t.2 * x t.1.index + ts.value x := by
  rw [value, List.map_cons, List.sum_cons, value]

@[simp] theorem value_append : value x (ts ++ us) = ts.value x + us.value x := by
  rw [value_eq_eval, eval_append, value_eq_eval, value_eq_eval]

/-- The value of multiplied terms. -/
theorem value_scale (c : α) : (scale c ts).value x = c * ts.value x := by
  rw [value_eq_eval, eval_scale, value_eq_eval]

/-- Merging keeps the value. -/
theorem value_purge : ts.purge.value x = ts.value x := by
  rw [value_eq_eval, eval_purge, value_eq_eval]

end Terms

namespace LinearExpr

variable {e o : LinearExpr α}

@[simp] theorem value_ofVar (y : Var) : (ofVar y : LinearExpr α).value x = x y.index := by
  simp [value, ofVar, ofTerm]

/-- The parts of a difference. -/
theorem subtract_eq [Nontrivial α] [BEq α] [LawfulBEq α] (e o : LinearExpr α) : e.subtract o =
    ⟨e.terms ++ Terms.scale (-1) o.terms, e.constant - o.constant⟩ := by
  have hone : ((-1 : α) == 0) = false := by simp
  rw [subtract, multAdd, hone, Terms.multAdd, hone]
  simp [sub_eq_add_neg]

/-- The value of a difference. -/
theorem value_subtract [Nontrivial α] [BEq α] [LawfulBEq α] :
    (e.subtract o).value x = e.value x - o.value x := by
  rw [subtract_eq, value, Terms.value_append, Terms.value_scale, value, value]
  ring

end LinearExpr

end

/-! ## Bounds as they are read -/

/-- Numbers with the two infinities. -/
abbrev Extended (α : Type) : Type := WithBot (WithTop α)

/-- A number among those with the infinities. -/
def finite (v : α) : Extended α := ((v : WithTop α) : WithBot (WithTop α))

/-- The two sides are in the relation. -/
def Sense.Holds {β : Type} [LE β] (a b : β) : Sense → Prop
  | lessEqual => a ≤ b
  | equal => a = b
  | greaterEqual => b ≤ a

/-- The sides may change places. -/
theorem Sense.holds_inverse {β : Type} [LE β] {a b : β} (sense : Sense) :
    sense.inverse.Holds a b ↔ sense.Holds b a := by
  cases sense with
  | lessEqual | greaterEqual => exact Iff.rfl
  | equal => exact eq_comm

section

variable [LinearOrder α] {v w : α}

@[simp] theorem finite_le_finite : finite v ≤ finite w ↔ v ≤ w := by
  rw [finite, finite, WithBot.coe_le_coe, WithTop.coe_le_coe]

@[simp] theorem finite_inj : finite v = finite w ↔ v = w := by
  rw [le_antisymm_iff, finite_le_finite, finite_le_finite, le_antisymm_iff]

theorem bot_lt_finite : ⊥ < finite v := WithBot.bot_lt_coe _

theorem finite_lt_top : finite v < ⊤ := WithBot.coe_lt_coe.2 (WithTop.coe_lt_top v)

namespace Sense

/-- Finite numbers are in the relation as they are. -/
theorem holds_finite (sense : Sense) : sense.Holds (finite v) (finite w) ↔ sense.Holds v w := by
  cases sense with
  | lessEqual | greaterEqual => exact finite_le_finite
  | equal => exact finite_inj

/-- How a number compares with an infinity does not depend on the number. -/
theorem holds_infinite {b : Extended α} (hb : b = ⊤ ∨ b = ⊥) (sense : Sense) :
    sense.Holds (finite v) b ↔ sense.Holds (finite w) b := by
  obtain rfl | rfl := hb <;> cases sense <;>
    simp [Holds, bot_lt_finite.ne', finite_lt_top.ne, bot_lt_finite.not_ge, finite_lt_top.not_ge]

end Sense

variable [Neg α] [Unbounded α] {b : α}

/-- A bound as it is read in exact arithmetic: as bounds of doubles are passed on (`toIeeeBound`),
with the infinities themselves. -/
def readBound (b : α) : Extended α := boundIn ⊤ ⊥ finite b

theorem isFinite_iff : isFinite b = true ↔ -infinity < b ∧ b < infinity := by
  rw [isFinite, Bool.and_eq_true, decide_eq_true_iff, decide_eq_true_iff]

/-- A finite bound is read as it is. -/
theorem readBound_of_isFinite (h : isFinite b = true) : readBound b = finite b := by
  obtain ⟨hlow, hhigh⟩ := isFinite_iff.1 h
  rw [readBound, boundIn, if_neg hhigh.not_ge, if_neg hlow.not_ge]

/-- Any other bound is read as an infinity. -/
theorem readBound_of_not_isFinite (h : ¬isFinite b = true) : readBound b = ⊤ ∨ readBound b = ⊥ := by
  rw [isFinite_iff, not_and_or, not_lt, not_lt] at h
  rw [readBound, boundIn]
  split_ifs with hhigh hlow
  · exact .inl rfl
  · exact .inr rfl
  · exact absurd h (not_or.2 ⟨hlow, hhigh⟩)

end

/-! ## Rows -/

variable [CommRing α] [LinearOrder α] [IsStrictOrderedRing α] [Unbounded α] {x : ℕ → α}

/-- A row, with its terms merged as it is added, is satisfied where its value is between its bounds
as they are read. -/
def StatedRow.Holds (x : ℕ → α) (row : StatedRow α) : Prop :=
  readBound row.lower ≤ finite (row.expr.purge.terms.value x) ∧
    finite (row.expr.purge.terms.value x) ≤ readBound row.upper

/-- A finite bound is still so after a constant was moved to it. -/
def StaysFinite (b c : α) : Prop := isFinite b = true → isFinite (b - c) = true

/-- In the same way for what is on the two sides of a constraint. Of two sides that are no constants
the difference is compared with zero, to which the constants are moved. -/
def Side.StayFinite : Side α → Side α → Prop
  | const b, r => StaysFinite b r.toExpr.constant
  | l, const b => StaysFinite b l.toExpr.constant
  | l, r => isFinite (r.toExpr.constant - l.toExpr.constant) = true

/-- The value of a side; a constant is read as a bound. -/
def Side.value (x : ℕ → α) : Side α → Extended α
  | expr e => finite (e.value x)
  | var y => finite (x y.index)
  | const b => readBound b

section

variable {b c v : α} {e : LinearExpr α}

/-- Where a constant is moved to a bound, the value moves with it. -/
theorem holds_movedBound (hb : StaysFinite b c) (sense : Sense) :
    sense.Holds (finite v) (readBound (movedBound b c)) ↔
      sense.Holds (finite (v + c)) (readBound b) := by
  rw [movedBound]
  split_ifs with hfinite
  · rw [readBound_of_isFinite (hb hfinite), readBound_of_isFinite hfinite, Sense.holds_finite,
      Sense.holds_finite]
    cases sense with
    | lessEqual => exact le_sub_iff_add_le
    | equal => exact eq_sub_iff_add_eq
    | greaterEqual => exact sub_le_iff_le_add
  · exact Sense.holds_infinite (readBound_of_not_isFinite hfinite) sense

/-- The bounds of a sense say just what the sense says. -/
theorem holds_bounds (hinf : 0 < (infinity : α)) (sense : Sense) :
    readBound (sense.bounds b).1 ≤ finite v ∧ finite v ≤ readBound (sense.bounds b).2 ↔
      sense.Holds (finite v) (readBound b) := by
  have hlow : readBound (-infinity : α) = ⊥ := by
    rw [readBound, boundIn, if_neg (neg_lt_self hinf).not_ge, if_pos le_rfl]
  have hhigh : readBound (infinity : α) = ⊤ := if_pos le_rfl
  cases sense with
  | lessEqual =>
    rw [Sense.bounds, hlow]
    exact and_iff_right bot_le
  | equal => exact and_comm.trans le_antisymm_iff.symm
  | greaterEqual =>
    rw [Sense.bounds, hhigh]
    exact and_iff_left le_top

/-- A row that states a relation to a number. -/
theorem holds_rowAgainst (hinf : 0 < (infinity : α)) (sense : Sense)
    (hb : StaysFinite b e.constant) :
    (rowAgainst e sense b).Holds x ↔ sense.Holds (finite (e.value x)) (readBound b) := by
  have hvalue : (rowAgainst e sense b).expr.purge.terms.value x = e.terms.value x :=
    Terms.value_purge
  rw [StatedRow.Holds, hvalue, LinearExpr.value, ← holds_movedBound hb]
  exact holds_bounds hinf sense

/-- A row that states a range. -/
theorem holds_rowBetween {lower upper : α} (hlower : StaysFinite lower e.constant)
    (hupper : StaysFinite upper e.constant) : (rowBetween e lower upper).Holds x ↔
      readBound lower ≤ finite (e.value x) ∧ finite (e.value x) ≤ readBound upper := by
  have hvalue : (rowBetween e lower upper).expr.purge.terms.value x = e.terms.value x :=
    Terms.value_purge
  rw [StatedRow.Holds, hvalue, LinearExpr.value]
  exact and_congr (holds_movedBound hlower .greaterEqual) (holds_movedBound hupper .lessEqual)

/-- A difference of two finite numbers may be taken the other way round. -/
theorem isFinite_sub_comm : isFinite (b - c) = true ↔ isFinite (c - b) = true := by
  rw [isFinite_iff, isFinite_iff, ← neg_sub b c, neg_lt_neg_iff, neg_lt, and_comm]

section

variable [BEq α] [LawfulBEq α]

/-- A row that states a relation between two expressions. -/
theorem holds_difference (hinf : 0 < (infinity : α)) (sense : Sense) {o : LinearExpr α}
    (hb : isFinite (o.constant - e.constant) = true) :
    (rowAgainst (e.subtract o) sense 0).Holds x ↔
      sense.Holds (finite (e.value x)) (finite (o.value x)) := by
  have hzero : isFinite (0 : α) = true := isFinite_iff.2 ⟨neg_lt_zero.2 hinf, hinf⟩
  have hstays : StaysFinite 0 (e.subtract o).constant := fun _ => by
    rwa [LinearExpr.subtract_eq, zero_sub, neg_sub]
  rw [holds_rowAgainst hinf sense hstays, readBound_of_isFinite hzero, Sense.holds_finite,
    Sense.holds_finite, LinearExpr.value_subtract]
  cases sense with
  | lessEqual => exact sub_nonpos
  | equal => exact sub_eq_zero
  | greaterEqual => exact sub_nonneg

/-- A constraint is stated by a row unless both of its sides are constants. The row is satisfied
exactly where the constraint holds. -/
theorem holds_statedRow? (hinf : 0 < (infinity : α)) {left right : Side α} {sense : Sense}
    (hstay : left.StayFinite right) {row : StatedRow α}
    (hrow : statedRow? left sense right = some row) :
    row.Holds x ↔ sense.Holds (left.value x) (right.value x) := by
  have hvar (y : Var) :
      finite ((LinearExpr.ofVar y : LinearExpr α).value x) = finite (x y.index) := by
    rw [LinearExpr.value_ofVar]
  cases left with
  | const b =>
    rw [← sense.holds_inverse]
    cases right with
    | const c => cases hrow
    | expr e =>
      obtain rfl := Option.some.inj hrow
      exact holds_rowAgainst hinf sense.inverse hstay
    | var y =>
      obtain rfl := Option.some.inj hrow
      rw [Side.value, Side.value, ← hvar]
      exact holds_rowAgainst hinf sense.inverse hstay
  | expr e =>
    cases right with
    | const b =>
      obtain rfl := Option.some.inj hrow
      exact holds_rowAgainst hinf sense hstay
    | expr o =>
      obtain rfl := Option.some.inj hrow
      exact holds_difference hinf sense hstay
    | var y =>
      obtain rfl := Option.some.inj hrow
      rw [Side.value, Side.value, ← hvar]
      exact holds_difference hinf sense hstay
  | var y =>
    cases right with
    | const b =>
      obtain rfl := Option.some.inj hrow
      rw [Side.value, Side.value, ← hvar]
      exact holds_rowAgainst hinf sense hstay
    | expr o =>
      -- The variable is subtracted from the expression, so the sides have changed places.
      obtain rfl := Option.some.inj hrow
      rw [Side.value, Side.value, ← hvar, ← sense.holds_inverse]
      exact holds_difference hinf sense.inverse (isFinite_sub_comm.1 hstay)
    | var z =>
      obtain rfl := Option.some.inj hrow
      rw [Side.value, Side.value, ← hvar, ← hvar]
      exact holds_difference hinf sense hstay

end

end

/-- Just two constants are not stated by a row. -/
theorem statedRow?_eq_none_iff {α : Type} [Unbounded α] [LT α] [DecidableLT α] [Add α] [Sub α]
    [Mul α] [Neg α] [BEq α] [OfNat α 0] [OfNat α 1] {left right : Side α} {sense : Sense} :
    statedRow? left sense right = none ↔ ∃ a b, left = .const a ∧ right = .const b := by
  cases left <;> cases right <;> simp [statedRow?]

end MathProgram

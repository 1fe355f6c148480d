import MathProgram.Bound
import MathProgram.Expr.Linear

/-!
# Constraints as they are written

A constraint is written as two sides and a sense; a side is an expression, a variable or a
constant. `statedRow?` gives the row that states it: an expression without its constant between
two row bounds. A constant side becomes the bound, less the expression's constant if it is finite;
of two other sides the difference is compared with zero.
-/

namespace MathProgram

/-- One side of a constraint. -/
inductive Side (α : Type) where
  | expr (e : LinearExpr α)
  | var (x : Var)
  | const (c : α)

/-- The expression of a side. -/
def Side.toExpr {α : Type} [OfNat α 0] [OfNat α 1] : Side α → LinearExpr α
  | .expr e => e
  | .var x => .ofVar x
  | .const c => .ofConstant c

/-- A row to be added: the terms of an expression between two bounds. The constant of the
expression plays no part any more. -/
structure StatedRow (α : Type) where
  lower : α
  upper : α
  expr : LinearExpr α
  deriving Repr

section

variable {α : Type} [Unbounded α] [LT α] [DecidableLT α] [Add α] [Sub α] [Mul α] [Neg α] [BEq α]
  [OfNat α 0] [OfNat α 1]

/-- A bound less the constant of the expression it is for; an infinite bound stays as it is. -/
def movedBound (bound constant : α) : α := if isFinite bound then bound - constant else bound

/-- The row that states `e sense b`. -/
def rowAgainst (e : LinearExpr α) (sense : Sense) (b : α) : StatedRow α :=
  let (lower, upper) := sense.bounds (movedBound b e.constant)
  ⟨lower, upper, e⟩

/-- The row that states `lower ≤ e ≤ upper`. -/
def rowBetween (e : LinearExpr α) (lower upper : α) : StatedRow α :=
  ⟨movedBound lower e.constant, movedBound upper e.constant, e⟩

/-- The row that states `left sense right`, if not both sides are constants. With a constant on
the left the sides change places, and so do a variable on the left and an expression on the
right. -/
def statedRow? (left : Side α) (sense : Sense) (right : Side α) : Option (StatedRow α) :=
  match left, right with
  | .const _, .const _ => none
  | .var x, .expr e => some (rowAgainst (e.subtract (.ofVar x)) sense.inverse 0)
  | .const b, r => some (rowAgainst r.toExpr sense.inverse b)
  | l, .const b => some (rowAgainst l.toExpr sense b)
  | l, r => some (rowAgainst (l.toExpr.subtract r.toExpr) sense 0)

end

end MathProgram

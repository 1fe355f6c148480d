import Mathlib.Tactic.Ring
import MathProgram.Expr.Column
import MathProgram.Expr.Quadratic
import MathProgram.Proofs.Expr.Purge

/-!
# The values of expressions

An `Assignment` gives a value to every variable and every constraint of every model. In exact
arithmetic, that is over any commutative ring, a sum of terms has a value under it: the total of the
coefficients, each multiplied by what its handle names or by what the two handles of a pair name.
The generation of a handle is no part of what it names, so handles that count as the same have the
same value. `eval` is the value of terms, of linear and quadratic expressions and of columns.
-/

namespace MathProgram

variable {k : Kind} {α : Type}

/-- Values for the variables and the constraints of all models, by model and index. -/
abbrev Assignment (α : Type) := Kind → ModelId → ℕ → α

/-- The value of what a handle names. -/
def Handle.value (ρ : Assignment α) (x : Handle k) : α := ρ k x.model x.index

/-- Handles at one place have the same value. -/
theorem Handle.value_congr {ρ : Assignment α} {x y : Handle k} (h : x.place = y.place) :
    x.value ρ = y.value ρ := by
  obtain ⟨hmodel, hindex⟩ := same_iff.1 (same_iff_place.2 h)
  rw [value, value, hmodel, hindex]

variable [CommRing α] {ρ : Assignment α}

namespace Merging

variable {β : Type} {w : β → α} {ts : List (β × α)} {c : α}

/-- Where the coefficients are multiplied from the left, the total is. -/
theorem total_map_mul_left (c : α) (ts : List (β × α)) :
    total w (ts.map fun t => (t.1, c * t.2)) = c * total w ts := by
  induction ts with
  | nil => exact (mul_zero c).symm
  | cons t ts ih =>
    rw [List.map_cons, total_cons, ih, total_cons]
    ring

/-- Where the coefficients are multiplied from the right, the total is. -/
theorem total_map_mul_right (c : α) (ts : List (β × α)) :
    total w (ts.map fun t => (t.1, t.2 * c)) = total w ts * c := by
  simp only [mul_comm _ c, total_map_mul_left]

/-- Where the coefficients change their signs, the total does. -/
theorem total_map_neg (ts : List (β × α)) :
    total w (ts.map fun t => (t.1, -t.2)) = -total w ts := by
  simpa only [neg_one_mul] using total_map_mul_left (w := w) (-1) ts

end Merging

open Merging

/-- The value of terms. -/
def Terms.eval (ρ : Assignment α) (ts : Terms k α) : α := total (Handle.value ρ) ts

/-- The value of a linear expression. -/
def LinearExpr.eval (ρ : Assignment α) (e : LinearExpr α) : α := e.terms.eval ρ + e.constant

/-- The value of a column. -/
def Column.eval (ρ : Assignment α) (a : Column α) : α := a.terms.eval ρ

/-- The value of the product of two variables. -/
def QuadTerm.pairValue (ρ : Assignment α) (p : Var × Var) : α := p.1.value ρ * p.2.value ρ

/-- The value of quadratic terms. -/
def QuadTerm.eval (ρ : Assignment α) (ts : List (QuadTerm α)) : α := total (pairValue ρ) ts

/-- The value of a quadratic expression. -/
def QuadExpr.eval (ρ : Assignment α) (q : QuadExpr α) : α :=
  QuadTerm.eval ρ q.quad + q.linear.eval ρ

namespace Terms

variable {t : Handle k × α} {ts us : Terms k α}

@[simp] theorem eval_nil : eval ρ ([] : Terms k α) = 0 := total_nil

@[simp] theorem eval_cons : eval ρ (t :: ts) = t.2 * t.1.value ρ + ts.eval ρ := total_cons

@[simp] theorem eval_append : eval ρ (ts ++ us) = ts.eval ρ + us.eval ρ := total_append

/-- The value of multiplied terms. -/
theorem eval_scale (c : α) (ts : Terms k α) : (scale c ts).eval ρ = c * ts.eval ρ :=
  total_map_mul_left c ts

/-- Merging keeps the value. -/
theorem eval_purge (ts : Terms k α) : ts.purge.eval ρ = ts.eval ρ := by
  rw [purge_eq_collect, eval, total_collect fun _ _ => Handle.value_congr, eval]

/-- Appending a multiple adds it to the value. -/
theorem eval_multAdd [DecidableEq α] (ts : Terms k α) (c : α) (us : Terms k α) :
    (ts.multAdd c us).eval ρ = ts.eval ρ + c * us.eval ρ := by
  rw [multAdd]
  split
  · rename_i hzero
    rw [beq_iff_eq.1 hzero, zero_mul, add_zero]
  · rw [eval_append, eval_scale]

end Terms

/-- Merging a linear expression keeps the value. -/
theorem LinearExpr.eval_purge (e : LinearExpr α) : e.purge.eval ρ = e.eval ρ := by
  rw [eval, purge, Terms.eval_purge, eval]

/-- Merging a column keeps the value. -/
theorem Column.eval_purge (a : Column α) : a.purge.eval ρ = a.eval ρ := Terms.eval_purge a.terms

end MathProgram

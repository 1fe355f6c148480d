import MathProgram.Expr.Column
import MathProgram.Expr.Quadratic

/-!
# Appending terms in place

The calls that append terms to an expression give the longer expression or an error. Here they are
spelled out as they run on an expression in place: the lengths of the lists are checked, and then
the terms are appended one by one.
-/

namespace MathProgram

/-- A computation that changes something in place and may be left with an error. -/
abbrev InPlace (ε : Type) := ExceptT Error (StateM ε)

namespace InPlace

variable {ε : Type}

/-- Runs a change in place: how it ends, and what is there then. -/
def exec (p : InPlace ε Unit) (e : ε) : Except Error Unit × ε := p.run e

/-- Goes on if a check succeeds. -/
def check (r : Except Error Unit) : InPlace ε Unit := MonadExcept.ofExcept r

end InPlace

variable {α : Type}

/-- The check of a range of terms. -/
def checkTermRange (start len available : Nat) : Except Error Unit :=
  match rangeEnd? start len with
  | none => .error (.invalidArgument (.termRangeOverflow start len))
  | some stop =>
    if available < stop then .error (.lengthMismatch .termRange stop available) else .ok ()

namespace LinearExpr

/-- Appends terms pairwise, in place. -/
def pushTerms (coefs : List α) (xs : List Var) : InPlace (LinearExpr α) Unit := do
  InPlace.check (checkLength .coefficientsAndVariables coefs.length xs.length)
  (xs.zip coefs).forM fun t => modify (·.addTerm t.2 t.1)

/-- Appends a range of terms, in place. -/
def pushTermsRange (coefs : List α) (xs : List Var) (start len : Nat) :
    InPlace (LinearExpr α) Unit := do
  InPlace.check (checkTermRange start len (min coefs.length xs.length))
  pushTerms ((coefs.drop start).take len) ((xs.drop start).take len)

end LinearExpr

/-- Appends terms pairwise to a column, in place. -/
def Column.pushTerms (coefs : List α) (rs : List Cons) : InPlace (Column α) Unit := do
  InPlace.check (checkLength .coefficientsAndConstraints coefs.length rs.length)
  (rs.zip coefs).forM fun t => modify (·.addTerm t.2 t.1)

namespace QuadExpr

/-- Appends linear terms pairwise, in place. -/
def pushTerms (coefs : List α) (xs : List Var) : InPlace (QuadExpr α) Unit := do
  InPlace.check (checkLength .coefficientsAndVariables coefs.length xs.length)
  (xs.zip coefs).forM fun t => modify (·.mapLinear (·.addTerm t.2 t.1))

/-- Appends products from three lists, in place. -/
def pushQuadTerms (coefs : List α) (xs ys : List Var) : InPlace (QuadExpr α) Unit := do
  InPlace.check (checkLength .coefficientsAndFirstVariables coefs.length xs.length)
  InPlace.check (checkLength .coefficientsAndSecondVariables coefs.length ys.length)
  ((xs.zip ys).zip coefs).forM fun t => modify (·.addQuadTerm t.2 t.1.1 t.1.2)

end QuadExpr

end MathProgram

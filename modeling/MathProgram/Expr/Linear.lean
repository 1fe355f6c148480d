import MathProgram.Error
import MathProgram.Expr.Terms

/-!
# Linear expressions

A sum of terms over variables plus a constant. The operations are those of the arithmetic of such
sums; none of them merges terms but `purge`. Multiplying by zero in `multAdd` does nothing at all,
while the scaling operator multiplies every coefficient whatever the factor.
-/

namespace MathProgram

/-- A linear expression `Σ cᵢ xᵢ + constant`. -/
structure LinearExpr (α : Type) where
  terms : Terms .variable α
  constant : α
  deriving Repr

namespace LinearExpr

variable {α : Type}

/-- The expression of a constant. -/
def ofConstant (c : α) : LinearExpr α := ⟨[], c⟩

/-- The empty expression. -/
def empty [OfNat α 0] : LinearExpr α := ofConstant 0

instance [OfNat α 0] : Inhabited (LinearExpr α) := ⟨empty⟩

/-- The expression of a variable with a coefficient. -/
def ofTerm [OfNat α 0] (c : α) (x : Var) : LinearExpr α := ⟨[(x, c)], 0⟩

/-- The expression of a variable. -/
def ofVar [OfNat α 0] [OfNat α 1] (x : Var) : LinearExpr α := ofTerm 1 x

/-! ## Building -/

/-- Appends a term. -/
def addTerm (e : LinearExpr α) (c : α) (x : Var) : LinearExpr α :=
  { e with terms := e.terms ++ [(x, c)] }

/-- Appends terms pairwise from coefficients and variables, which have to be equally many. -/
def addTerms (e : LinearExpr α) (coefs : List α) (xs : List Var) :
    Except Error (LinearExpr α) := do
  checkLength .coefficientsAndVariables coefs.length xs.length
  return { e with terms := e.terms ++ Terms.ofLists coefs xs }

/-- Appends `len` terms from position `start` on of coefficients and variables. -/
def addTermsRange (e : LinearExpr α) (coefs : List α) (xs : List Var) (start len : Nat) :
    Except Error (LinearExpr α) :=
  let available := min coefs.length xs.length
  match rangeEnd? start len with
  | none => .error (.invalidArgument (.termRangeOverflow start len))
  | some stop =>
    if available < stop then .error (.lengthMismatch .termRange stop available)
    else e.addTerms ((coefs.drop start).take len) ((xs.drop start).take len)

/-- Adds `c` times another expression, the constant included; a zero `c` changes nothing. -/
def multAdd [Add α] [Mul α] [BEq α] [OfNat α 0] (e : LinearExpr α) (c : α) (o : LinearExpr α) :
    LinearExpr α :=
  if c == 0 then e
  else { terms := e.terms.multAdd c o.terms, constant := e.constant + c * o.constant }

/-- Adds another expression. -/
def add [Add α] [Mul α] [BEq α] [OfNat α 0] [OfNat α 1] (e o : LinearExpr α) : LinearExpr α :=
  e.multAdd 1 o

/-- Subtracts another expression. -/
def subtract [Add α] [Mul α] [Neg α] [BEq α] [OfNat α 0] [OfNat α 1] (e o : LinearExpr α) :
    LinearExpr α :=
  e.multAdd (-1) o

/-- Adds to the constant. -/
def addConstant [Add α] (e : LinearExpr α) (c : α) : LinearExpr α :=
  { e with constant := e.constant + c }

/-- Sorts the terms by variable and adds up those for the same variable. -/
def purge [Add α] (e : LinearExpr α) : LinearExpr α := { e with terms := e.terms.purge }

/-- Removes the terms for a variable, and says whether there were any. -/
def removeTerm (e : LinearExpr α) (x : Var) : Bool × LinearExpr α :=
  (e.terms.mentions x, { e with terms := e.terms.without x })

/-- Removes the term at a position and returns it. -/
def removeTermAt? (e : LinearExpr α) (i : Nat) : Option ((Var × α) × LinearExpr α) :=
  e.terms[i]?.map fun t => (t, { e with terms := e.terms.eraseIdx i })

/-! ## Reading -/

/-- The number of terms. -/
def length (e : LinearExpr α) : Nat := e.terms.length

/-- The variables of the terms, in order. -/
def vars (e : LinearExpr α) : List Var := e.terms.map (·.1)

/-- The coefficients of the terms, in order. -/
def coefs (e : LinearExpr α) : List α := e.terms.map (·.2)

/-- Equality term by term and of the constants. -/
def same [BEq α] (a b : LinearExpr α) : Bool := a.terms.same b.terms && a.constant == b.constant

/-- Compares two expressions up to the order and the merging of terms. Expressions with different
numbers of terms or different constants are unequal as they are; else both are purged first. The
result holds the answer and both operands as the comparison leaves them. -/
def equals [Add α] [BEq α] (a b : LinearExpr α) : Bool × LinearExpr α × LinearExpr α :=
  if a.length != b.length || a.constant != b.constant then (false, a, b)
  else (a.purge.terms.same b.purge.terms, a.purge, b.purge)

/-! ## Operators -/

/-- The expression with all signs changed. -/
def neg [Neg α] (e : LinearExpr α) : LinearExpr α :=
  { terms := e.terms.map fun t => (t.1, -t.2), constant := -e.constant }

/-- The expression with every coefficient multiplied by `c` from the right. -/
def scale [Mul α] (e : LinearExpr α) (c : α) : LinearExpr α :=
  { terms := e.terms.map fun t => (t.1, t.2 * c), constant := e.constant * c }

/-- The expression plus a variable. -/
def plusVar [OfNat α 1] (e : LinearExpr α) (x : Var) : LinearExpr α := e.addTerm 1 x

/-- The expression minus a variable. -/
def minusVar [Neg α] [OfNat α 1] (e : LinearExpr α) (x : Var) : LinearExpr α := e.addTerm (-1) x

/-- The expression minus a constant. -/
def minusConstant [Sub α] (e : LinearExpr α) (c : α) : LinearExpr α :=
  { e with constant := e.constant - c }

end LinearExpr

/-! Sums and differences that start with a variable. -/

namespace Var

variable {α : Type}

/-- Variable plus variable. -/
def plus [OfNat α 0] [OfNat α 1] (x y : Var) : LinearExpr α := ⟨[(x, 1), (y, 1)], 0⟩

/-- Variable minus variable. -/
def minus [Neg α] [OfNat α 0] [OfNat α 1] (x y : Var) : LinearExpr α := ⟨[(x, 1), (y, -1)], 0⟩

/-- Variable plus constant. -/
def plusConstant [OfNat α 1] (x : Var) (c : α) : LinearExpr α := ⟨[(x, 1)], c⟩

/-- Variable minus constant. -/
def minusConstant [Neg α] [OfNat α 1] (x : Var) (c : α) : LinearExpr α := ⟨[(x, 1)], -c⟩

/-- Variable plus expression: the variable's term comes last. -/
def plusExpr [OfNat α 1] (x : Var) (e : LinearExpr α) : LinearExpr α := e.plusVar x

/-- Variable minus expression: the variable's term comes last. -/
def minusExpr [Neg α] [OfNat α 1] (x : Var) (e : LinearExpr α) : LinearExpr α := e.neg.plusVar x

end Var

end MathProgram

import MathProgram.Error
import MathProgram.Expr.Terms

/-!
# Columns

The column of a variable in the constraint matrix: a sum of terms over constraints. It is what a
variable is added with and what is read back for one.
-/

namespace MathProgram

/-- A sum `Σ cᵢ rᵢ` over constraints. -/
structure Column (α : Type) where
  terms : Terms .constraint α
  deriving Repr

namespace Column

variable {α : Type}

/-- The empty column. -/
def empty : Column α := ⟨[]⟩

instance : Inhabited (Column α) := ⟨empty⟩

/-- Appends a term. -/
def addTerm (a : Column α) (c : α) (r : Cons) : Column α := ⟨a.terms ++ [(r, c)]⟩

/-- Appends terms pairwise from coefficients and constraints, which have to be equally many. -/
def addTerms (a : Column α) (coefs : List α) (rs : List Cons) : Except Error (Column α) := do
  checkLength .coefficientsAndConstraints coefs.length rs.length
  return ⟨a.terms ++ Terms.ofLists coefs rs⟩

/-- Adds `c` times another column; a zero `c` changes nothing. -/
def multAdd [Mul α] [BEq α] [OfNat α 0] (a : Column α) (c : α) (o : Column α) : Column α :=
  ⟨a.terms.multAdd c o.terms⟩

/-- Adds another column. -/
def add [Mul α] [BEq α] [OfNat α 0] [OfNat α 1] (a o : Column α) : Column α := a.multAdd 1 o

/-- Subtracts another column. -/
def subtract [Mul α] [Neg α] [BEq α] [OfNat α 0] [OfNat α 1] (a o : Column α) : Column α :=
  a.multAdd (-1) o

/-- Sorts the terms by constraint and adds up those for the same constraint. -/
def purge [Add α] (a : Column α) : Column α := ⟨a.terms.purge⟩

/-- Removes the terms for a constraint, and says whether there were any. -/
def removeTerm (a : Column α) (r : Cons) : Bool × Column α :=
  (a.terms.mentions r, ⟨a.terms.without r⟩)

/-- Removes the term at a position and returns it. -/
def removeTermAt? (a : Column α) (i : Nat) : Option ((Cons × α) × Column α) :=
  a.terms[i]?.map fun t => (t, ⟨a.terms.eraseIdx i⟩)

/-- The number of terms. -/
def length (a : Column α) : Nat := a.terms.length

/-- Equality term by term. -/
def same [BEq α] (a b : Column α) : Bool := a.terms.same b.terms

/-- Compares two columns up to the order and the merging of terms. Columns with different numbers
of terms are unequal as they are; else both are purged first. The result holds the answer and both
operands as the comparison leaves them. -/
def equals [Add α] [BEq α] (a b : Column α) : Bool × Column α × Column α :=
  if a.length != b.length then (false, a, b)
  else (a.purge.terms.same b.purge.terms, a.purge, b.purge)

end Column

end MathProgram

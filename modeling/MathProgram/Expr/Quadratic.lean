import MathProgram.Expr.Linear

/-!
# Quadratic expressions

A linear expression plus quadratic terms, each a pair of variables and a coefficient. The two
variables of a pair stand as they were given until `purge` puts the one with the smaller index
first, sorts the pairs, and adds up terms for the same pair.
-/

namespace MathProgram

/-- A quadratic term `c x y`. -/
abbrev QuadTerm (α : Type) := (Var × Var) × α

namespace QuadTerm

variable {α : Type}

/-- The term with the variable of the smaller index first. -/
def oriented (t : QuadTerm α) : QuadTerm α :=
  if t.1.2.index < t.1.1.index then ((t.1.2, t.1.1), t.2) else t

/-- The order in which purged terms stand: by the two indexes, then by the two models. -/
def keyLe (s t : QuadTerm α) : Bool :=
  let key (r : QuadTerm α) : List Nat :=
    [r.1.1.index, r.1.2.index, r.1.1.model, r.1.2.model]
  !(key t).lex (key s)

/-- Two pairs name the same variables in the same order. -/
def samePair (p q : Var × Var) : Bool := p.1.same q.1 && p.2.same q.2

/-- Adds up the terms at the front that are for the same pair as the term held, and goes on with
the next pair. -/
def mergeRunsFrom [Add α] (held : QuadTerm α) : List (QuadTerm α) → List (QuadTerm α)
  | [] => [held]
  | t :: ts =>
    if samePair held.1 t.1 then mergeRunsFrom (held.1, held.2 + t.2) ts
    else held :: mergeRunsFrom t ts

/-- Adds up neighbouring terms for the same pair. -/
def mergeRuns [Add α] : List (QuadTerm α) → List (QuadTerm α)
  | [] => []
  | t :: ts => mergeRunsFrom t ts

/-- Orients and sorts the terms, and adds up those for the same pair. -/
def purge [Add α] (ts : List (QuadTerm α)) : List (QuadTerm α) :=
  mergeRuns ((ts.map oriented).mergeSort keyLe)

/-- Equality term by term: the same pairs with equal coefficients. -/
def same [BEq α] : List (QuadTerm α) → List (QuadTerm α) → Bool
  | [], [] => true
  | s :: ss, t :: ts => samePair s.1 t.1 && s.2 == t.2 && same ss ts
  | _, _ => false

/-- The term is for the two variables, in either order. -/
def isFor (x y : Var) (t : QuadTerm α) : Bool := samePair t.1 (x, y) || samePair t.1 (y, x)

end QuadTerm

/-- A quadratic expression `Σ cₖ xₖ yₖ + linear`. -/
structure QuadExpr (α : Type) where
  linear : LinearExpr α
  quad : List (QuadTerm α)
  deriving Repr

namespace QuadExpr

variable {α : Type}

/-- The empty expression. -/
def empty [OfNat α 0] : QuadExpr α := ⟨.empty, []⟩

instance [OfNat α 0] : Inhabited (QuadExpr α) := ⟨empty⟩

/-- The quadratic expression of a linear one. -/
def ofLinear (e : LinearExpr α) : QuadExpr α := ⟨e, []⟩

/-- Changes the linear part. -/
def mapLinear (q : QuadExpr α) (f : LinearExpr α → LinearExpr α) : QuadExpr α :=
  { q with linear := f q.linear }

/-- Appends linear terms pairwise from coefficients and variables. -/
def addTerms (q : QuadExpr α) (coefs : List α) (xs : List Var) : Except Error (QuadExpr α) := do
  return { q with linear := ← q.linear.addTerms coefs xs }

/-- Appends a quadratic term. -/
def addQuadTerm (q : QuadExpr α) (c : α) (x y : Var) : QuadExpr α :=
  { q with quad := q.quad ++ [((x, y), c)] }

/-- Appends quadratic terms from three lists, which have to be equally long. -/
def addQuadTerms (q : QuadExpr α) (coefs : List α) (xs ys : List Var) :
    Except Error (QuadExpr α) := do
  checkLength .coefficientsAndFirstVariables coefs.length xs.length
  checkLength .coefficientsAndSecondVariables coefs.length ys.length
  return { q with quad := q.quad ++ (xs.zip ys).zip coefs }

/-- Purges the linear part and the quadratic terms. -/
def purge [Add α] (q : QuadExpr α) : QuadExpr α :=
  { linear := q.linear.purge, quad := QuadTerm.purge q.quad }

/-- Adds `c` times another expression, both parts of it; a zero `c` changes nothing. -/
def multAdd [Add α] [Mul α] [BEq α] [OfNat α 0] (q : QuadExpr α) (c : α) (o : QuadExpr α) :
    QuadExpr α :=
  if c == 0 then q
  else
    { linear := q.linear.multAdd c o.linear
      quad := q.quad ++ o.quad.map fun t => (t.1, c * t.2) }

/-- Adds another expression. -/
def add [Add α] [Mul α] [BEq α] [OfNat α 0] [OfNat α 1] (q o : QuadExpr α) : QuadExpr α :=
  q.multAdd 1 o

/-- Subtracts another expression. -/
def subtract [Add α] [Mul α] [Neg α] [BEq α] [OfNat α 0] [OfNat α 1] (q o : QuadExpr α) :
    QuadExpr α :=
  q.multAdd (-1) o

/-- Removes the linear terms for a variable, and says whether there were any. -/
def removeTerm (q : QuadExpr α) (x : Var) : Bool × QuadExpr α :=
  let (found, linear) := q.linear.removeTerm x
  (found, { q with linear })

/-- Removes the quadratic terms for two variables in either order, and says whether there were
any. -/
def removeQuadTerm (q : QuadExpr α) (x y : Var) : Bool × QuadExpr α :=
  (q.quad.any (QuadTerm.isFor x y),
    { q with quad := q.quad.filter fun t => !QuadTerm.isFor x y t })

/-- Removes the quadratic term at a position and returns it. -/
def removeQuadTermAt? (q : QuadExpr α) (i : Nat) : Option (QuadTerm α × QuadExpr α) :=
  q.quad[i]?.map fun t => (t, { q with quad := q.quad.eraseIdx i })

/-- The first variables of the quadratic terms, in order. -/
def vars1 (q : QuadExpr α) : List Var := q.quad.map (·.1.1)

/-- The second variables of the quadratic terms, in order. -/
def vars2 (q : QuadExpr α) : List Var := q.quad.map (·.1.2)

/-- The coefficients of the quadratic terms, in order. -/
def coefs (q : QuadExpr α) : List α := q.quad.map (·.2)

/-- Equality term by term, of both parts. -/
def same [BEq α] (a b : QuadExpr α) : Bool :=
  a.linear.same b.linear && QuadTerm.same a.quad b.quad

/-- Compares two expressions: the quadratic terms position by position as they stand, and then the
linear parts up to the order and the merging of terms. The result holds the answer and both
operands as the comparison leaves them. -/
def equals [Add α] [BEq α] (a b : QuadExpr α) : Bool × QuadExpr α × QuadExpr α :=
  if QuadTerm.same a.quad b.quad then
    let (answer, la, lb) := a.linear.equals b.linear
    (answer, { a with linear := la }, { b with linear := lb })
  else (false, a, b)

end QuadExpr

end MathProgram

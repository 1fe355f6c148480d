import MathProgram.Handle

/-!
# Terms

A list of terms, each a handle and a coefficient, stands for the sum of their products. Terms are
kept as they were added, so one handle may occur many times. `Terms.purge` sorts them by index and
model, keeping the order of terms for the same handle, and adds up neighbours for the same handle
from left to right; a sum of zero stays. The coefficients may be of any type with the operations
named.
-/

namespace MathProgram

/-- A sum of products of handles and coefficients. -/
abbrev Terms (k : Kind) (α : Type) := List (Handle k × α)

namespace Terms

variable {k : Kind} {α : Type}

/-- The order in which purged terms stand: by index, then by model. -/
def keyLe (s t : Handle k × α) : Bool :=
  s.1.index < t.1.index || (s.1.index == t.1.index && s.1.model ≤ t.1.model)

section

variable [Add α]

/-- Adds up the terms at the front that are for the same handle as the term held, and goes on with
the next handle. -/
def mergeRunsFrom (held : Handle k × α) : Terms k α → Terms k α
  | [] => [held]
  | t :: ts =>
    if held.1.same t.1 then mergeRunsFrom (held.1, held.2 + t.2) ts
    else held :: mergeRunsFrom t ts

/-- Adds up neighbouring terms for the same handle. -/
def mergeRuns : Terms k α → Terms k α
  | [] => []
  | t :: ts => mergeRunsFrom t ts

/-- Sorts the terms and adds up those for the same handle. -/
def purge (ts : Terms k α) : Terms k α := mergeRuns (ts.mergeSort keyLe)

end

/-- The terms multiplied by `c` from the left. -/
def scale [Mul α] (c : α) (ts : Terms k α) : Terms k α := ts.map fun t => (t.1, c * t.2)

/-- Appends the terms of another list multiplied by `c`; for a zero `c` nothing is appended. -/
def multAdd [Mul α] [BEq α] [OfNat α 0] (ts : Terms k α) (c : α) (other : Terms k α) :
    Terms k α :=
  if c == 0 then ts else ts ++ scale c other

/-- The terms that are not for a handle. -/
def without (h : Handle k) (ts : Terms k α) : Terms k α := ts.filter fun t => !t.1.same h

/-- Some term is for a handle. -/
def mentions (h : Handle k) (ts : Terms k α) : Bool := ts.any fun t => t.1.same h

/-- Equality term by term: the same handles with equal coefficients. -/
def same [BEq α] : Terms k α → Terms k α → Bool
  | [], [] => true
  | s :: ss, t :: ts => s.1.same t.1 && s.2 == t.2 && same ss ts
  | _, _ => false

/-- Pairs handles with coefficients. -/
def ofLists (coefs : List α) (handles : List (Handle k)) : Terms k α := handles.zip coefs

end Terms

end MathProgram

/-!
# Bounds and senses

Bounds at or beyond a threshold are infinite. `Unbounded` supplies the threshold for a type of
numbers; for doubles it is `1e20`. A sense is the relation of a constraint, and `Sense.bounds`
gives the row bounds that state it.
-/

namespace MathProgram

/-- Numbers with a threshold at and beyond which a bound is infinite. -/
class Unbounded (α : Type) where
  /-- The threshold. -/
  infinity : α

export Unbounded (infinity)

instance : Unbounded Float := ⟨1e20⟩

section

variable {α β : Type} [Unbounded α] [Neg α]

/-- The bound lies strictly between the two thresholds. -/
def isFinite [LT α] [DecidableLT α] (x : α) : Bool := -infinity < x && x < infinity

/-- A bound with what stands for the infinities and with a reading of what is finite: it is infinite
from the threshold on. -/
def boundIn [LE α] [DecidableLE α] (top bottom : β) (keep : α → β) (x : α) : β :=
  if infinity ≤ x then top else if x ≤ -infinity then bottom else keep x

end

/-- The bound with infinities of the arithmetic in place of all from the threshold on. -/
def toIeeeBound (x : Float) : Float := boundIn (1.0 / 0.0) (-1.0 / 0.0) id x

/-- The bound with the threshold in place of all beyond it. -/
def fromIeeeBound (x : Float) : Float := boundIn infinity (-infinity) id x

/-- The bound moved into the range between the thresholds. -/
def clampBound (x : Float) : Float :=
  if x < -infinity then -infinity else if infinity < x then infinity else x

/-- The relation between the two sides of a constraint. -/
inductive Sense where
  | lessEqual
  | equal
  | greaterEqual
  deriving DecidableEq, Repr

namespace Sense

/-- The sign of a relation. -/
def symbol : Sense → String
  | lessEqual => "<="
  | equal => "="
  | greaterEqual => ">="

/-- The sense after the two sides have changed places. -/
def inverse : Sense → Sense
  | lessEqual => greaterEqual
  | equal => equal
  | greaterEqual => lessEqual

/-- The row bounds that put an expression in this relation to `b`. -/
def bounds {α : Type} [Unbounded α] [Neg α] (b : α) : Sense → α × α
  | lessEqual => (-infinity, b)
  | equal => (b, b)
  | greaterEqual => (b, infinity)

end Sense

end MathProgram

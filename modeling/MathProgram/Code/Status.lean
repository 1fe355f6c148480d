/-!
# Status codes

What an engine knows about the problem after a solve (`Status`), where a submitted job stands
(`JobState`), how a variable or row sits in a basis (`BasisStatus`), and which of its bounds take
part in an irreducible infeasible subsystem (`IisBound`). Engines pass all but the job state as
32-bit numbers.
-/

namespace MathProgram

/-- What is known about the problem after a solve. -/
inductive Status where
  | unknown
  | optimal
  | infeasible
  | unbounded
  | infeasibleOrUnbounded
  | subOptimal
  deriving DecidableEq, Repr, Inhabited

namespace Status

/-- The number of a status. -/
def code : Status → Int32
  | unknown => 0
  | optimal => 1
  | infeasible => 2
  | unbounded => 3
  | infeasibleOrUnbounded => 4
  | subOptimal => 5

/-- The status of a number. -/
def ofCode? (n : Int32) : Option Status :=
  [unknown, optimal, infeasible, unbounded, infeasibleOrUnbounded, subOptimal].find?
    fun s => s.code == n

/-- The canonical name of a status. -/
def name : Status → String
  | unknown => "MDO_UNKNOWN"
  | optimal => "MDO_OPTIMAL"
  | infeasible => "MDO_INFEASIBLE"
  | unbounded => "MDO_UNBOUNDED"
  | infeasibleOrUnbounded => "MDO_INF_OR_UBD"
  | subOptimal => "MDO_SUB_OPTIMAL"

/-- What a status says. -/
def description : Status → String
  | unknown => "Model status is not available"
  | optimal =>
    "Model was proven to be primal/dual feasible, and an optimal solution is available"
  | infeasible => "Model was proven to be primal infeasible"
  | unbounded => "Model was proven to be primal unbounded"
  | infeasibleOrUnbounded =>
    "Model was proven to be either primal infeasible or primal unbounded"
  | subOptimal => "A sub-optimal solution is available"

/-- The text that explains a number, known or not. -/
def explain (n : Int32) : String :=
  match ofCode? n with
  | some s => s.description
  | none => "Unknown status code " ++ toString n.toInt

end Status

/-- Where a submitted job stands. -/
inductive JobState where
  | submitted
  | solving
  | canceled
  | finished
  | failed
  deriving DecidableEq, Repr

namespace JobState

/-- The word for a state. -/
def word : JobState → String
  | submitted => "Submitted"
  | solving => "Solving"
  | canceled => "Canceled"
  | finished => "Finished"
  | failed => "Failed"

/-- The state of a word. -/
def ofWord? (s : String) : Option JobState :=
  [submitted, solving, canceled, finished, failed].find? fun j => j.word == s

/-- The job will not change its state any more. -/
def isTerminal : JobState → Bool
  | submitted | solving => false
  | canceled | finished | failed => true

/-- The complaint about a text that is no state. -/
def unknownMessage (s : String) : String := "Unknown remote task status '" ++ s ++ "'"

end JobState

/-- How a variable or a row sits in a basis. -/
inductive BasisStatus where
  | isFree
  | basic
  | atUpper
  | atLower
  | superBasic
  | isFixed
  deriving DecidableEq, Repr

namespace BasisStatus

/-- The number of a basis status. -/
def code : BasisStatus → Int32
  | isFree => 0
  | basic => 1
  | atUpper => 2
  | atLower => 3
  | superBasic => 4
  | isFixed => 5

/-- The basis status of a number. -/
def ofCode? (n : Int32) : Option BasisStatus :=
  [isFree, basic, atUpper, atLower, superBasic, isFixed].find? fun b => b.code == n

end BasisStatus

/-- Which bounds of a row or a column take part in an irreducible infeasible subsystem. -/
inductive IisBound where
  | none
  | upper
  | lower
  | both
  deriving DecidableEq, Repr

namespace IisBound

/-- The number of a membership. -/
def code : IisBound → Int32
  | none => 0
  | upper => 2
  | lower => 3
  | both => 5

/-- The membership of a number. -/
def ofCode? (n : Int32) : Option IisBound :=
  [none, upper, lower, both].find? fun b => b.code == n

/-- The membership of a pair of bounds. -/
def ofSides (lower upper : Bool) : IisBound :=
  match lower, upper with
  | false, false => .none
  | false, true => .upper
  | true, false => .lower
  | true, true => .both

end IisBound

end MathProgram

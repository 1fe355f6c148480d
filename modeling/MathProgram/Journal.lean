import MathProgram.Handle

/-!
# The journal

What the library shows of its work while it runs: trace events, messages for log callbacks, and
text on the console.
-/

namespace MathProgram

/-- How important an event is. -/
inductive Level where
  | trace
  | debug
  | warn
  deriving DecidableEq, Repr

/-- The part of the library that an event comes from. -/
inductive Origin where
  | model
  | modelFiles
  | environment
  | solver
  | solverLink
  | solverIis
  deriving DecidableEq, Repr

/-- The value of a field of an event. -/
inductive FieldValue where
  | int (i : Int)
  | bool (b : Bool)
  | real (x : Float)
  | text (s : String)
  deriving Repr

/-- A trace event. -/
structure Event where
  level : Level
  origin : Origin
  message : String
  fields : List (String × FieldValue)
  deriving Repr

/-- What was shown, each in order. -/
structure Journal where
  events : Array Event := #[]
  messages : Array String := #[]
  console : String := ""
  deriving Repr, Inhabited

namespace Journal

/-- Adds an event. -/
def record (j : Journal) (e : Event) : Journal := { j with events := j.events.push e }

end Journal

end MathProgram

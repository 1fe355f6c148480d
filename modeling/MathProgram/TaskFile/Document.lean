import MathProgram.Bound
import MathProgram.Json.Printer
import MathProgram.Store.Basic

/-!
# Task documents

A task file is one JSON object that names its format and version and holds up to three sections:
the problem, the parameters, and the solution of a store. Infinite bounds are written as the
threshold, and the values of the columns as `null` when there is no solution.
-/

namespace MathProgram

/-- A choice of the sections of a task file. -/
structure Sections where
  model : Bool
  param : Bool
  soln : Bool
  deriving DecidableEq, Repr

namespace TaskFile

/-- The name of the format. -/
def format : String := "mdotask"

/-- The version of the format. -/
def version : Int64 := 1

/-- A name, or `null` for none. -/
def nameNode : Option String → Json
  | some name => .text name
  | none => .null

/-- An array of indexes. -/
def indexesNode (is : List Nat) : Json := .ints (is.map Int64.ofNat)

/-- An array of numbers of 32 bits. -/
def codesNode (cs : List Int32) : Json := .ints (cs.map Int32.toInt64)

/-- A column. -/
def colNode (c : ColData) : Json :=
  .obj
    [("lb", .num (clampBound c.lb)),
     ("ub", .num (clampBound c.ub)),
     ("obj", .num c.obj),
     ("int", .bool c.isInteger),
     ("name", nameNode c.name)]

/-- A row. -/
def rowNode (r : RowData) : Json :=
  .obj
    [("lhs", .num (clampBound r.lhs)),
     ("rhs", .num (clampBound r.rhs)),
     ("name", nameNode r.name)]

/-- A list of entries, as three arrays of which the first two have the given names. -/
def triplesNode (first second : String) (es : List (Nat × Nat × Float)) : Json :=
  .obj
    [(first, indexesNode (es.map fun e => e.1)),
     (second, indexesNode (es.map fun e => e.2.1)),
     ("val", .nums (es.map fun e => e.2.2))]

/-- The problem section. -/
def modelNode (p : Problem) : Json :=
  .obj
    [("name", .text p.name),
     ("minsense", .bool p.minSense),
     ("objconst", .num p.objConst),
     ("cols", .arr (p.cols.map colNode)),
     ("rows", .arr (p.rows.map rowNode)),
     ("a", triplesNode "row" "col" p.matrix.entries),
     ("q", triplesNode "col1" "col2" p.quad.triples)]

/-- The value of a parameter. -/
def paramNode : ParamValue → Json
  | .int i => .int i.toInt64
  | .real x => .num x
  | .str s => .text s

/-- The parameter section, in the order of the names. -/
def paramsNode (t : ParamTable) : Json := .obj (t.sorted.map fun (name, v) => (name, paramNode v))

/-- The solution section. -/
def solutionNode (s : Solution) : Json :=
  .obj
    [("status", .int s.status.code.toInt64),
     ("primal", if s.hasSolution then .nums s.primal else .null),
     ("reducedcost", .nums s.reducedCost),
     ("activity", .nums s.activity),
     ("dual", .nums s.dual),
     ("colbasis", codesNode s.colBasis),
     ("rowbasis", codesNode s.rowBasis),
     ("primalobj", .num s.primalObjective),
     ("dualobj", .num s.dualObjective)]

/-- A section with its name, if it is chosen. -/
def section? (chosen : Bool) (name : String) (v : Json) : List (String × Json) :=
  if chosen then [(name, v)] else []

/-- The document with the chosen sections of a store. -/
def document (s : Store) (parts : Sections) : Json :=
  .obj <|
    [("format", .text format), ("version", .int version)]
      ++ section? parts.model "model" (modelNode s.problem)
      ++ section? parts.param "param" (paramsNode s.params)
      ++ section? parts.soln "soln" (solutionNode s.solution)

end TaskFile

end MathProgram

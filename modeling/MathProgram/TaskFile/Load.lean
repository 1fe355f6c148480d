import MathProgram.Json.Reader
import MathProgram.TaskFile.Document

/-!
# Loading task documents

The chosen sections that a document has are parsed before any of them is put in place, so a
document of the wrong shape changes nothing. Then the problem, the parameters and the solution are
put in place in this order. A parameter that the store does not take is passed over; a parameter
that is no number of its range and no text ends the loading, and those before it stay. A solution
has to fit the problem the store then has.
-/

namespace MathProgram.TaskFile

/-- What is there, or else an error of the format. -/
def orMalformed {α : Type} : Option α → Except ResultCode α
  | some a => .ok a
  | none => .error .formatError

/-- A double in a member. -/
def numMember (v : Json) (name : String) : Except ResultCode Float :=
  orMalformed ((v.member? name).bind Json.num?)

/-- The items of an array in a member. -/
def itemsMember (v : Json) (name : String) : Except ResultCode (List Json) :=
  orMalformed ((v.member? name).bind Json.items?)

/-- A name in a member; none if the member is missing or `null`. -/
def nameMember (v : Json) (name : String) : Except ResultCode (Option String) :=
  match v.member? name with
  | none | some .null => .ok none
  | some (.text s) => .ok (some s)
  | some _ => .error .formatError

/-- A list of values in a member, each read by `f`. -/
def listMember {α : Type} (f : Json → Option α) (v : Json) (name : String) :
    Except ResultCode (List α) := do
  (← itemsMember v name).mapM fun x => orMalformed (f x)

/-- A value as an index. -/
def index? (v : Json) : Option Nat :=
  v.int?.bind fun i => if 0 ≤ i then some i.toNatClampNeg else none

/-- A whole number as one of 32 bits, if it fits. -/
def narrow? (i : Int64) : Option Int32 :=
  if i.toInt32.toInt64 = i then some i.toInt32 else none

/-- A value as a number of 32 bits. -/
def code? (v : Json) : Option Int32 := v.int?.bind narrow?

/-- A list of entries in three arrays of one length. -/
def triples (first second : String) (v : Json) : Except ResultCode (List (Nat × Nat × Float)) := do
  let is ← listMember index? v first
  let js ← listMember index? v second
  let xs ← listMember Json.num? v "val"
  if is.length ≠ js.length || is.length ≠ xs.length then .error .formatError
  else return is.zip (js.zip xs)

/-- A list of entries in a member; empty if the member is missing. -/
def triplesMember (first second : String) (v : Json) (name : String) :
    Except ResultCode (List (Nat × Nat × Float)) :=
  match v.member? name with
  | some t => triples first second t
  | none => .ok []

/-- Reads a column. -/
def parseCol (v : Json) : Except ResultCode ColData := do
  return {
    lb := ← numMember v "lb"
    ub := ← numMember v "ub"
    obj := ← numMember v "obj"
    isInteger := match v.member? "int" with
      | some (.bool b) => b
      | _ => false
    name := ← nameMember v "name" }

/-- Reads a row. -/
def parseRow (v : Json) : Except ResultCode RowData := do
  return {
    lhs := ← numMember v "lhs"
    rhs := ← numMember v "rhs"
    name := ← nameMember v "name" }

/-- What the problem section holds. -/
structure ModelData where
  name : String
  minSense : Bool
  objConst : Float
  cols : List ColData
  rows : List RowData
  entries : List (Nat × Nat × Float)
  quad : List (Nat × Nat × Float)

/-- Reads the problem section. Only the columns and rows have to be there. -/
def parseModel (v : Json) : Except ResultCode ModelData := do
  return {
    name := ((v.member? "name").bind Json.text?).getD ""
    minSense := match v.member? "minsense" with
      | some (.bool b) => b
      | _ => true
    objConst := ((v.member? "objconst").bind Json.num?).getD 0
    cols := ← (← itemsMember v "cols").mapM parseCol
    rows := ← (← itemsMember v "rows").mapM parseRow
    entries := ← triplesMember "row" "col" v "a"
    quad := ← triplesMember "col1" "col2" v "q" }

/-- Reads the solution section. There is a solution if the values of the columns are given. -/
def parseSolution (v : Json) : Except ResultCode Solution := do
  let status ← orMalformed (((v.member? "status").bind code?).bind Status.ofCode?)
  let primal ← match v.member? "primal" with
    | none | some .null => pure none
    | some _ => some <$> listMember Json.num? v "primal"
  return {
    status
    hasSolution := primal.isSome
    primal := primal.getD []
    reducedCost := ← listMember Json.num? v "reducedcost"
    activity := ← listMember Json.num? v "activity"
    dual := ← listMember Json.num? v "dual"
    colBasis := ← listMember code? v "colbasis"
    rowBasis := ← listMember code? v "rowbasis"
    primalObjective := ← numMember v "primalobj"
    dualObjective := ← numMember v "dualobj" }

/-- Reads a section, if it is chosen and there. -/
def parseSection {α : Type} (chosen : Bool) (doc : Json) (name : String)
    (parse : Json → Except ResultCode α) : Except ResultCode (Option α) :=
  match chosen, doc.member? name with
  | true, some v => some <$> parse v
  | _, _ => .ok none

/-- The members of the parameter section. -/
def parseParams : Json → Except ResultCode (List (String × Json))
  | .obj members => .ok members
  | _ => .error .formatError

/-- Checks that a document is of this format and version. -/
def checkHeader (doc : Json) : Except ResultCode Unit :=
  if (doc.member? "format").bind Json.text? ≠ some format then .error .formatError
  else if (doc.member? "version").bind Json.int? ≠ some version then .error .versionError
  else .ok ()

/-- What the chosen sections of a document hold. -/
structure Parsed where
  model : Option ModelData
  params : Option (List (String × Json))
  solution : Option Solution

/-- Reads the chosen sections of a document. -/
def parse (doc : Json) (parts : Sections) : Except ResultCode Parsed := do
  checkHeader doc
  return {
    model := ← parseSection parts.model doc "model" parseModel
    params := ← parseSection parts.param doc "param" parseParams
    solution := ← parseSection parts.soln doc "soln" parseSolution }

/-! ## Putting sections in place -/

/-- Puts a problem in place. -/
def applyModel (m : ModelData) (s : Store) : Except ResultCode Store := do
  let s ← s.edit fun p => p.replaceData m.cols m.rows m.entries m.quad
  return ((s.setName m.name).setMinSense m.minSense).setObjConst m.objConst

/-- The value of a parameter in a document. -/
def paramValue? : Json → Option ParamValue
  | .int i => (narrow? i).map .int
  | .num x => some (.real x)
  | .text t => some (.str t)
  | _ => none

/-- Sets parameters one after the other, up to the first whose value is none. -/
def applyParams : List (String × Json) → Store → Except ResultCode Unit × Store
  | [], s => (.ok (), s)
  | (name, v) :: rest, s =>
    match paramValue? v with
    | some v =>
      match s.setParam name v with
      | .ok s => applyParams rest s
      | .error _ => applyParams rest s
    | none => (.error .formatError, s)

/-- Puts a solution in place that fits the problem. -/
def applySolution (sol : Solution) (s : Store) : Except ResultCode Store :=
  if (sol.hasSolution && sol.primal.length != s.numCols)
      || (!sol.dual.isEmpty && sol.dual.length != s.numRows) then .error .modelInputError
  else .ok (s.setSolution sol)

/-- A step on a store that changes nothing where it fails. -/
def attempt (f : Store → Except ResultCode Store) (s : Store) : Except ResultCode Unit × Store :=
  match f s with
  | .ok s => (.ok (), s)
  | .error e => (.error e, s)

/-- Puts what was read in place, section by section, up to the first that fails. -/
def apply (d : Parsed) : ExceptT ResultCode (StateM Store) Unit := do
  if let some m := d.model then ExceptT.mk (attempt (applyModel m))
  if let some ps := d.params then ExceptT.mk (applyParams ps)
  if let some sol := d.solution then ExceptT.mk (attempt (applySolution sol))

/-- Loads the chosen sections of a document into a store. -/
def load (doc : Json) (parts : Sections) (s : Store) : Except ResultCode Unit × Store :=
  match parse doc parts with
  | .ok d => (apply d).run s
  | .error e => (.error e, s)

/-- Loads the chosen sections of a file of the given bytes into a store. -/
def loadBytes (bytes : List UInt8) (parts : Sections) (s : Store) :
    Except ResultCode Unit × Store :=
  match Json.read bytes with
  | .ok doc => load doc parts s
  | .error _ => (.error .formatError, s)

end MathProgram.TaskFile

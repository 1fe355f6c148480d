import MathProgram.Code.Result
import MathProgram.Error

/-!
# Parameters

A parameter is a named value of one of three types. The table of an engine starts with the defaults
and keeps their names and types: `ParamTable.set` refuses unknown names and values of another type,
but takes a whole number for a real parameter.
-/

namespace MathProgram

/-- The value of a parameter. -/
inductive ParamValue where
  | int (i : Int32)
  | real (x : Float)
  | str (s : String)
  deriving Repr, Inhabited

/-- The type of a value. -/
def ParamValue.type : ParamValue → ValueType
  | int _ => .int
  | real _ => .real
  | str _ => .str

/-- The parameter value that a value of a type stands for. -/
def ParamValue.ofValue : (t : ValueType) → t.Value → ParamValue
  | .int, i => .int i
  | .real, x => .real x
  | .str, s => .str s

/-- The value of the type asked for, if it has that type. -/
def ParamValue.value? : (t : ValueType) → ParamValue → Option t.Value
  | .int, .int i => some i
  | .real, .real x => some x
  | .str, .str s => some s
  | _, _ => none

namespace Param

/-! ## Names -/

def method := "Method"
def presolve := "Presolve"
def dualization := "Dualization"
def numThreads := "NumThreads"
def enableNetworkFlow := "EnableNetworkFlow"
def enableStochasticLp := "EnableStochasticLP"
def spxColumnGeneration := "SPX/ColumnGeneration"
def spxCrashStart := "SPX/CrashStart"
def spxMaxIterations := "SPX/MaxIterations"
def spxPrimalPricing := "SPX/PrimalPricing"
def spxDualPricing := "SPX/DualPricing"
def ipmMaxIterations := "IPM/MaxIterations"
def mipMaxNodes := "MIP/MaxNodes"
def mipRootParallelism := "MIP/RootParallelism"
def maxTime := "MaxTime"
def spxPrimalTolerance := "SPX/PrimalTolerance"
def spxDualTolerance := "SPX/DualTolerance"
def ipmPrimalTolerance := "IPM/PrimalTolerance"
def ipmDualTolerance := "IPM/DualTolerance"
def ipmGapTolerance := "IPM/GapTolerance"
def mipIntegerTolerance := "MIP/IntegerTolerance"
def mipObjectiveTolerance := "MIP/ObjectiveTolerance"
def mipGapAbs := "MIP/GapAbs"
def mipGapRel := "MIP/GapRel"
def remoteToken := "Remote/Token"
def remoteDesc := "Remote/Desc"
def remoteServer := "Remote/Server"
def remoteFileModel := "Remote/File/Model"
def remoteFileParam := "Remote/File/Param"
def remoteFileSoln := "Remote/File/Soln"
def remoteFilePath := "Remote/File/Path"

end Param

/-- Named values, each name once. -/
abbrev ParamTable := List (String × ParamValue)

namespace ParamTable

/-- The known parameters with their first values. -/
def defaults : ParamTable :=
  [(Param.method, .int (-1)),
   (Param.presolve, .int (-1)),
   (Param.dualization, .int (-1)),
   (Param.numThreads, .int 0),
   (Param.enableNetworkFlow, .int 0),
   (Param.enableStochasticLp, .int 0),
   (Param.spxColumnGeneration, .int 0),
   (Param.spxCrashStart, .int 0),
   (Param.spxMaxIterations, .int 2147483647),
   (Param.spxPrimalPricing, .int (-1)),
   (Param.spxDualPricing, .int (-1)),
   (Param.ipmMaxIterations, .int 500),
   (Param.mipMaxNodes, .int (-1)),
   (Param.mipRootParallelism, .int (-1)),
   (Param.maxTime, .real 1e20),
   (Param.spxPrimalTolerance, .real 1e-6),
   (Param.spxDualTolerance, .real 1e-6),
   (Param.ipmPrimalTolerance, .real 1e-8),
   (Param.ipmDualTolerance, .real 1e-8),
   (Param.ipmGapTolerance, .real 1e-8),
   (Param.mipIntegerTolerance, .real 1e-6),
   (Param.mipObjectiveTolerance, .real 1e-6),
   (Param.mipGapAbs, .real 1e-6),
   (Param.mipGapRel, .real 1e-4),
   (Param.remoteToken, .str ""),
   (Param.remoteDesc, .str ""),
   (Param.remoteServer, .str ""),
   (Param.remoteFileModel, .str ""),
   (Param.remoteFileParam, .str ""),
   (Param.remoteFileSoln, .str ""),
   (Param.remoteFilePath, .str "")]

/-- The value of a name. -/
def get? (t : ParamTable) (name : String) : Option ParamValue := t.lookup name

/-- The value of a name, if it is a whole number. -/
def int? (t : ParamTable) (name : String) : Option Int32 :=
  match t.get? name with
  | some (.int i) => some i
  | _ => none

/-- The value of a name, if it is a real number. -/
def real? (t : ParamTable) (name : String) : Option Float :=
  match t.get? name with
  | some (.real x) => some x
  | _ => none

/-- The value of a name, if it has the type asked for. -/
def getTyped (t : ParamTable) (name : String) (type : ValueType) : Except ResultCode ParamValue :=
  match t.get? name with
  | some v => if v.type = type then .ok v else .error .paramGetError
  | none => .error .paramGetError

/-- Puts a value in place of that of a known name. -/
def replace (t : ParamTable) (name : String) (v : ParamValue) : ParamTable :=
  t.map fun p => if p.1 == name then (p.1, v) else p

/-- A value as a parameter of the given type takes it: a whole number serves as a real one. -/
def coerced (type : ValueType) (v : ParamValue) : ParamValue :=
  match type, v with
  | .real, .int i => .real i.toFloat
  | _, v => v

/-- Sets a parameter. -/
def set (t : ParamTable) (name : String) (v : ParamValue) : Except ResultCode ParamTable :=
  match t.get? name with
  | none => .error .paramSetError
  | some old =>
    let v := coerced old.type v
    if v.type = old.type then .ok (t.replace name v) else .error .paramSetError

/-- The parameters in the order of their names. -/
def sorted (t : ParamTable) : ParamTable := t.mergeSort fun p q => p.1 ≤ q.1

end ParamTable

end MathProgram

import MathProgram.Param

/-!
# Attributes

Attributes are named values of a model, of its columns, or of its rows, each of one type. The three
inductive types list the whole-number, the real and the text attributes with what they belong to;
`ofName?` reads a name.
-/

namespace MathProgram

/-- Whole-number attributes of a model. -/
inductive ModelInt where
  | numVars
  | numConss
  /-- The number of nonzeros of the matrix. -/
  | numEnts
  /-- One for minimization, zero for maximization. -/
  | minSense
  | hasSolution
  | hasPrimalRay
  | hasDualRay
  | spxIterations
  | ipmIterations
  deriving DecidableEq, Repr

/-- Whole-number attributes of a column. -/
inductive ColInt where
  | isInteger
  | basis
  /-- Membership of the column's bounds in an infeasible subsystem. -/
  | iis
  deriving DecidableEq, Repr

/-- Whole-number attributes of a row. -/
inductive RowInt where
  | basis
  /-- Membership of the row's bounds in an infeasible subsystem. -/
  | iis
  deriving DecidableEq, Repr

/-- The whole-number attributes. -/
inductive IntAttr where
  | ofModel (a : ModelInt)
  | ofCol (a : ColInt)
  | ofRow (a : RowInt)
  deriving DecidableEq, Repr

/-- The whole-number attribute of a name. -/
def IntAttr.ofName? : String → Option IntAttr
  | "NumVars" => some (.ofModel .numVars)
  | "NumConss" => some (.ofModel .numConss)
  | "NumEnts" => some (.ofModel .numEnts)
  | "MinSense" => some (.ofModel .minSense)
  | "HasSolution" => some (.ofModel .hasSolution)
  | "HasPrimalRay" => some (.ofModel .hasPrimalRay)
  | "HasDualRay" => some (.ofModel .hasDualRay)
  | "SPX/NumIters" => some (.ofModel .spxIterations)
  | "IPM/NumIters" => some (.ofModel .ipmIterations)
  | "IsInteger" => some (.ofCol .isInteger)
  | "ColBasis" => some (.ofCol .basis)
  | "ColIIS" => some (.ofCol .iis)
  | "RowBasis" => some (.ofRow .basis)
  | "RowIIS" => some (.ofRow .iis)
  | _ => none

/-- Real attributes of a model. -/
inductive ModelReal where
  | objConst
  | solutionTime
  | presolverTime
  | solverTime
  | primalObjective
  | dualObjective
  | mipGapAbs
  | mipGapRel
  deriving DecidableEq, Repr

/-- Real attributes of a column. -/
inductive ColReal where
  | lb
  | ub
  | obj
  | primal
  | reducedCost
  deriving DecidableEq, Repr

/-- Real attributes of a row. -/
inductive RowReal where
  | lhs
  | rhs
  | dual
  | activity
  deriving DecidableEq, Repr

/-- The real attributes. -/
inductive RealAttr where
  | ofModel (a : ModelReal)
  | ofCol (a : ColReal)
  | ofRow (a : RowReal)
  deriving DecidableEq, Repr

/-- The real attribute of a name. -/
def RealAttr.ofName? : String → Option RealAttr
  | "ObjConst" => some (.ofModel .objConst)
  | "SolutionTime" => some (.ofModel .solutionTime)
  | "PresolverTime" => some (.ofModel .presolverTime)
  | "SolverTime" => some (.ofModel .solverTime)
  | "PrimalObjVal" => some (.ofModel .primalObjective)
  | "DualObjVal" => some (.ofModel .dualObjective)
  | "MIP/GapAbs" => some (.ofModel .mipGapAbs)
  | "MIP/GapRel" => some (.ofModel .mipGapRel)
  | "LB" => some (.ofCol .lb)
  | "UB" => some (.ofCol .ub)
  | "Obj" => some (.ofCol .obj)
  | "PrimalSoln" => some (.ofCol .primal)
  | "ReducedCost" => some (.ofCol .reducedCost)
  | "LHS" => some (.ofRow .lhs)
  | "RHS" => some (.ofRow .rhs)
  | "DualSoln" => some (.ofRow .dual)
  | "Activity" => some (.ofRow .activity)
  | _ => none

/-- The text attributes: the names of the problem, a column and a row, and those that share their
value with the text parameter of the same name. -/
inductive StrAttr where
  | problemName
  | param (name : String)
  | colName
  | rowName
  deriving DecidableEq, Repr

/-- The text parameters that are attributes as well. -/
def sharedParams : List String :=
  [Param.remoteToken, Param.remoteDesc, Param.remoteServer, Param.remoteFileModel,
   Param.remoteFileParam, Param.remoteFileSoln, Param.remoteFilePath]

/-- The text attribute of a name. -/
def StrAttr.ofName? (name : String) : Option StrAttr :=
  if name = "ProbName" then some .problemName
  else if name = "ColName" then some .colName
  else if name = "RowName" then some .rowName
  else if name ∈ sharedParams then some (.param name)
  else none

end MathProgram

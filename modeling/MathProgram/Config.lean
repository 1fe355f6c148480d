import MathProgram.Param

/-!
# Configurations

Solver options that do not depend on the engine. `Config.params` gives the parameter settings a
configuration stands for; an option that is not given keeps the engine's current value.
-/

namespace MathProgram

/-- An optimization method. -/
inductive Method where
  | auto
  | primalSimplex
  | dualSimplex
  | interiorPoint
  deriving DecidableEq, Repr

/-- The value of the method parameter. -/
def Method.code : Method → Int32
  | auto => -1
  | primalSimplex => 0
  | dualSimplex => 1
  | interiorPoint => 2

/-- Solver options. -/
structure Config where
  /-- Time limit in seconds. -/
  timeLimit : Option Float := none
  /-- Relative gap at which a search stops. -/
  mipGapRel : Option Float := none
  /-- Absolute gap at which a search stops. -/
  mipGapAbs : Option Float := none
  /-- Number of threads; zero lets the engine decide. -/
  threads : Option UInt32 := none
  presolve : Option Bool := none
  method : Option Method := none
  /-- Show the engine's log on the console. -/
  logToConsole : Option Bool := none

namespace Config

/-- No option is given. -/
def isEmpty (c : Config) : Bool :=
  c.timeLimit.isNone && c.mipGapRel.isNone && c.mipGapAbs.isNone && c.threads.isNone
    && c.presolve.isNone && c.method.isNone && c.logToConsole.isNone

/-- The parameter settings. A number of threads beyond the range of the parameter becomes the
largest value; console logging is no parameter. -/
def params (c : Config) : List (String × ParamValue) :=
  [c.timeLimit.map fun t => (Param.maxTime, .real t),
   c.mipGapRel.map fun g => (Param.mipGapRel, .real g),
   c.mipGapAbs.map fun g => (Param.mipGapAbs, .real g),
   c.threads.map fun n => (Param.numThreads, .int (Int32.ofNat (min n.toNat 2147483647))),
   c.presolve.map fun p => (Param.presolve, .int (if p then -1 else 0)),
   c.method.map fun m => (Param.method, .int m.code)].filterMap id

end Config

end MathProgram

import MathProgram.Decimal.Shortest
import MathProgram.Store.Basic

/-!
# Reports

The summary of the last solve for the log, and the text of a solution file.
-/

namespace MathProgram.Store

/-- The columns with their values, as lines that begin with the column's name, or with `unnamed`
and its index. -/
def valueLines (s : Store) (line : String → String → String) (unnamed : String) : String :=
  String.join <| (s.problem.cols.zip s.solution.primal).zipIdx.map fun ((c, x), j) =>
    line (c.name.getD (unnamed ++ toString j)) (Float.scientific x)

/-- The summary of the last solve. -/
def formatResults (s : Store) : String :=
  let sol := s.solution
  "Model status       : " ++ sol.status.name ++ "\n"
    ++ (if sol.hasSolution then
          "Primal objective   : " ++ Float.scientific sol.primalObjective ++ "\n"
            ++ "Dual objective     : " ++ Float.scientific sol.dualObjective ++ "\n"
            ++ s.valueLines (fun name x => "  " ++ name ++ " = " ++ x ++ "\n") "x"
        else "No solution available\n")
    ++ (match sol.stats with
        | some st => "Solution time      : " ++ Float.fixed 3 st.solutionTime ++ "s\n"
        | none => "")

/-- The text of a solution file, if there is a solution. -/
def solutionText (s : Store) : Except ResultCode String :=
  let sol := s.solution
  if sol.hasSolution then
    .ok ("# status " ++ sol.status.name ++ "\n"
      ++ "# objective " ++ Float.scientific sol.primalObjective ++ "\n"
      ++ s.valueLines (fun name x => name ++ " " ++ x ++ "\n") "C")
  else .error .noSoln

end MathProgram.Store

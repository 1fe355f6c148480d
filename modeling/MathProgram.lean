import MathProgram.Environment
import MathProgram.Model.Snapshot
import MathProgram.Proofs.Engine.NativeFiles
import MathProgram.Proofs.Engine.Solving
import MathProgram.Proofs.Environment
import MathProgram.Proofs.Expr.Algebra
import MathProgram.Proofs.Expr.Comparison
import MathProgram.Proofs.Json.Balance
import MathProgram.Proofs.Json.Conformance
import MathProgram.Proofs.Json.Emission
import MathProgram.Proofs.Model.Constraints
import MathProgram.Proofs.Model.Deletion
import MathProgram.Proofs.Model.Files
import MathProgram.Proofs.Model.Fleet
import MathProgram.Proofs.Model.Identity
import MathProgram.Proofs.Model.Jobs
import MathProgram.Proofs.Model.Misreading
import MathProgram.Proofs.Model.Objective
import MathProgram.Proofs.Model.ReadBack
import MathProgram.Proofs.Model.Refusal
import MathProgram.Proofs.Model.SolutionFile
import MathProgram.Proofs.Model.Solved
import MathProgram.Proofs.Solver.Conflict
import MathProgram.Proofs.Solver.Marshalling
import MathProgram.Proofs.Store.Atomic
import MathProgram.Proofs.Store.Indexing
import MathProgram.Proofs.Store.Parameters
import MathProgram.Proofs.TaskFile.Solution
import MathProgram.Solver.Scripted

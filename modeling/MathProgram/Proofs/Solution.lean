import Mathlib.Data.Nat.Notation
import MathProgram.Solution

/-!
# Solutions that fit a problem

A solution is about the columns and rows of a problem, by position: six of its lists are looked up
by the index of a column or a row, and two of them hold numbers that stand for basis statuses.
`Solution.Consistent` says that all of this agrees with a problem of a given size.
-/

namespace MathProgram

/-- Numbers of basis statuses of `n` columns or rows, or none at all. -/
structure IsBasis (codes : List Int32) (n : ℕ) : Prop where
  length : codes = [] ∨ codes.length = n
  valid : ∀ c ∈ codes, (BasisStatus.ofCode? c).isSome = true

/-- The number of a basis status stands for it. -/
theorem BasisStatus.ofCode?_code (b : BasisStatus) : ofCode? b.code = some b := by
  cases b <;> rfl

/-- No basis at all. -/
theorem isBasis_nil (n : ℕ) : IsBasis [] n := ⟨.inl rfl, fun _ hc => nomatch hc⟩

/-- A number of a basis status for each of `n` items. -/
theorem isBasis_map {α : Type} {xs : List α} {n : ℕ} {f : α → Int32} (hlength : xs.length = n)
    (hf : ∀ x, ∃ b : BasisStatus, f x = b.code) : IsBasis (xs.map f) n where
  length := .inr ((List.length_map f).trans hlength)
  valid c hc := by
    obtain ⟨x, -, rfl⟩ := List.mem_map.1 hc
    obtain ⟨b, hb⟩ := hf x
    rw [hb, BasisStatus.ofCode?_code]
    rfl

/-- A list about the columns or rows has an entry for each of them or none at all. The values of
the columns are all there if there is a solution. -/
structure Solution.Consistent (sol : Solution) (numCols numRows : ℕ) : Prop where
  primal : sol.hasSolution = true → sol.primal.length = numCols
  reducedCost : sol.reducedCost = [] ∨ sol.reducedCost.length = numCols
  activity : sol.activity = [] ∨ sol.activity.length = numRows
  dual : sol.dual = [] ∨ sol.dual.length = numRows
  colBasis : IsBasis sol.colBasis numCols
  rowBasis : IsBasis sol.rowBasis numRows

end MathProgram

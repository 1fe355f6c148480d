import MathProgram.Proofs.Indexing
import MathProgram.Proofs.Store.Reachable
import MathProgram.Store.Indexing

/-!
# The representation of reachable stores

Attributes of columns and rows are read and written after a check of the index, and the access that
follows the check does not fail. With the operations on the problem this makes `InRange`, what a
sound store has for every operation and all arguments.
-/

namespace MathProgram

namespace Store

/-! ## Attributes -/

section Attributes

variable {α β : Type} {s : Store} {j k n : ℕ}

/-- An index that has been checked is in range. -/
theorem useAt?_eq (xs : List α) (k : ℕ) (e : ResultCode) (f : α → Except ResultCode β) :
    useAt? xs k e f = some (match xs[k]? with
      | some x => f x
      | none => .error e) := by
  unfold useAt?
  split_ifs with hk
  · rw [List.getElem?_eq_none hk]
  · rw [List.getElem?_eq_getElem (Nat.lt_of_not_le hk)]
    rfl

/-- A column in range is changed. -/
theorem modifyCol?_eq (h : ¬ s.numCols ≤ j) (f : ColData → ColData) :
    s.modifyCol? j f = some (s.modifyCol j f) := by
  rw [modifyCol?, update?_of_lt (Nat.lt_of_not_le h)]
  rfl

/-- A row in range is changed. -/
theorem modifyRow?_eq (h : ¬ s.numRows ≤ j) (f : RowData → RowData) :
    s.modifyRow? j f = some (s.modifyRow j f) := by
  rw [modifyRow?, update?_of_lt (Nat.lt_of_not_le h)]
  rfl

/-- A basis brought to a length has the places below it. -/
theorem withBasis?_eq (basis : List Int32) (h : ¬ n ≤ k) (v : Int32) :
    withBasis? basis n k v = some (withBasis basis n k v) := by
  unfold withBasis? withBasis
  cases BasisStatus.ofCode? v with
  | none => rfl
  | some b =>
    -- The basis is brought to `n` places before one of them is set.
    have hlen : k < (resized n BasisStatus.isFree.code basis).length := by
      rw [resized, List.length_append, List.length_take, List.length_replicate]
      omega
    dsimp only
    rw [update?_of_lt hlen, List.modify_eq_set]
    rfl

/-- Reading a whole-number attribute uses no index out of range. -/
theorem intAttr?_eq (s : Store) (name : String) (index : Option ℕ) :
    s.intAttr? name index = some (s.intAttr name index) := by
  unfold intAttr? intAttr
  rcases IntAttr.ofName? name with _ | (a | a | a) <;> rcases index with _ | k
  any_goals rfl
  · dsimp only
    rw [useAt?_eq]
    cases s.problem.cols[k]? <;> rfl
  · dsimp only
    rw [useAt?_eq]
    cases s.problem.rows[k]? <;> rfl

/-- Reading a real attribute uses no index out of range. -/
theorem realAttr?_eq (s : Store) (name : String) (index : Option ℕ) :
    s.realAttr? name index = some (s.realAttr name index) := by
  unfold realAttr? realAttr
  rcases RealAttr.ofName? name with _ | (a | a | a) <;> rcases index with _ | k
  any_goals rfl
  · dsimp only
    rw [useAt?_eq]
    cases s.problem.cols[k]? <;> rfl
  · dsimp only
    rw [useAt?_eq]
    cases s.problem.rows[k]? <;> rfl

/-- Reading a text attribute uses no index out of range. -/
theorem strAttr?_eq (s : Store) (name : String) (index : Option ℕ) :
    s.strAttr? name index = some (s.strAttr name index) := by
  unfold strAttr? strAttr
  rcases StrAttr.ofName? name with _ | (_ | p | _ | _) <;> rcases index with _ | k
  any_goals rfl
  · dsimp only
    rcases s.params.get? p with _ | (_ | _ | _) <;> rfl
  · dsimp only
    rw [useAt?_eq]
    cases s.problem.cols[k]? <;> rfl
  · dsimp only
    rw [useAt?_eq]
    cases s.problem.rows[k]? <;> rfl

/-- Writing a whole-number attribute uses no index out of range. -/
theorem setIntAttr?_eq (s : Store) (name : String) (index : Option ℕ) (v : Int32) :
    s.setIntAttr? name index v = some (s.setIntAttr name index v) := by
  unfold setIntAttr? setIntAttr
  rcases IntAttr.ofName? name with _ | (a | a | a) <;> rcases index with _ | k
  -- Without an index nothing is accessed; with one, the check comes first.
  any_goals rfl
  · cases a <;> rfl
  · dsimp only
    split_ifs with hk
    · rfl
    · cases a with
      | isInteger => dsimp only; rw [modifyCol?_eq hk]; rfl
      | basis => dsimp only; rw [withBasis?_eq _ hk]; rfl
      | iis => rfl
  · dsimp only
    split_ifs with hk
    · rfl
    · cases a with
      | basis => dsimp only; rw [withBasis?_eq _ hk]; rfl
      | iis => rfl

/-- Writing a real attribute uses no index out of range. -/
theorem setRealAttr?_eq (s : Store) (name : String) (index : Option ℕ) (v : Float) :
    s.setRealAttr? name index v = some (s.setRealAttr name index v) := by
  unfold setRealAttr? setRealAttr
  rcases RealAttr.ofName? name with _ | (a | a | a) <;> rcases index with _ | k
  any_goals rfl
  · cases a <;> rfl
  · dsimp only
    split_ifs with hk
    · rfl
    · cases a <;> simp only [modifyCol?_eq hk, Option.map_some]
  · dsimp only
    split_ifs with hk
    · rfl
    · cases a <;> simp only [modifyRow?_eq hk, Option.map_some]

/-- Writing a text attribute uses no index out of range. -/
theorem setStrAttr?_eq (s : Store) (name : String) (index : Option ℕ) (v : String) :
    s.setStrAttr? name index v = some (s.setStrAttr name index v) := by
  unfold setStrAttr? setStrAttr
  rcases StrAttr.ofName? name with _ | (_ | p | _ | _) <;> rcases index with _ | k
  any_goals rfl
  · dsimp only
    split_ifs with hk
    · rfl
    · rw [update?_of_lt (Nat.lt_of_not_le hk)]; rfl
  · dsimp only
    split_ifs with hk
    · rfl
    · rw [update?_of_lt (Nat.lt_of_not_le hk)]; rfl

end Attributes

/-! ## Every operation -/

/-- No operation of a store uses an index out of range: each, run access by access, comes to its
end with its result. -/
structure InRange (s : Store) : Prop where
  colMajor : s.problem.matrix.byCol.compressed? s.numCols = some s.problem.colMajor
  quadLower : s.problem.quad.compressed? s.numCols = some s.problem.quadLower
  fetchCols : ∀ wanted b,
    Problem.fetchLines? s.problem.matrix.byCol s.numCols .modelInvalidColIdx wanted b =
      some (s.problem.fetchCols wanted b)
  fetchRows : ∀ wanted b,
    Problem.fetchLines? s.problem.matrix.byRow s.numRows .modelInvalidRowIdx wanted b =
      some (s.problem.fetchRows wanted b)
  deleteCols : ∀ removed, s.problem.deleteCols? removed = some (s.problem.deleteCols removed)
  deleteRows : ∀ removed, s.problem.deleteRows? removed = some (s.problem.deleteRows removed)
  intAttr : ∀ name index, s.intAttr? name index = some (s.intAttr name index)
  realAttr : ∀ name index, s.realAttr? name index = some (s.realAttr name index)
  strAttr : ∀ name index, s.strAttr? name index = some (s.strAttr name index)
  setIntAttr : ∀ name index v, s.setIntAttr? name index v = some (s.setIntAttr name index v)
  setRealAttr : ∀ name index v, s.setRealAttr? name index v = some (s.setRealAttr name index v)
  setStrAttr : ∀ name index v, s.setStrAttr? name index v = some (s.setStrAttr name index v)

/-- In a sound store no operation uses an index out of range. -/
theorem Sound.inRange {s : Store} (h : s.Sound) : s.InRange where
  colMajor := Sparse.compressed?_eq fun _ he => (h.problem.byCol_lt he).1
  quadLower := Sparse.compressed?_eq fun _ he => (h.problem.quad_lt he).1
  fetchCols := Problem.fetchLines?_eq _ _ _
  fetchRows := Problem.fetchLines?_eq _ _ _
  deleteCols := Problem.deleteCols?_eq h.problem
  deleteRows := Problem.deleteRows?_eq h.problem
  intAttr := intAttr?_eq s
  realAttr := realAttr?_eq s
  strAttr := strAttr?_eq s
  setIntAttr := setIntAttr?_eq s
  setRealAttr := setRealAttr?_eq s
  setStrAttr := setStrAttr?_eq s

/-- After any operations on a new store, successful or not, the two copies of the matrix are
transposes of each other, every entry is inside the rows and columns, the quadratic form is kept by
pairs of columns in order, and no operation uses an index out of range. -/
theorem representation_afterOps (name : Option String) (ops : List Op) :
    let s := afterOps name ops
    (∀ i j v, s.problem.matrix.byRow.get? (i, j) = some v ↔
      s.problem.matrix.byCol.get? (j, i) = some v) ∧
    (∀ i j v, s.problem.matrix.byRow.get? (i, j) = some v → i < s.numRows ∧ j < s.numCols) ∧
    (∀ i j v, s.problem.quad.get? (i, j) = some v → i ≤ j ∧ j < s.numCols) ∧
    s.InRange := by
  intro s
  have h : s.Sound := sound_afterOps name ops
  refine ⟨fun i j v => ?_, fun i j v hv => ?_, fun i j v hv => ?_, h.inRange⟩
  · rw [h.problem.matrix.transposed]
  · obtain ⟨hi, hj, -⟩ := h.problem.matrix.entry i j v hv
    exact ⟨hi, hj⟩
  · obtain ⟨hle, hj, -⟩ := h.problem.quad i j v hv
    exact ⟨hle, hj⟩

end Store

end MathProgram

import MathProgram.Proofs.Compressed
import MathProgram.Proofs.Indexing
import MathProgram.Solver.Request

/-!
# What a solver library is given

A problem is passed to a solver library as arrays: the matrix by columns in compressed form, and the
quadratic form by its lower triangle. `LinearProgram.States` and `Hessian.States` say what such
arrays have to be for the library to be given the problem, in terms of how they are read: the starts
tile the entries, and each line that they delimit holds the entries of the problem that belong
there, in strictly increasing order. For every problem in the form it is kept in
(`Problem.Represented`) and small enough for indexes of 32 bits, this is what is passed
(`Problem.Represented.marshalled`), however columns and rows have come and gone.
-/

namespace MathProgram

/-! ## Problems as they are kept -/

namespace Problem

/-- The two copies of the matrix are transposes of each other with every entry inside, and the
quadratic form is kept by pairs of columns in order. -/
structure Represented (p : Problem) : Prop where
  transposed : ∀ i j v, p.matrix.byRow.get? (i, j) = some v ↔ p.matrix.byCol.get? (j, i) = some v
  inside : ∀ i j v, p.matrix.byRow.get? (i, j) = some v → i < p.numRows ∧ j < p.numCols
  upper : ∀ i j v, p.quad.get? (i, j) = some v → i ≤ j ∧ j < p.numCols

variable {p : Problem} {i j : ℕ} {v : Float}

/-- Well-formed problems are kept in this form. -/
theorem WellFormed.represented (h : p.WellFormed) : p.Represented where
  transposed i j v := by rw [h.matrix.transposed]
  inside i j v hv := ⟨(h.matrix.entry i j v hv).1, (h.matrix.entry i j v hv).2.1⟩
  upper i j v hv := ⟨(h.quad i j v hv).1, (h.quad i j v hv).2.1⟩

namespace Represented

/-- The entries of a problem are those of the copy by columns. -/
theorem mem_entries_iff (h : p.Represented) :
    (i, j, v) ∈ p.matrix.entries ↔ p.matrix.byCol.get? (j, i) = some v := by
  rw [← h.transposed, Matrix.entries, Sparse.mem_triples]

/-- The entries by columns are inside. -/
theorem byCol_lt (h : p.Represented) {e : IndexPair × Float} (he : e ∈ p.matrix.byCol.entries) :
    e.1.1 < p.numCols ∧ e.1.2 < p.numRows := by
  have hrow := (h.transposed e.1.2 e.1.1 e.2).2 (Sparse.get?_eq_some_iff.2 he)
  exact (h.inside _ _ _ hrow).symm

/-- The entries of the quadratic form are inside. -/
theorem quad_lt (h : p.Represented) {e : IndexPair × Float} (he : e ∈ p.quad.entries) :
    e.1.1 < p.numCols ∧ e.1.2 < p.numCols := by
  obtain ⟨hle, hlt⟩ := h.upper e.1.1 e.1.2 e.2 (Sparse.get?_eq_some_iff.2 he)
  exact ⟨hle.trans_lt hlt, hlt⟩

/-- The entries by columns, rows first, are the entries in another order. -/
theorem byCol_perm_entries (h : p.Represented) :
    (p.matrix.byCol.triples.map fun e => (e.2.1, e.1, e.2.2)).Perm p.matrix.entries := by
  have hcols : (p.matrix.byCol.triples.map fun e => (e.2.1, e.1, e.2.2)).Nodup := by
    rw [Sparse.triples, List.map_map]
    refine p.matrix.byCol.sorted.nodup_keys.of_map.map fun e f hef => ?_
    simp only [Function.comp_apply, Prod.mk.injEq] at hef
    exact Prod.ext (Prod.ext hef.2.1 hef.1) hef.2.2
  have hrows : p.matrix.entries.Nodup := by
    rw [Matrix.entries, Sparse.triples]
    refine p.matrix.byRow.sorted.nodup_keys.of_map.map fun e f hef => ?_
    simp only [Prod.mk.injEq] at hef
    exact Prod.ext (Prod.ext hef.1 hef.2.1) hef.2.2
  refine (List.perm_ext_iff_of_nodup hcols hrows).2 fun e => ?_
  obtain ⟨i, j, v⟩ := e
  rw [h.mem_entries_iff, ← Sparse.mem_triples, List.mem_map]
  constructor
  · rintro ⟨e, he, heq⟩
    cases heq
    exact he
  · intro hmem
    exact ⟨_, hmem, rfl⟩

end Represented

end Problem

/-! ## Arrays that state a problem -/

/-- Lines in compressed form hold a relation of lines, indexes and values: the starts tile the
entries, and each line has its pairs in strictly increasing order. -/
structure Compressed.Holds {α : Type} (c : Compressed α) (n size : ℕ) (entry : ℕ → ℕ → α → Prop) :
    Prop where
  starts : Tiles c.starts n size
  indexes : c.indexes.length = size
  values : c.values.length = size
  increasing : ∀ k < n, (c.line k).Pairwise fun e f => e.1 < f.1
  mem_line : ∀ k < n, ∀ i v, (i, v) ∈ c.line k ↔ entry k i v

/-- The compressed form of a map holds its entries. -/
theorem Sparse.holds_compressed {α : Type} {m : Sparse α} {n : ℕ}
    (h : ∀ e ∈ m.entries, e.1.1 < n) :
    (m.compressed n).Holds n m.size fun k i v => m.get? (k, i) = some v where
  starts := tiles_compressed h
  indexes := List.length_map ..
  values := List.length_map ..
  increasing k hk := by
    rw [line_compressed hk]
    exact pairwise_line m k
  mem_line k hk i v := by
    rw [line_compressed hk]
    exact mem_line

/-- The starts of a compressed map and its indexes are small if there are few entries and their
second indexes are small, so both can be passed on in 32 bits. -/
theorem Sparse.ofInt32?_compressed {α : Type} {m : Sparse α} {n : ℕ} (hsize : m.size < 2 ^ 31)
    (hindex : ∀ e ∈ m.entries, e.1.2 < 2 ^ 31) :
    Compressed.ofInt32? ((m.compressed n).starts.map Int32.ofNat)
      ((m.compressed n).indexes.map Int32.ofNat) (m.compressed n).values =
        some (m.compressed n) := by
  refine Compressed.ofInt32?_map (fun k hk => ?_) fun i hi => ?_
  · rw [starts_compressed] at hk
    obtain ⟨l, -, rfl⟩ := List.mem_map.1 hk
    exact (List.length_filter_le ..).trans_lt hsize
  · obtain ⟨e, he, rfl⟩ := List.mem_map.1 hi
    exact hindex e he

/-- A linear program states the linear part of a problem. -/
structure LinearProgram.States (lp : LinearProgram) (p : Problem) : Prop where
  counts : lp.numCols = p.numCols ∧ lp.numRows = p.numRows ∧ lp.numNonzeros = p.matrix.size
  minSense : lp.minSense = p.minSense
  offset : lp.offset = p.objConst
  cost : lp.cost = p.cols.map (·.obj)
  lower : lp.lower = p.cols.map fun c => toIeeeBound c.lb
  upper : lp.upper = p.cols.map fun c => toIeeeBound c.ub
  rowLower : lp.rowLower = p.rows.map fun r => toIeeeBound r.lhs
  rowUpper : lp.rowUpper = p.rows.map fun r => toIeeeBound r.rhs
  /-- There are marks if there is an integer column, and then it is those that are marked. -/
  integrality : (lp.integrality.isSome ↔ ∃ c ∈ p.cols, c.isInteger = true) ∧
    ∀ marks, lp.integrality = some marks → marks.length = p.numCols ∧
      ∀ (j : ℕ) (c : ColData), p.cols[j]? = some c →
        marks[j]? = some (if c.isInteger then integerMark else 0)
  /-- The arrays are those that counting in place gives. They hold the entries by columns, and are
  the entries in another order. -/
  arrays : ∃ a, Compressed.ofInt32? lp.starts lp.indexes lp.values = some a ∧
    p.matrix.byCol.compressed? p.numCols = some a ∧
    a.Holds p.numCols p.matrix.entries.length (fun j i v => (i, j, v) ∈ p.matrix.entries) ∧
    (a.triples.map fun e => (e.2.1, e.1, e.2.2)).Perm p.matrix.entries

/-- The entry of a symmetric matrix in row `i` and column `j`, of which the lower triangle is given
by columns. -/
def Compressed.symmetric (c : Compressed Float) (i j : ℕ) : Float :=
  ((c.line (min i j)).lookup (max i j)).getD 0

/-- Arrays state the quadratic form of a problem by its lower triangle. -/
structure Hessian.States (q : Hessian) (p : Problem) : Prop where
  dimension : q.dimension = p.numCols
  /-- The arrays are those that counting in place gives. Column `i` holds the entries of the pairs
  that begin with `i`, which are in the lower triangle, and the symmetric matrix is that of the
  problem. -/
  arrays : ∃ a, Compressed.ofInt32? q.starts q.indexes q.values = some a ∧
    p.quad.compressed? p.numCols = some a ∧
    a.Holds p.numCols p.quad.size (fun i j v => p.quad.get? (i, j) = some v) ∧
    (∀ i j v, i < p.numCols → (j, v) ∈ a.line i → i ≤ j ∧ j < p.numCols) ∧
    ∀ i j, i < p.numCols → j < p.numCols → a.symmetric i j = p.quadCoeff i j

namespace Problem.Represented

variable {p : Problem}

/-- The integer columns are marked. -/
theorem integrality_ofProblem (p : Problem) :
    ((LinearProgram.ofProblem p).integrality.isSome ↔ ∃ c ∈ p.cols, c.isInteger = true) ∧
      ∀ marks, (LinearProgram.ofProblem p).integrality = some marks →
        marks.length = p.numCols ∧ ∀ (j : ℕ) (c : ColData), p.cols[j]? = some c →
          marks[j]? = some (if c.isInteger then LinearProgram.integerMark else 0) := by
  unfold LinearProgram.ofProblem
  dsimp only
  constructor
  · rw [← List.any_eq_true, ← hasIntegers]
    cases p.hasIntegers <;> simp
  · intro marks hmarks
    split_ifs at hmarks
    obtain rfl := Option.some.inj hmarks
    refine ⟨List.length_map .., fun j c hj => ?_⟩
    rw [List.getElem?_map, hj, Option.map_some]

/-- The matrix has as many entries by rows as by columns. -/
theorem length_entries (h : p.Represented) : p.matrix.entries.length = p.matrix.size := by
  rw [← h.byCol_perm_entries.length_eq, List.length_map, Sparse.triples, List.length_map]
  rfl

/-- The linear part of a problem is what its linear program states. -/
theorem states_ofProblem (h : p.Represented) (hrows : p.numRows < 2 ^ 31)
    (hsize : p.matrix.size < 2 ^ 31) : (LinearProgram.ofProblem p).States p where
  counts := ⟨List.length_map .., List.length_map .., List.length_map ..⟩
  minSense := rfl
  offset := rfl
  cost := rfl
  lower := rfl
  upper := rfl
  rowLower := rfl
  rowUpper := rfl
  integrality := integrality_ofProblem p
  arrays := by
    have hcols : ∀ e ∈ p.matrix.byCol.entries, e.1.1 < p.numCols := fun e he => (h.byCol_lt he).1
    have hholds := Sparse.holds_compressed hcols
    refine ⟨p.colMajor, ?_, Sparse.compressed?_eq hcols, ?_, ?_⟩
    · exact Sparse.ofInt32?_compressed hsize fun e he => (h.byCol_lt he).2.trans hrows
    · rw [h.length_entries]
      refine { hholds with mem_line := fun j hj i v => ?_ }
      rw [h.mem_entries_iff]
      exact hholds.mem_line j hj i v
    · rw [colMajor, Sparse.triples_compressed hcols]
      exact h.byCol_perm_entries

/-- Looking a pair up by its smaller column finds the entry of the quadratic form. -/
theorem symmetric_quadLower (p : Problem) {i : ℕ} (hi : i < p.numCols) (j : ℕ) :
    p.quadLower.symmetric i j = p.quadCoeff i j := by
  have hmin : min i j < p.numCols := (min_le_left i j).trans_lt hi
  rw [quadLower, Compressed.symmetric, Sparse.line_compressed hmin, Sparse.lookup_line, quadCoeff,
    quadKey]
  split_ifs with hle
  · rw [min_eq_left hle, max_eq_right hle]
  · rw [min_eq_right (Nat.le_of_not_le hle), max_eq_left (Nat.le_of_not_le hle)]

/-- The quadratic form of a problem is what its arrays state. -/
theorem hessian_states (h : p.Represented) (hcols : p.numCols < 2 ^ 31)
    (hsize : p.quad.size < 2 ^ 31) : (Hessian.ofProblem p).States p where
  dimension := rfl
  arrays := by
    have hlines : ∀ e ∈ p.quad.entries, e.1.1 < p.numCols := fun e he => (h.quad_lt he).1
    refine ⟨p.quadLower, ?_, Sparse.compressed?_eq hlines, Sparse.holds_compressed hlines,
      fun i j v hi hmem => ?_, fun i j hi _ => symmetric_quadLower p hi j⟩
    · exact Sparse.ofInt32?_compressed hsize fun e he => (h.quad_lt he).2.trans hcols
    · rw [quadLower, Sparse.line_compressed hi] at hmem
      exact h.upper i j v (Sparse.mem_line.1 hmem)

/-- What a solver library is given is the problem: the linear program states its linear part and
the arrays of the lower triangle its quadratic form, if columns, rows and nonzeros can be counted in
32 bits. -/
theorem marshalled (h : p.Represented) (hcols : p.numCols < 2 ^ 31) (hrows : p.numRows < 2 ^ 31)
    (hsize : p.matrix.size < 2 ^ 31) (hquad : p.quad.size < 2 ^ 31) :
    (LinearProgram.ofProblem p).States p ∧ (Hessian.ofProblem p).States p :=
  ⟨h.states_ofProblem hrows hsize, h.hessian_states hcols hquad⟩

/-- Two rows and three columns, of which the second is integer and has no entry. -/
def hollow : Problem where
  name := ""
  minSense := false
  objConst := 1
  cols := [⟨0, 1, 2, false, none⟩, ⟨0, 1e20, 0, true, none⟩, ⟨-1e20, 3, 1, false, none⟩]
  rows := [⟨1, 1, none⟩, ⟨-1e20, 4, none⟩]
  matrix :=
    { byCol := ⟨[((0, 0), 5), ((2, 0), 6), ((2, 1), 7)], by simp [Sparse.Sorted, IndexPair.Before]⟩
      byRow :=
        ⟨[((0, 0), 5), ((0, 2), 6), ((1, 2), 7)], by simp [Sparse.Sorted, IndexPair.Before]⟩ }
  quad := ⟨[((0, 2), 8), ((2, 2), 9)], by simp [Sparse.Sorted, IndexPair.Before]⟩

/-- What is passed of a problem in which a column is empty and another without a diagonal entry. -/
theorem marshalled_hollow :
    hollow.Represented ∧ hollow.numCols < 2 ^ 31 ∧ hollow.numRows < 2 ^ 31 ∧
      hollow.matrix.size < 2 ^ 31 ∧ hollow.quad.size < 2 ^ 31 ∧
      (LinearProgram.ofProblem hollow).States hollow ∧ (Hessian.ofProblem hollow).States hollow ∧
      (LinearProgram.ofProblem hollow).starts = [0, 1, 1, 3] ∧
      (Hessian.ofProblem hollow).starts = [0, 1, 1, 2] := by
  have hrepresented : hollow.Represented := by
    refine ⟨fun i j v => ?_, fun i j v hv => ?_, fun i j v hv => ?_⟩
    · rw [Sparse.get?_eq_some_iff, Sparse.get?_eq_some_iff]
      simp only [hollow, List.mem_cons, Prod.mk.injEq, List.not_mem_nil, or_false, and_comm]
    · have hmem := Sparse.get?_eq_some_iff.1 hv
      simp only [hollow, List.mem_cons, Prod.mk.injEq, List.not_mem_nil, or_false] at hmem
      obtain ⟨⟨rfl, rfl⟩, -⟩ | ⟨⟨rfl, rfl⟩, -⟩ | ⟨⟨rfl, rfl⟩, -⟩ := hmem <;> decide
    · have hmem := Sparse.get?_eq_some_iff.1 hv
      simp only [hollow, List.mem_cons, Prod.mk.injEq, List.not_mem_nil, or_false] at hmem
      obtain ⟨⟨rfl, rfl⟩, -⟩ | ⟨⟨rfl, rfl⟩, -⟩ := hmem <;> decide
  obtain ⟨hlinear, hquadratic⟩ :=
    hrepresented.marshalled (by decide) (by decide) (by decide) (by decide)
  exact ⟨hrepresented, by decide, by decide, by decide, by decide, hlinear, hquadratic,
    by decide, by decide⟩

end Problem.Represented

end MathProgram

import MathProgram.Proofs.Json.RoundTrip
import MathProgram.TaskFile.Document

/-!
# Task documents are read back as they are

A document of a store is nested four deep at most, and it holds no NaN if the store holds none. So a
task file is read back as the document that was written (`read_document`).
-/

namespace MathProgram

/-- A parameter is a NaN. -/
def ParamValue.isNaN : ParamValue → Bool
  | real x => x.isNaN
  | int _ | str _ => false

/-- No number of the store that a task file holds is a NaN. -/
structure Store.NaNFree (s : Store) : Prop where
  cols : ∀ c ∈ s.problem.cols, c.lb.isNaN = false ∧ c.ub.isNaN = false ∧ c.obj.isNaN = false
  rows : ∀ r ∈ s.problem.rows, r.lhs.isNaN = false ∧ r.rhs.isNaN = false
  objConst : s.problem.objConst.isNaN = false
  matrix : ∀ e ∈ s.problem.matrix.entries, e.2.2.isNaN = false
  quad : ∀ e ∈ s.problem.quad.triples, e.2.2.isNaN = false
  params : ∀ p ∈ s.params, p.2.isNaN = false
  primal : ∀ x ∈ s.solution.primal, x.isNaN = false
  reducedCost : ∀ x ∈ s.solution.reducedCost, x.isNaN = false
  activity : ∀ x ∈ s.solution.activity, x.isNaN = false
  dual : ∀ x ∈ s.solution.dual, x.isNaN = false
  primalObjective : s.solution.primalObjective.isNaN = false
  dualObjective : s.solution.dualObjective.isNaN = false

namespace TaskFile

open Json (Legal legal_arr legal_obj)

/-- A bound in the range between the thresholds is no NaN, if it was none. -/
theorem isNaN_clampBound {x : Float} (h : x.isNaN = false) : (clampBound x).isNaN = false := by
  unfold clampBound
  split_ifs
  · decide
  · decide
  · exact h

/-! ## Values without nesting -/

/-- A number that is no NaN may stand anywhere. -/
theorem legal_num {x : Float} (h : x.isNaN = false) : Legal 0 (.num x) := ⟨le_rfl, h⟩

/-- A name may stand anywhere. -/
theorem legal_nameNode (name : Option String) : Legal 0 (nameNode name) := by
  cases name <;> exact ⟨le_rfl, trivial⟩

/-- The value of a parameter may stand anywhere, if it is no NaN. -/
theorem legal_paramNode {v : ParamValue} (h : v.isNaN = false) : Legal 0 (paramNode v) := by
  cases v with
  | int i => exact ⟨le_rfl, trivial⟩
  | real x => exact legal_num h
  | str t => exact ⟨le_rfl, trivial⟩

/-! ## Lists -/

/-- A list of numbers is nested once. -/
theorem legal_nums {xs : List Float} (h : ∀ x ∈ xs, x.isNaN = false) : Legal 1 (.nums xs) := by
  refine legal_arr fun v hv => ?_
  obtain ⟨x, hx, rfl⟩ := List.mem_map.1 hv
  exact legal_num (h x hx)

/-- A list of whole numbers is nested once. -/
theorem legal_ints (is : List Int64) : Legal 1 (.ints is) := by
  refine legal_arr fun v hv => ?_
  obtain ⟨i, -, rfl⟩ := List.mem_map.1 hv
  exact ⟨le_rfl, trivial⟩

/-- A list of entries is nested twice. -/
theorem legal_triplesNode {first second : String} {es : List (ℕ × ℕ × Float)}
    (h : ∀ e ∈ es, e.2.2.isNaN = false) : Legal 2 (triplesNode first second es) := by
  refine legal_obj ?_
  simp only [List.forall_mem_cons, List.not_mem_nil, false_imp_iff, implies_true, and_true]
  refine ⟨legal_ints _, legal_ints _, legal_nums fun x hx => ?_⟩
  obtain ⟨e, he, rfl⟩ := List.mem_map.1 hx
  exact h e he

/-! ## Sections -/

variable {s : Store}

/-- A column is nested once. -/
theorem legal_colNode {c : ColData}
    (h : c.lb.isNaN = false ∧ c.ub.isNaN = false ∧ c.obj.isNaN = false) : Legal 1 (colNode c) := by
  obtain ⟨hlb, hub, hobj⟩ := h
  refine legal_obj ?_
  simp only [List.forall_mem_cons, List.not_mem_nil, false_imp_iff, implies_true, and_true]
  exact ⟨legal_num (isNaN_clampBound hlb), legal_num (isNaN_clampBound hub), legal_num hobj,
    ⟨le_rfl, trivial⟩, legal_nameNode c.name⟩

/-- A row is nested once. -/
theorem legal_rowNode {r : RowData} (h : r.lhs.isNaN = false ∧ r.rhs.isNaN = false) :
    Legal 1 (rowNode r) := by
  obtain ⟨hlhs, hrhs⟩ := h
  refine legal_obj ?_
  simp only [List.forall_mem_cons, List.not_mem_nil, false_imp_iff, implies_true, and_true]
  exact ⟨legal_num (isNaN_clampBound hlhs), legal_num (isNaN_clampBound hrhs),
    legal_nameNode r.name⟩

/-- The problem section is nested three deep. -/
theorem legal_modelNode (h : s.NaNFree) : Legal 3 (modelNode s.problem) := by
  have hcols : Legal 2 (.arr (s.problem.cols.map colNode)) := legal_arr fun v hv => by
    obtain ⟨c, hc, rfl⟩ := List.mem_map.1 hv
    exact legal_colNode (h.cols c hc)
  have hrows : Legal 2 (.arr (s.problem.rows.map rowNode)) := legal_arr fun v hv => by
    obtain ⟨r, hr, rfl⟩ := List.mem_map.1 hv
    exact legal_rowNode (h.rows r hr)
  have hscalar : ∀ v, Legal 0 v → Legal 2 v := fun _ hv => hv.mono (Nat.zero_le 2)
  refine legal_obj ?_
  simp only [List.forall_mem_cons, List.not_mem_nil, false_imp_iff, implies_true, and_true]
  exact ⟨hscalar _ ⟨le_rfl, trivial⟩, hscalar _ ⟨le_rfl, trivial⟩, hscalar _ (legal_num h.objConst),
    hcols, hrows, legal_triplesNode h.matrix, legal_triplesNode h.quad⟩

/-- The parameter section is nested once. -/
theorem legal_paramsNode (h : s.NaNFree) : Legal 1 (paramsNode s.params) := by
  refine legal_obj fun m hm => ?_
  obtain ⟨⟨name, v⟩, hp, rfl⟩ := List.mem_map.1 hm
  exact legal_paramNode (h.params (name, v) (List.mem_mergeSort.1 hp))

/-- The solution section is nested twice. -/
theorem legal_solutionNode (h : s.NaNFree) : Legal 2 (solutionNode s.solution) := by
  have hprimal : Legal 1 (if s.solution.hasSolution then .nums s.solution.primal else .null) := by
    split_ifs
    · exact legal_nums h.primal
    · exact ⟨Nat.zero_le 1, trivial⟩
  have hscalar : ∀ v, Legal 0 v → Legal 1 v := fun _ hv => hv.mono (Nat.zero_le 1)
  refine legal_obj ?_
  simp only [List.forall_mem_cons, List.not_mem_nil, false_imp_iff, implies_true, and_true]
  exact ⟨hscalar _ ⟨le_rfl, trivial⟩, hprimal, legal_nums h.reducedCost, legal_nums h.activity,
    legal_nums h.dual, legal_ints _, legal_ints _, hscalar _ (legal_num h.primalObjective),
    hscalar _ (legal_num h.dualObjective)⟩

/-- A section is legal where its value is. -/
theorem legal_section? {room : ℕ} {chosen : Bool} {name : String} {v : Json} (h : Legal room v) :
    ∀ m ∈ section? chosen name v, Legal room m.2 := by
  cases chosen
  · exact fun m hm => absurd hm (List.not_mem_nil)
  · simpa [section?] using h

/-- A task document is nested four deep. -/
theorem legal_document (h : s.NaNFree) (parts : Sections) : Legal 4 (document s parts) := by
  refine legal_obj fun m hm => ?_
  simp only [List.mem_append] at hm
  -- The two members of the header, and the sections as far as they were chosen.
  obtain ((hm | hm) | hm) | hm := hm
  · revert m
    simp only [List.forall_mem_cons, List.not_mem_nil, false_imp_iff, implies_true, and_true]
    exact ⟨⟨Nat.zero_le 3, trivial⟩, ⟨Nat.zero_le 3, trivial⟩⟩
  · exact legal_section? (legal_modelNode h) m hm
  · exact (legal_section? (legal_paramsNode h) m hm).mono (by decide)
  · exact (legal_section? (legal_solutionNode h) m hm).mono (by decide)

/-- A task file is read back as the document that was written. -/
theorem read_document (h : s.NaNFree) (parts : Sections) :
    Json.read (Utf8.bytes (document s parts).render) = .ok (document s parts) := by
  obtain ⟨hnesting, hnan⟩ := legal_document h parts
  have hread := (Json.read_render (document s parts)).1 (hnesting.trans (by decide))
  rwa [Json.withoutNaN_of_nanFree hnan] at hread

end TaskFile

end MathProgram

import MathProgram.Proofs.Store.Reachable
import MathProgram.Proofs.TaskFile.Document
import MathProgram.Proofs.TaskFile.Parse

/-!
# Task files are read back

What a store writes into a task file is what any store that reads the file gets, section by section.
The document is read as it was written (`read_document`), its sections are parsed back
(`parse_document`), and each of the three steps of the loading puts in place what was written: the
problem, because a matrix is the sum of its entries; the parameters, because both tables have the
same names and types; the solution, because it fits.
-/

namespace MathProgram

/-- A problem with all bounds moved into the range between the thresholds. -/
def Problem.clamped (p : Problem) : Problem :=
  { p with cols := p.cols.map ColData.clamped, rows := p.rows.map RowData.clamped }

namespace TaskFile

variable {s t : Store}

/-! ## The three steps -/

/-- A problem is put in place with its bounds clamped; the solution and the infeasible subsystem are
discarded. -/
theorem applyModel_ofProblem (h : s.problem.WellFormed) (t : Store) :
    applyModel (.ofProblem s.problem) t = .ok (t.withProblem s.problem.clamped) := by
  have hreplace := h.replaceData_entries t.problem (s.problem.cols.map ColData.clamped)
    (s.problem.rows.map RowData.clamped) (List.length_map ..) (List.length_map ..)
  have hedit : t.edit (fun p => p.replaceData (s.problem.cols.map ColData.clamped)
      (s.problem.rows.map RowData.clamped) s.problem.matrix.entries s.problem.quad.triples) = _ :=
    congrArg (Except.map t.withProblem) hreplace
  rw [applyModel]
  dsimp only [ModelData.ofProblem]
  rw [hedit]
  rfl

/-- A parameter is read back. -/
theorem paramValue?_paramNode (v : ParamValue) : paramValue? (paramNode v) = some v := by
  cases v with
  | int i =>
    change (narrow? i.toInt64).map ParamValue.int = _
    rw [narrow?_toInt64]
    rfl
  | real x => rfl
  | str t => rfl

/-- Parameters that are known with their types are set one after another. -/
theorem applyParams_paramNodes {ps : List (String × ParamValue)} (h : t.Sound)
    (hps : ∀ p ∈ ps, (p.1, p.2.type) ∈ ParamTable.defaults.shape) :
    applyParams (ps.map fun (name, v) => (name, paramNode v)) t =
      (.ok (), { t with params := t.params.replaceAll ps }) := by
  induction ps generalizing t with
  | nil => rfl
  | cons p ps ih =>
    obtain ⟨name, v⟩ := p
    have hmem := hps (name, v) (List.mem_cons_self ..)
    rw [← h.params] at hmem
    obtain ⟨⟨name', old⟩, hold, heq⟩ := List.mem_map.1 hmem
    obtain ⟨rfl, htype⟩ := Prod.mk.inj heq
    -- The table has the name with the type of the value, so the value is not converted.
    have hset : t.setParam name' v = .ok { t with params := t.params.replace name' v } := by
      rw [Store.setParam, ParamTable.set_of_type (ParamTable.get?_of_mem h.nodup_names hold)
        htype.symm]
      rfl
    have ht : ({ t with params := t.params.replace name' v } : Store).Sound := h.setParam hset
    rw [List.map_cons, applyParams, paramValue?_paramNode]
    dsimp only
    rw [hset]
    exact ih ht fun q hq => hps q (List.mem_cons_of_mem _ hq)

/-- The parameters of a store replace those of another. -/
theorem applyParams_paramsNode (hs : s.Sound) (ht : t.Sound) :
    applyParams (s.params.sorted.map fun (name, v) => (name, paramNode v)) t =
      (.ok (), { t with params := s.params }) := by
  rw [applyParams_paramNodes ht, ParamTable.replaceAll_sorted hs.nodup_names
    (ht.params.trans hs.params.symm)]
  intro p hp
  rw [← hs.params]
  exact List.mem_map_of_mem (List.mem_mergeSort.1 hp)

/-! ## Whole files -/

/-- A store once it has taken over chosen sections of another. -/
def takenOver (s : Store) (parts : Sections) (t : Store) : Store :=
  let t := if parts.model then t.withProblem s.problem.clamped else t
  let t := if parts.param then { t with params := s.params } else t
  if parts.soln then t.setSolution s.solution.recorded else t

/-- The sections that two choices have in common. -/
def common (w r : Sections) : Sections := ⟨w.model && r.model, w.param && r.param, w.soln && r.soln⟩

/-- What is recorded of a solution that fits does fit. -/
theorem fits_recorded {sol : Solution} {numCols numRows : ℕ} (h : sol.Fits numCols numRows) :
    sol.recorded.Fits numCols numRows where
  primal hhas := by
    have hhas : sol.hasSolution = true := hhas
    rw [Solution.recorded, hhas]
    exact h.primal hhas
  dual := h.dual

/-- A store that reads what another has written takes over the sections that were both written and
chosen for reading. -/
theorem loadBytes_document (hs : s.Sound) (ht : t.Sound) (hnan : s.NaNFree)
    (haddress : Addressable s.problem) (w r : Sections)
    (hfits : (common w r).soln → s.solution.Fits s.numCols s.numRows)
    (hdims : (common w r).soln → (common w r).model = false →
      t.numCols = s.numCols ∧ t.numRows = s.numRows) :
    loadBytes (Utf8.bytes (document s w).render) r t =
      (.ok (), takenOver s (common w r) t) := by
  -- The stores after the problem and after the parameters.
  let t₁ := if (common w r).model then t.withProblem s.problem.clamped else t
  let t₂ := if (common w r).param then { t₁ with params := s.params } else t₁
  have hmodel : placeModel (if (common w r).model then some (.ofProblem s.problem) else none) t =
      .ok t₁ := by
    cases hc : (common w r).model <;> simp only [t₁, hc]
    · rfl
    · exact applyModel_ofProblem hs.problem t
  have ht₁ : t₁.Sound :=
    placeModel_invariant ht (fun _ _ _ h hm => h.applyModel hm) hmodel
  have hparams : placeParams (if (common w r).param then
      some (s.params.sorted.map fun (name, v) => (name, paramNode v)) else none) t₁ =
      (.ok (), t₂) := by
    cases hc : (common w r).param <;> simp only [t₂, hc]
    · rfl
    · exact applyParams_paramsNode hs ht₁
  -- The solution fits: the problem was taken over, or has the same size already.
  have hsize : (common w r).soln → t₂.numCols = s.numCols ∧ t₂.numRows = s.numRows := by
    intro hsoln
    have hsize₁ : t₁.numCols = s.numCols ∧ t₁.numRows = s.numRows := by
      cases hc : (common w r).model <;> simp only [t₁, hc]
      · exact hdims hsoln hc
      · exact ⟨List.length_map .., List.length_map ..⟩
    cases hc : (common w r).param <;> simp only [t₂, hc] <;> exact hsize₁
  have hsolution : placeSolution (if (common w r).soln then some s.solution.recorded else none) t₂ =
      .ok (takenOver s (common w r) t) := by
    cases hc : (common w r).soln
    · simp only [takenOver, hc]
      rfl
    · obtain ⟨hcols, hrows⟩ := hsize hc
      have hfit : s.solution.recorded.Fits t₂.numCols t₂.numRows := by
        rw [hcols, hrows]
        exact fits_recorded (hfits hc)
      simp only [takenOver, hc]
      exact applySolution_of_fits hfit
  -- Reading, parsing and the three steps, one after another.
  rw [loadBytes, read_document hnan]
  dsimp only
  rw [load, parse_document haddress]
  dsimp only
  refine (run_apply_of_placeModel hmodel).trans ?_
  change placeRest (if (common w r).param then _ else none)
    (if (common w r).soln then _ else none) t₁ = _
  rw [placeRest, hparams]
  dsimp only
  rw [attempt, hsolution]

/-- The positions of a well-formed problem can be written if it has fewer than `2 ^ 63` rows and
columns. -/
theorem addressable {p : Problem} (h : p.WellFormed) (hrows : p.numRows < 2 ^ 63)
    (hcols : p.numCols < 2 ^ 63) : Addressable p where
  matrix e he := by
    obtain ⟨e', he', rfl⟩ := List.mem_map.1 he
    obtain ⟨hi, hj⟩ := h.byRow_lt he'
    exact ⟨hi.trans hrows, hj.trans hcols⟩
  quad e he := by
    obtain ⟨e', he', rfl⟩ := List.mem_map.1 he
    obtain ⟨hi, hj⟩ := h.quad_lt he'
    exact ⟨hi.trans hcols, hj.trans hcols⟩

end TaskFile

end MathProgram

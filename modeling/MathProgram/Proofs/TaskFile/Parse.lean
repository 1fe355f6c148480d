import Mathlib.Algebra.Group.Nat.Defs
import Mathlib.Data.Nat.Notation
import MathProgram.Proofs.Basic
import MathProgram.TaskFile.Load

/-!
# Sections are parsed back

Each section of a task document is parsed to what it was written from: a problem with its bounds
clamped, the parameters one by one, and of a solution what a task file holds of it. An index is
written as a number of 64 bits, so it has to be below `2 ^ 63`.
-/

namespace MathProgram

/-- A column with its bounds moved into the range between the thresholds. -/
def ColData.clamped (c : ColData) : ColData :=
  { c with lb := clampBound c.lb, ub := clampBound c.ub }

/-- A row with its bounds moved into the range between the thresholds. -/
def RowData.clamped (r : RowData) : RowData :=
  { r with lhs := clampBound r.lhs, rhs := clampBound r.rhs }

/-- What a task file holds of a solution. -/
def Solution.recorded (s : Solution) : Solution where
  status := s.status
  hasSolution := s.hasSolution
  primal := if s.hasSolution then s.primal else []
  reducedCost := s.reducedCost
  activity := s.activity
  dual := s.dual
  colBasis := s.colBasis
  rowBasis := s.rowBasis
  primalObjective := s.primalObjective
  dualObjective := s.dualObjective

namespace TaskFile

/-! ## Lists of values -/

/-- A list of values is parsed back if each of them is. -/
theorem listMember_eq_ok {α : Type} {f : Json → Option α} {node : α → Json} {v : Json}
    {name : String} {xs : List α} (hv : v.member? name = some (.arr (xs.map node)))
    (h : ∀ x ∈ xs, f (node x) = some x) : listMember f v name = .ok xs := by
  have hitems : itemsMember v name = .ok (xs.map node) := by
    rw [itemsMember, hv]
    rfl
  -- No item is refused, so mapping over them fails nowhere.
  have hmap : (xs.map node).mapM (fun x => orMalformed (f x)) = Except.ok (ε := ResultCode) xs := by
    rw [List.mapM_map]
    refine (mapM_eq_pure (g := id) fun x hx => ?_).trans (by rw [List.map_id]; rfl)
    rw [Function.comp_apply, h x hx]
    rfl
  rw [listMember, hitems]
  exact hmap

/-- A list of numbers is parsed back. -/
theorem listMember_nums {v : Json} {name : String} {xs : List Float}
    (hv : v.member? name = some (.nums xs)) : listMember Json.num? v name = .ok xs :=
  listMember_eq_ok hv fun _ _ => rfl

/-- An index is read back. -/
theorem index?_ofNat {i : ℕ} (h : i < 2 ^ 63) : index? (.int (Int64.ofNat i)) = some i := by
  have hle : 0 ≤ Int64.ofNat i := by
    rw [Int64.le_iff_toInt_le, Int64.toInt_zero, Int64.toInt_ofNat_of_lt h]
    exact Int.natCast_nonneg i
  change (if 0 ≤ Int64.ofNat i then some (Int64.ofNat i).toNatClampNeg else none) = _
  rw [if_pos hle, Int64.toNatClampNeg_ofNat_of_lt h]

/-- A list of indexes is parsed back. -/
theorem listMember_indexes {v : Json} {name : String} {is : List ℕ}
    (hv : v.member? name = some (indexesNode is)) (h : ∀ i ∈ is, i < 2 ^ 63) :
    listMember index? v name = .ok is := by
  rw [indexesNode, Json.ints, List.map_map] at hv
  exact listMember_eq_ok hv fun i hi => index?_ofNat (h i hi)

/-- A number of 32 bits is read back from one of 64. -/
theorem narrow?_toInt64 (i : Int32) : narrow? i.toInt64 = some i := by
  rw [narrow?, Int32.toInt32_toInt64, if_pos rfl]

/-- A list of numbers of 32 bits is parsed back. -/
theorem listMember_codes {v : Json} {name : String} {cs : List Int32}
    (hv : v.member? name = some (codesNode cs)) : listMember code? v name = .ok cs := by
  rw [codesNode, Json.ints, List.map_map] at hv
  exact listMember_eq_ok hv fun i _ => narrow?_toInt64 i

/-! ## The problem -/

/-- A column is parsed back with its bounds clamped. -/
theorem parseCol_colNode (c : ColData) : parseCol (colNode c) = .ok c.clamped := by
  obtain ⟨lb, ub, obj, isInteger, name⟩ := c
  cases name <;> rfl

/-- A row is parsed back with its bounds clamped. -/
theorem parseRow_rowNode (r : RowData) : parseRow (rowNode r) = .ok r.clamped := by
  obtain ⟨lhs, rhs, name⟩ := r
  cases name <;> rfl

/-- A list of entries in three arrays is parsed back. -/
theorem triples_eq_ok {first second : String} {v : Json} {es : List (ℕ × ℕ × Float)}
    (hfirst : v.member? first = some (indexesNode (es.map fun e => e.1)))
    (hsecond : v.member? second = some (indexesNode (es.map fun e => e.2.1)))
    (hval : v.member? "val" = some (.nums (es.map fun e => e.2.2)))
    (h : ∀ e ∈ es, e.1 < 2 ^ 63 ∧ e.2.1 < 2 ^ 63) : triples first second v = .ok es := by
  have hi : ∀ i ∈ es.map fun e => e.1, i < 2 ^ 63 := fun i hi => by
    obtain ⟨e, he, rfl⟩ := List.mem_map.1 hi
    exact (h e he).1
  have hj : ∀ j ∈ es.map fun e => e.2.1, j < 2 ^ 63 := fun j hj => by
    obtain ⟨e, he, rfl⟩ := List.mem_map.1 hj
    exact (h e he).2
  -- Three arrays of one length are zipped to the entries they were taken from.
  have hzip : (es.map fun e => e.1).zip ((es.map fun e => e.2.1).zip (es.map fun e => e.2.2)) =
      es := by
    rw [List.zip_map', List.zip_map']
    exact List.map_id es
  rw [triples, listMember_indexes hfirst hi, listMember_indexes hsecond hj, listMember_nums hval]
  simp only [bind, Except.bind, List.length_map, ne_eq, not_true_eq_false, hzip]
  rfl

/-- What the problem section holds of a problem. -/
def ModelData.ofProblem (p : Problem) : ModelData where
  name := p.name
  minSense := p.minSense
  objConst := p.objConst
  cols := p.cols.map ColData.clamped
  rows := p.rows.map RowData.clamped
  entries := p.matrix.entries
  quad := p.quad.triples

/-- The positions of a problem's entries can be written as numbers of 64 bits. -/
structure Addressable (p : Problem) : Prop where
  matrix : ∀ e ∈ p.matrix.entries, e.1 < 2 ^ 63 ∧ e.2.1 < 2 ^ 63
  quad : ∀ e ∈ p.quad.triples, e.1 < 2 ^ 63 ∧ e.2.1 < 2 ^ 63

/-- The problem section is parsed back with all bounds clamped. -/
theorem parseModel_modelNode {p : Problem} (h : Addressable p) :
    parseModel (modelNode p) = .ok (.ofProblem p) := by
  have hcols : (p.cols.map colNode).mapM parseCol = .ok (p.cols.map ColData.clamped) := by
    rw [List.mapM_map]
    exact mapM_eq_pure fun c _ => parseCol_colNode c
  have hrows : (p.rows.map rowNode).mapM parseRow = .ok (p.rows.map RowData.clamped) := by
    rw [List.mapM_map]
    exact mapM_eq_pure fun r _ => parseRow_rowNode r
  have ha : triplesMember "row" "col" (modelNode p) "a" = .ok p.matrix.entries :=
    triples_eq_ok rfl rfl rfl h.matrix
  have hq : triplesMember "col1" "col2" (modelNode p) "q" = .ok p.quad.triples :=
    triples_eq_ok rfl rfl rfl h.quad
  have hcolsMember : itemsMember (modelNode p) "cols" = .ok (p.cols.map colNode) := rfl
  have hrowsMember : itemsMember (modelNode p) "rows" = .ok (p.rows.map rowNode) := rfl
  simp only [parseModel, hcolsMember, hrowsMember, ha, hq, bind, Except.bind, hcols, hrows]
  rfl

/-! ## The solution -/

/-- A status is read back from its code. -/
theorem ofCode?_code (s : Status) : Status.ofCode? s.code = some s := by
  cases s <;> decide

/-- The solution section is parsed back. -/
theorem parseSolution_solutionNode (s : Solution) :
    parseSolution (solutionNode s) = .ok s.recorded := by
  have hstatus : (((solutionNode s).member? "status").bind code?).bind Status.ofCode? =
      some s.status := by
    change (narrow? s.status.code.toInt64).bind Status.ofCode? = _
    rw [narrow?_toInt64, Option.bind_some, ofCode?_code]
  have hreducedCost : listMember Json.num? (solutionNode s) "reducedcost" = .ok s.reducedCost :=
    listMember_nums rfl
  have hactivity : listMember Json.num? (solutionNode s) "activity" = .ok s.activity :=
    listMember_nums rfl
  have hdual : listMember Json.num? (solutionNode s) "dual" = .ok s.dual := listMember_nums rfl
  have hcolBasis : listMember code? (solutionNode s) "colbasis" = .ok s.colBasis :=
    listMember_codes rfl
  have hrowBasis : listMember code? (solutionNode s) "rowbasis" = .ok s.rowBasis :=
    listMember_codes rfl
  have hprimalObjective : numMember (solutionNode s) "primalobj" = .ok s.primalObjective := rfl
  have hdualObjective : numMember (solutionNode s) "dualobj" = .ok s.dualObjective := rfl
  have hnode : (solutionNode s).member? "primal" =
      some (if s.hasSolution then .nums s.primal else .null) := rfl
  unfold parseSolution
  rw [hstatus, hnode, hreducedCost, hactivity, hdual, hcolBasis, hrowBasis, hprimalObjective,
    hdualObjective]
  -- Without a solution the values of the columns are written as `null`.
  cases hhas : s.hasSolution with
  | false =>
    rw [Solution.recorded, hhas]
    rfl
  | true =>
    have hprimal : listMember Json.num? (solutionNode s) "primal" = .ok s.primal :=
      listMember_nums (by rw [hnode, hhas]; rfl)
    rw [hprimal, Solution.recorded, hhas]
    rfl

/-! ## Documents -/

/-- The sections of a document are those chosen when it was written. -/
theorem member?_document (s : Store) (w : Sections) :
    (document s w).member? "model" = (if w.model then some (modelNode s.problem) else none) ∧
    (document s w).member? "param" = (if w.param then some (paramsNode s.params) else none) ∧
    (document s w).member? "soln" = (if w.soln then some (solutionNode s.solution) else none) := by
  obtain ⟨model, param, soln⟩ := w
  cases model <;> cases param <;> cases soln <;> exact ⟨rfl, rfl, rfl⟩

/-- A section is parsed back if it was written and is chosen. -/
theorem parseSection_eq_ok {α : Type} {parse : Json → Except ResultCode α} {doc v : Json} {a : α}
    {name : String} {written : Bool} (hv : doc.member? name = if written then some v else none)
    (h : parse v = .ok a) (chosen : Bool) :
    parseSection chosen doc name parse = .ok (if written && chosen then some a else none) := by
  unfold parseSection
  rw [hv]
  cases written <;> cases chosen
  · rfl
  · rfl
  · rfl
  · change some <$> parse v = _
    rw [h]
    rfl

/-- The chosen sections that were written are parsed back. -/
theorem parse_document {s : Store} (h : Addressable s.problem) (w r : Sections) :
    parse (document s w) r = .ok
      { model := if w.model && r.model then some (.ofProblem s.problem) else none
        params := if w.param && r.param then
          some (s.params.sorted.map fun (name, v) => (name, paramNode v)) else none
        solution := if w.soln && r.soln then some s.solution.recorded else none } := by
  obtain ⟨hmodel, hparam, hsoln⟩ := member?_document s w
  have hheader : checkHeader (document s w) = .ok () := by
    unfold checkHeader
    exact (if_neg fun h => h rfl).trans (if_neg fun h => h rfl)
  have hparams : parseParams (paramsNode s.params) =
      .ok (s.params.sorted.map fun (name, v) => (name, paramNode v)) := rfl
  rw [parse, hheader, parseSection_eq_ok hmodel (parseModel_modelNode h) r.model,
    parseSection_eq_ok hparam hparams r.param,
    parseSection_eq_ok hsoln (parseSolution_solutionNode s.solution) r.soln]
  rfl

end TaskFile

end MathProgram

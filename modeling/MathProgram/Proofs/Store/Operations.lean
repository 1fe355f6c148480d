import MathProgram.Engine.Basic
import MathProgram.Proofs.Store.Reachable

/-!
# What operations do to a store

`after` runs operations on any store. Of the operations some are `Quiet`: they have nothing to do
with the problem. Some are `InPlace`: they may change the problem, but neither the number of its
columns nor that of its rows. The others add or delete columns and rows, or put a whole problem in
place.

An operation that fails changes nothing, and its code is not that of success (`Op.Direct.attempted`,
`Op.Direct.proper`); the loading of a file is the exception.
-/

namespace MathProgram

variable {α β : Type}

/-- A result is not a failure with the code of success. -/
def Proper (r : Except ResultCode α) : Prop := ∀ e, r = .error e → e.code ≠ ResultCode.okay.code

namespace Proper

/-- A success is proper. -/
theorem ok (a : α) : Proper (.ok a) := nofun

/-- A failure with another code is proper. -/
theorem error {e : ResultCode} (h : e.code ≠ ResultCode.okay.code) :
    Proper (.error e : Except ResultCode α) := fun _ he => Except.error.inj he ▸ h

/-- One step after another. -/
theorem bind {r : Except ResultCode α} {f : α → Except ResultCode β} (hr : Proper r)
    (hf : ∀ a, Proper (f a)) : Proper (r >>= f) := by
  cases r with
  | error e => exact error (hr e rfl)
  | ok a => exact hf a

/-- A step whose result is turned into another. -/
theorem map {r : Except ResultCode α} (f : α → β) (hr : Proper r) : Proper (r.map f) := by
  cases r with
  | error e => exact error (hr e rfl)
  | ok a => exact ok _

end Proper

namespace Store

/-- The store after operations, each of which may succeed or fail. -/
def after (s : Store) (ops : List Op) : Store := ops.foldl (fun s op => (op.run s).2) s

/-- The number of columns or of rows. -/
def count (s : Store) : Kind → ℕ
  | .variable => s.numCols
  | .constraint => s.numRows

variable {s s' : Store} {op : Op} {ops : List Op}

@[simp] theorem after_nil : s.after [] = s := rfl

@[simp] theorem after_cons : s.after (op :: ops) = (op.run s).2.after ops := rfl

@[simp] theorem after_append (ops ops' : List Op) :
    s.after (ops ++ ops') = (s.after ops).after ops' := List.foldl_append

/-- Operations lead from a reachable store to another. -/
theorem Reachable.after (h : s.Reachable) (ops : List Op) : (s.after ops).Reachable := by
  obtain ⟨name, done, rfl⟩ := h
  exact ⟨name, done ++ ops, List.foldl_append.symm⟩

/-! ## Success and failure -/

/-- An operation is not the loading of a file. -/
def Op.Direct : Op → Prop
  | .readTask .. => False
  | _ => True

/-- An operation other than the loading of a file is all or nothing. -/
theorem Op.Direct.attempted (h : op.Direct) : ∃ f, op.run = TaskFile.attempt f := by
  cases op with
  | readTask => cases h
  | setName name => exact ⟨fun s => .ok (s.setName name), rfl⟩
  | setMinSense minSense => exact ⟨fun s => .ok (s.setMinSense minSense), rfl⟩
  | setObjConst objConst => exact ⟨fun s => .ok (s.setObjConst objConst), rfl⟩
  | setSolution solution => exact ⟨fun s => .ok (s.setSolution solution), rfl⟩
  | setIis rows cols => exact ⟨fun s => .ok (s.setIis rows cols), rfl⟩
  | invalidate => exact ⟨fun s => .ok s.invalidate, rfl⟩
  | recordJob result => exact ⟨fun s => .ok (s.recordJob result).2, rfl⟩
  | setLog log => exact ⟨fun s => .ok { s with log }, rfl⟩
  | deleteAllElements => exact ⟨(·.edit fun p => .ok p.deleteAllElements), rfl⟩
  | deleteAllQuadElements => exact ⟨(·.edit fun p => .ok p.deleteAllQuadElements), rfl⟩
  | _ => exact ⟨_, rfl⟩

/-- An operation that is all or nothing succeeds with the store it puts in place. -/
theorem run_eq_ok {f : Store → Except ResultCode Store} (hop : op.run = TaskFile.attempt f)
    (h : op.run s = (.ok (), s')) : f s = .ok s' := by
  rw [hop, TaskFile.attempt] at h
  cases hf : f s with
  | error e => rw [hf] at h; cases h
  | ok s₁ => rw [hf] at h; cases h; rfl

/-- An operation that is all or nothing and fails leaves the store as it is. -/
theorem Op.Direct.run_error {e : ResultCode} (hop : op.Direct)
    (h : op.run s = (.error e, s')) : s' = s := by
  obtain ⟨f, hf⟩ := hop.attempted
  rw [hf, TaskFile.attempt] at h
  cases hs : f s with
  | error e => rw [hs] at h; cases h; rfl
  | ok s₁ => rw [hs] at h; cases h

/-- What is done to a problem is done to a store with the same success. -/
theorem proper_edit {f : Problem → Except ResultCode Problem} (h : Proper (f s.problem)) :
    Proper (s.edit f) := h.map _

/-- Checking positions of the matrix. -/
theorem proper_checkPositions {p : Problem} {rows cols : List ℕ} :
    Proper (p.checkPositions rows cols) := by
  unfold Problem.checkPositions
  split_ifs
  · exact .error (by decide)
  · exact .error (by decide)
  · exact .error (by decide)
  · exact .ok _

/-- Checking positions of the quadratic form. -/
theorem proper_checkQuadPositions {p : Problem} {cols₁ cols₂ : List ℕ} :
    Proper (p.checkQuadPositions cols₁ cols₂) := by
  unfold Problem.checkQuadPositions
  split_ifs
  · exact .error (by decide)
  · exact .error (by decide)
  · exact .ok _

/-- Checking the number of values. -/
theorem proper_checkValues {positions : List ℕ} {vals : List Float} :
    Proper (Problem.checkValues positions vals) := by
  unfold Problem.checkValues
  split_ifs
  · exact .error (by decide)
  · exact .ok _

/-- Putting a basis status in place. -/
theorem proper_withBasis {basis : List Int32} {n k : ℕ} {v : Int32} :
    Proper (withBasis basis n k v) := by
  unfold withBasis
  split
  · exact .error (by decide)
  · exact .ok _

/-- Writing a whole-number attribute. -/
theorem proper_setIntAttr {name : String} {index : Option ℕ} {v : Int32} :
    Proper (s.setIntAttr name index v) := by
  unfold setIntAttr
  split
  · split
    · exact .ok _
    · exact .error (by decide)
  · split
    · exact .error (by decide)
    · split
      · exact .ok _
      · exact proper_withBasis.bind fun _ => .ok _
      · exact .error (by decide)
  · split
    · exact .error (by decide)
    · split
      · exact proper_withBasis.bind fun _ => .ok _
      · exact .error (by decide)
  · exact .error (by decide)

/-- Writing a real attribute. -/
theorem proper_setRealAttr {name : String} {index : Option ℕ} {v : Float} :
    Proper (s.setRealAttr name index v) := by
  unfold setRealAttr
  split
  · split
    · exact .ok _
    · exact .error (by decide)
  · split
    · exact .error (by decide)
    · split <;> first | exact .ok _ | exact .error (by decide)
  · split
    · exact .error (by decide)
    · split <;> first | exact .ok _ | exact .error (by decide)
  · exact .error (by decide)

/-- Writing a text attribute. -/
theorem proper_setStrAttr {name v : String} {index : Option ℕ} :
    Proper (s.setStrAttr name index v) := by
  unfold setStrAttr
  split
  · exact .ok _
  · exact .ok _
  · split
    · exact .error (by decide)
    · exact .ok _
  · split
    · exact .error (by decide)
    · exact .ok _
  · exact .error (by decide)

/-- Setting a parameter. -/
theorem proper_setParam {name : String} {v : ParamValue} : Proper (s.setParam name v) := by
  refine Proper.map _ ?_
  unfold ParamTable.set
  split
  · exact .error (by decide)
  · dsimp only
    split
    · exact .ok _
    · exact .error (by decide)

/-- The result of an operation that is all or nothing. -/
theorem proper_attempt {f : Store → Except ResultCode Store} (h : Proper (f s)) :
    Proper (TaskFile.attempt f s).1 := by
  unfold TaskFile.attempt
  cases hf : f s with
  | error e => exact .error (h e hf)
  | ok s' => exact .ok _

/-- An operation other than the loading of a file does not fail with the code of success. -/
theorem Op.Direct.proper (h : op.Direct) (s : Store) : Proper (op.run s).1 := by
  have hedit {f : Problem → Except ResultCode Problem} (h : Proper (f s.problem)) :
      Proper (TaskFile.attempt (·.edit f) s).1 := proper_attempt (proper_edit h)
  cases op with
  | readTask => cases h
  | addCol c rows vals =>
    refine hedit ?_
    unfold Problem.addCol
    split_ifs
    · exact .error (by decide)
    · exact .error (by decide)
    · exact .ok _
  | addRow r cols vals =>
    refine hedit ?_
    unfold Problem.addRow
    split_ifs
    · exact .error (by decide)
    · exact .error (by decide)
    · exact .ok _
  | deleteCols cols =>
    refine hedit ?_
    unfold Problem.deleteCols
    split_ifs
    · exact .error (by decide)
    · exact .ok _
  | deleteRows rows =>
    refine hedit ?_
    unfold Problem.deleteRows
    split_ifs
    · exact .error (by decide)
    · exact .ok _
  | setElements rows cols vals =>
    exact hedit (proper_checkPositions.bind fun _ => proper_checkValues.bind fun _ => .ok _)
  | deleteElements rows cols => exact hedit (proper_checkPositions.bind fun _ => .ok _)
  | setQuadElements cols₁ cols₂ vals =>
    exact hedit (proper_checkQuadPositions.bind fun _ => proper_checkValues.bind fun _ => .ok _)
  | deleteQuadElements cols₁ cols₂ =>
    exact hedit (proper_checkQuadPositions.bind fun _ => .ok _)
  | deleteAllElements | deleteAllQuadElements => exact hedit (.ok _)
  | replaceProblem cols rows entries quad =>
    refine hedit ?_
    unfold Problem.replaceData
    dsimp only
    split_ifs
    · exact .error (by decide)
    · exact .ok _
  | setIntAttr name index v => exact proper_attempt proper_setIntAttr
  | setRealAttr name index v => exact proper_attempt proper_setRealAttr
  | setStrAttr name index v => exact proper_attempt proper_setStrAttr
  | setParam name v => exact proper_attempt proper_setParam
  | setName | setMinSense | setObjConst | setSolution | setIis | invalidate | recordJob | setLog =>
    exact .ok _

/-! ## What becomes of the problem -/

/-- An operation has nothing to do with the problem. -/
def Op.Quiet : Op → Prop
  | .setParam .. | .setSolution _ | .setIis .. | .invalidate | .recordJob _ | .setLog _ => True
  | .readTask _ parts => parts.model = false
  | _ => False

/-- An operation may change the problem, but neither the number of its columns nor that of its
rows. -/
def Op.InPlace : Op → Prop
  | .addCol .. | .addRow .. | .deleteCols _ | .deleteRows _ | .replaceProblem .. => False
  | .readTask _ parts => parts.model = false
  | _ => True

/-- An operation may change the problem and add a column or a row. -/
def Op.Additive : Op → Prop
  | .addCol .. | .addRow .. => True
  | op => op.InPlace

/-- The operation that deletes columns or rows. -/
def Op.deletion : Kind → List ℕ → Op
  | .variable => .deleteCols
  | .constraint => .deleteRows

/-- An operation puts a whole problem in place, or its sense or constant. -/
def Op.Loads : Op → Prop
  | .replaceProblem .. | .setMinSense _ | .setObjConst _ => True
  | .readTask _ parts => parts.model = true
  | _ => False

/-- No problem is read where none is chosen. -/
theorem model_eq_none_of_parse {doc : Json} {parts : Sections} {d : TaskFile.Parsed}
    (h : parts.model = false) (hd : TaskFile.parse doc parts = .ok d) : d.model = none := by
  obtain ⟨_, -, hd⟩ := bind_eq_ok.1 hd
  obtain ⟨model, hmodel, hd⟩ := bind_eq_ok.1 hd
  obtain ⟨_, -, hd⟩ := bind_eq_ok.1 hd
  obtain ⟨_, -, hd⟩ := bind_eq_ok.1 hd
  cases hd
  unfold TaskFile.parseSection at hmodel
  rw [h] at hmodel
  exact (Except.ok.inj hmodel).symm

/-- Setting a parameter keeps the problem. -/
theorem problem_setParam {name : String} {v : ParamValue} (h : s.setParam name v = .ok s') :
    s'.problem = s.problem := by
  unfold Store.setParam at h
  cases hset : s.params.set name v with
  | error e => rw [hset] at h; cases h
  | ok t => rw [hset] at h; cases h; rfl

/-- Loading sections without a problem keeps the problem. -/
theorem problem_loadBytes (bytes : List UInt8) {parts : Sections} (h : parts.model = false)
    (s : Store) : (TaskFile.loadBytes bytes parts s).2.problem = s.problem := by
  unfold TaskFile.loadBytes
  cases Json.read bytes with
  | error e => rfl
  | ok doc =>
    dsimp only [TaskFile.load]
    cases hd : TaskFile.parse doc parts with
    | error e => rfl
    | ok d =>
      -- What remains are the parameters and the solution.
      have hplace : TaskFile.placeModel d.model s = .ok s := by
        rw [model_eq_none_of_parse h hd]
        rfl
      have hparams : (TaskFile.placeParams d.params s).2.problem = s.problem := by
        cases d.params with
        | none => rfl
        | some ps =>
          exact TaskFile.applyParams_invariant (P := fun s' => s'.problem = s.problem) ps rfl
            fun _ _ _ _ hs hset => (problem_setParam hset).trans hs
      dsimp only
      rw [TaskFile.run_apply_of_placeModel hplace]
      dsimp only [TaskFile.placeRest]
      rcases hr : TaskFile.placeParams d.params s with ⟨_ | _, s₁⟩ <;> rw [hr] at hparams
      · exact hparams
      · refine TaskFile.attempt_invariant (P := fun s' => s'.problem = s.problem) hparams ?_
        exact fun s' hs' => TaskFile.placeSolution_invariant (P := fun s' => s'.problem = s.problem)
          hparams (fun _ _ hs => hs) hs'

/-- What has nothing to do with the problem keeps it. -/
theorem Op.Quiet.problem (h : op.Quiet) (s : Store) : (op.run s).2.problem = s.problem := by
  cases op with
  | setParam name v =>
    exact TaskFile.attempt_invariant (P := fun s' => s'.problem = s.problem) rfl
      fun s' => problem_setParam
  | readTask bytes parts => exact problem_loadBytes bytes h s
  | setSolution | setIis | invalidate | recordJob | setLog => rfl
  | _ => cases h

/-- Operations that have nothing to do with the problem keep it. -/
theorem problem_after (h : ∀ op ∈ ops, op.Quiet) (s : Store) :
    (s.after ops).problem = s.problem :=
  foldl_invariant (P := fun s' : Store => s'.problem = s.problem) rfl
    fun _ hs op hop => ((h op hop).problem _).trans hs

end Store

end MathProgram

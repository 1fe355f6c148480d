import MathProgram.Proofs.Param
import MathProgram.Proofs.Problem
import MathProgram.Proofs.TaskFile.Load
import MathProgram.Store.Operations

/-!
# Reachable stores

A store is reachable if operations on a new store lead to it. It is `Sound` if its problem is
well-formed and its parameters have the names and types of the defaults: a new store is sound, each
operation keeps it so (`Sound.run`), and hence every reachable store is sound (`sound_afterOps`).
-/

namespace MathProgram.Store

/-- A store that operations on a new store lead to. -/
def Reachable (s : Store) : Prop := ∃ name ops, s = afterOps name ops

/-- The problem is well-formed, and the parameters have the names and types of the defaults. -/
structure Sound (s : Store) : Prop where
  problem : s.problem.WellFormed
  params : s.params.shape = ParamTable.defaults.shape

variable {s s' : Store}

/-- An operation on the problem that succeeds puts its result in place. -/
theorem edit_eq_ok {f : Problem → Except ResultCode Problem} (h : s.edit f = .ok s') :
    ∃ p, f s.problem = .ok p ∧ s' = s.withProblem p := by
  unfold edit at h
  cases hp : f s.problem with
  | error e => rw [hp] at h; cases h
  | ok p => rw [hp] at h; exact ⟨p, rfl, (Except.ok.inj h).symm⟩

/-- A new store is sound. -/
theorem sound_empty (name : Option String) : (empty name).Sound where
  problem := Problem.wellFormed_empty _
  params := rfl

namespace Sound

/-- The names of the parameters are distinct. -/
theorem nodup_names (h : s.Sound) : (s.params.map Prod.fst).Nodup := by
  rw [← ParamTable.shape_map_fst, h.params]
  exact ParamTable.nodup_names_defaults

/-- What has the same parameters and a problem of the same size with the same entries is sound. -/
theorem congr (h : s.Sound) (hparams : s'.params = s.params)
    (hcols : s'.numCols = s.numCols) (hrows : s'.numRows = s.numRows)
    (hmatrix : s'.problem.matrix = s.problem.matrix) (hquad : s'.problem.quad = s.problem.quad) :
    s'.Sound :=
  ⟨h.problem.congr hcols hrows hmatrix hquad, by rw [hparams]; exact h.params⟩

/-- A problem put in place that is well-formed keeps a store sound. -/
theorem withProblem (h : s.Sound) {p : Problem} (hp : p.WellFormed) : (s.withProblem p).Sound :=
  ⟨hp, h.params⟩

/-- An operation on the problem that keeps it well-formed keeps the store sound. -/
theorem edit {f : Problem → Except ResultCode Problem} (h : s.Sound)
    (hf : ∀ p', f s.problem = .ok p' → p'.WellFormed) :
    (TaskFile.attempt (·.edit f) s).2.Sound := by
  refine TaskFile.attempt_invariant h fun s' hs' => ?_
  obtain ⟨p', hp', rfl⟩ := edit_eq_ok hs'
  exact h.withProblem (hf p' hp')

/-- Changing a column keeps a store sound. -/
theorem modifyCol (h : s.Sound) (j : ℕ) (f : ColData → ColData) : (s.modifyCol j f).Sound :=
  h.congr rfl (List.length_modify ..) rfl rfl rfl

/-- Changing a row keeps a store sound. -/
theorem modifyRow (h : s.Sound) (i : ℕ) (f : RowData → RowData) : (s.modifyRow i f).Sound :=
  h.congr rfl rfl (List.length_modify ..) rfl rfl

/-- Writing a whole-number attribute keeps a store sound. -/
theorem setIntAttr {name : String} {index : Option ℕ} {v : Int32} (h : s.Sound)
    (hs : s.setIntAttr name index v = .ok s') : s'.Sound := by
  unfold Store.setIntAttr at hs
  split at hs
  · split at hs <;> cases hs
    exact h.congr rfl rfl rfl rfl rfl
  · split at hs
    · cases hs
    · split at hs
      · cases hs; exact h.modifyCol _ _
      · obtain ⟨basis, -, hs⟩ := bind_eq_ok.1 hs
        cases hs
        exact h.congr rfl rfl rfl rfl rfl
      · cases hs
  · split at hs
    · cases hs
    · split at hs
      · obtain ⟨basis, -, hs⟩ := bind_eq_ok.1 hs
        cases hs
        exact h.congr rfl rfl rfl rfl rfl
      · cases hs
  · cases hs

/-- Writing a real attribute keeps a store sound. -/
theorem setRealAttr {name : String} {index : Option ℕ} {v : Float} (h : s.Sound)
    (hs : s.setRealAttr name index v = .ok s') : s'.Sound := by
  unfold Store.setRealAttr at hs
  split at hs
  · split at hs <;> cases hs
    exact h.congr rfl rfl rfl rfl rfl
  · split at hs
    · cases hs
    · split at hs <;> cases hs <;> exact h.modifyCol _ _
  · split at hs
    · cases hs
    · split at hs <;> cases hs <;> exact h.modifyRow _ _
  · cases hs

/-- A text attribute that shares its value with a parameter has the name of a text parameter. -/
theorem mem_sharedParams_of_ofName? {name p : String} (h : StrAttr.ofName? name = some (.param p)) :
    p ∈ sharedParams := by
  unfold StrAttr.ofName? at h
  split_ifs at h with _ _ _ hmem <;> cases h
  exact hmem

/-- Writing a text attribute keeps a store sound. -/
theorem setStrAttr {name v : String} {index : Option ℕ} (h : s.Sound)
    (hs : s.setStrAttr name index v = .ok s') : s'.Sound := by
  unfold Store.setStrAttr at hs
  split at hs
  · cases hs
    exact h.congr rfl rfl rfl rfl rfl
  · rename_i p hp
    cases hs
    -- The value goes into the table as a text, where only texts stand under the shared names.
    refine ⟨h.problem, (ParamTable.shape_replace fun old hold => ?_).trans h.params⟩
    have hmem : (p, old.type) ∈ ParamTable.defaults.shape := by
      rw [← h.params]
      exact List.mem_map_of_mem hold
    exact ParamTable.str_of_mem_sharedParams _ hmem (mem_sharedParams_of_ofName? hp)
  · split at hs <;> cases hs
    exact h.congr rfl (List.length_modify ..) rfl rfl rfl
  · split at hs <;> cases hs
    exact h.congr rfl rfl (List.length_modify ..) rfl rfl
  · cases hs

/-- Setting a parameter keeps a store sound. -/
theorem setParam {name : String} {v : ParamValue} (h : s.Sound)
    (hs : s.setParam name v = .ok s') : s'.Sound := by
  unfold Store.setParam at hs
  cases hset : s.params.set name v with
  | error e => rw [hset] at hs; cases hs
  | ok t =>
    rw [hset] at hs
    cases hs
    exact ⟨h.problem, (ParamTable.shape_set h.nodup_names hset).trans h.params⟩

/-- Putting a problem of a file in place keeps a store sound. -/
theorem applyModel {m : TaskFile.ModelData} (h : s.Sound)
    (hs : TaskFile.applyModel m s = .ok s') : s'.Sound := by
  obtain ⟨s₁, hs₁, hs⟩ := bind_eq_ok.1 hs
  obtain ⟨p, hp, rfl⟩ := edit_eq_ok hs₁
  cases hs
  exact (h.withProblem (Problem.wellFormed_of_replaceData hp)).congr rfl rfl rfl rfl rfl

/-- Every operation keeps a store sound, whether it succeeds or fails. -/
theorem run (h : s.Sound) (op : Op) : (op.run s).2.Sound := by
  -- One case for each operation; those on the problem are in `Problem.WellFormed`.
  cases op with
  | addCol c rows vals => exact h.edit fun _ hp => h.problem.addCol hp
  | addRow r cols vals => exact h.edit fun _ hp => h.problem.addRow hp
  | deleteCols cols => exact h.edit fun _ hp => h.problem.deleteCols hp
  | deleteRows rows => exact h.edit fun _ hp => h.problem.deleteRows hp
  | setElements rows cols vals => exact h.edit fun _ hp => h.problem.setElements hp
  | deleteElements rows cols => exact h.edit fun _ hp => h.problem.deleteElements hp
  | deleteAllElements =>
    exact h.edit fun _ hp => Except.ok.inj hp ▸ h.problem.deleteAllElements
  | setQuadElements cols₁ cols₂ vals => exact h.edit fun _ hp => h.problem.setQuadElements hp
  | deleteQuadElements cols₁ cols₂ => exact h.edit fun _ hp => h.problem.deleteQuadElements hp
  | deleteAllQuadElements =>
    exact h.edit fun _ hp => Except.ok.inj hp ▸ h.problem.deleteAllQuadElements
  | replaceProblem cols rows entries quad =>
    exact h.edit fun _ hp => Problem.wellFormed_of_replaceData hp
  | setIntAttr name index v => exact TaskFile.attempt_invariant h fun _ => h.setIntAttr
  | setRealAttr name index v => exact TaskFile.attempt_invariant h fun _ => h.setRealAttr
  | setStrAttr name index v => exact TaskFile.attempt_invariant h fun _ => h.setStrAttr
  | setParam name v => exact TaskFile.attempt_invariant h fun _ => h.setParam
  | readTask bytes parts =>
    exact TaskFile.loadBytes_invariant bytes parts h (fun _ _ _ hs => hs.applyModel)
      (fun _ _ _ _ hs => hs.setParam) fun _ _ hs => hs.congr rfl rfl rfl rfl rfl
  | setName | setMinSense | setObjConst | setSolution | setIis | invalidate | recordJob | setLog =>
    exact h.congr rfl rfl rfl rfl rfl

end Sound

/-- After any operations a store is sound. -/
theorem sound_afterOps (name : Option String) (ops : List Op) : (afterOps name ops).Sound :=
  foldl_invariant (sound_empty name) fun _ h op _ => h.run op

/-- Every reachable store is sound. -/
theorem Reachable.sound (h : s.Reachable) : s.Sound := by
  obtain ⟨name, ops, rfl⟩ := h
  exact sound_afterOps name ops

end MathProgram.Store

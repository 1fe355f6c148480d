import MathProgram.Proofs.Solver.ModelFile

/-!
# A file read by a new instance

`Reading.ofFile` lists what a library answers when a file is read: to the creation of the instance,
to the request for the file, and to the questions for the sizes and the program. If one of these is
a failure (`Reading.Fails`) nothing comes of it; otherwise the program is received
(`Solver.openModel_cases`), with the names that the library then gives for its columns and rows
(`Solver.Named`).
-/

namespace MathProgram

open SolverM (host)

variable {σ α : Type} [Solver σ]

/-! ## Answers -/

namespace Solver

/-- The state of a library after requests. -/
def after (rs : List Request) (s : σ) : σ := rs.foldl (fun s r => (answer r s).2) s

/-- Of requests one after another, each has an answer as it has to be. -/
def Gives (right : (r : Request) → r.Answer → Prop) : List Request → σ → Prop
  | [], _ => True
  | r :: rs, s => right r (answer r s).1 ∧ Gives right rs (answer r s).2

/-- The answers to some requests and to others after them. -/
theorem gives_append {right : (r : Request) → r.Answer → Prop} {rs rs' : List Request} {s : σ} :
    Gives right (rs ++ rs') s ↔ Gives right rs s ∧ Gives right rs' (after rs s) := by
  induction rs generalizing s with
  | nil => exact (true_and _).symm.to_iff
  | cons r rs ih => exact (and_congr_right fun _ => ih).trans and_assoc.symm

end Solver

/-- What a library answers while a file is read by a new instance, and the state in which the names
are asked for. -/
structure Reading (σ : Type) where
  created : Bool
  code : Int32
  numCols : Int32
  numRows : Int32
  numNonzeros : Int32
  programCode : Int32
  program : RawProgram
  state : σ

namespace Reading

/-- The answers that a library in a state gives. -/
def ofFile (k : InstanceId) (file : String) (s : σ) : Reading σ :=
  let (created, s) : Bool × σ := Solver.answer (.create k) s
  let s := Solver.after
    [.setOption k "output_flag" (.bool false), .setOption k "log_to_console" (.bool false)] s
  let (code, s) : Int32 × σ := Solver.answer (.readModel k file) s
  let (numCols, s) : Int32 × σ := Solver.answer (.numCols k) s
  let (numRows, s) : Int32 × σ := Solver.answer (.numRows k) s
  let (numNonzeros, s) : Int32 × σ := Solver.answer (.numNonzeros k) s
  let ((programCode, program), state) : (Int32 × RawProgram) × σ := Solver.answer (.program k) s
  { created, code, numCols, numRows, numNonzeros, programCode, program, state }

variable {r : Reading σ}

/-- There is no instance, the file cannot be read, a size is negative, or the program is not given
out. -/
def Fails (r : Reading σ) : Prop :=
  r.created = false ∨ r.code = InstanceId.failure ∨
    (r.numCols < 0 ∨ r.numRows < 0 ∨ r.numNonzeros < 0) ∨ r.programCode = InstanceId.failure

/-- The program that is received. -/
def received (r : Reading σ) : LinearProgram :=
  .received r.numCols.toNatClampNeg r.numRows.toNatClampNeg r.numNonzeros.toNatClampNeg r.program

end Reading

/-! ## Steps of reading -/

namespace InstanceId

variable {k : InstanceId}

/-- An option is set. -/
theorem run_setOption (name : String) (value : OptionValue) (h : Host σ) : ∃ h' : Host σ,
    (k.setOption name value).run h = ((), h') ∧
    (Solver.answer (.setOption k name value) h.solver).2 = h'.solver := by
  have hrun (code : Int32) (h : Host σ) : ∃ h' : Host σ,
      (if code == failure then
        Host.record .warn .solverLink "highs" "set_option" "Failed to set option"
          [("status", .text "error"), ("option", .text name)]
        else pure () : HostM σ Unit).run h = ((), h') ∧ h.solver = h'.solver := by
    split <;> exact ⟨_, rfl, rfl⟩
  exact hrun _
    { h with
      requests := h.requests.push (.setOption k name value)
      solver := (Solver.answer (.setOption k name value) h.solver).2 }

/-- The output is switched by two options. -/
theorem run_setOutput (on : Bool) (h : Host σ) : ∃ h' : Host σ,
    (k.setOutput on).run h = ((), h') ∧
    Solver.after [.setOption k "output_flag" (.bool on), .setOption k "log_to_console" (.bool on)]
      h.solver = h'.solver := by
  obtain ⟨h₁, hrun₁, hsolver₁⟩ := run_setOption (k := k) "output_flag" (.bool on) h
  obtain ⟨h₂, hrun₂, hsolver₂⟩ := run_setOption (k := k) "log_to_console" (.bool on) h₁
  refine ⟨h₂, ?_, ?_⟩
  · have hrun : (k.setOutput on).run h = (k.setOption "log_to_console" (.bool on)).run
        ((k.setOption "output_flag" (.bool on)).run h).2 := rfl
    rw [hrun, hrun₁, hrun₂]
  · rw [← hsolver₂, ← hsolver₁]
    rfl

/-- The program of an instance that was asked for its sizes. -/
def programOf? (k : InstanceId) (n m nz : Int32) : HostM σ (Option LinearProgram) := do
  if n < 0 || m < 0 || nz < 0 then return none
  let (code, raw) : Int32 × RawProgram ← Host.ask (.program k)
  if code == failure then return none
  return some (.received n.toNatClampNeg m.toNatClampNeg nz.toNatClampNeg raw)

/-- The sizes are asked for before the program. -/
theorem program?_eq (k : InstanceId) : (k.program? : HostM σ (Option LinearProgram)) =
    Host.ask (.numCols k) >>= fun n => Host.ask (.numRows k) >>= fun m =>
      Host.ask (.numNonzeros k) >>= fun nz => k.programOf? n m nz := rfl

/-- A request is recorded, and the library answers it. -/
theorem run_ask (r : Request) (h : Host σ) : (Host.ask r).run h =
    ((Solver.answer r h.solver).1,
      { h with requests := h.requests.push r, solver := (Solver.answer r h.solver).2 }) := rfl

/-- The program is asked for if no size is negative. -/
theorem run_programOf? {h : Host σ} {n m nz code : Int32} {raw : RawProgram} {s : σ}
    (hprogram : Solver.answer (.program k) h.solver = ((code, raw), s)) : ∃ h' : Host σ,
    (k.programOf? n m nz).run h = (if (n < 0 ∨ m < 0 ∨ nz < 0) ∨ code = failure then none else
      some (.received n.toNatClampNeg m.toNatClampNeg nz.toNatClampNeg raw), h') ∧
    (¬(n < 0 ∨ m < 0 ∨ nz < 0) → s = h'.solver) := by
  unfold programOf?
  by_cases hsizes : n < 0 ∨ m < 0 ∨ nz < 0
  · rw [if_pos (by simpa [or_assoc] using hsizes)]
    refine ⟨h, ?_, fun h => absurd hsizes h⟩
    rw [if_pos (.inl hsizes)]
    rfl
  · rw [if_neg (by simpa [or_assoc] using hsizes)]
    have hask (next : (Request.program k).Answer → HostM σ (Option LinearProgram)) :
        (Host.ask (.program k) >>= next).run h = (next (code, raw)).run
          { h with requests := h.requests.push (.program k), solver := s } := by
      rw [HostM.run_bind, run_ask, hprogram]
    refine ⟨{ h with requests := h.requests.push (.program k), solver := s }, (hask _).trans ?_,
      fun _ => rfl⟩
    by_cases hcode : code = failure
    · rw [if_pos (.inr hcode)]
      dsimp only
      rw [if_pos (beq_iff_eq.2 hcode)]
      rfl
    · rw [if_neg (not_or.2 ⟨hsizes, hcode⟩)]
      dsimp only
      rw [if_neg (mt beq_iff_eq.1 hcode)]
      rfl

/-- The sizes and then the program are asked for. -/
theorem run_program? {h : Host σ} {n m nz code : Int32} {raw : RawProgram} {s₁ s₂ s₃ s₄ : σ}
    (hn : Solver.answer (.numCols k) h.solver = (n, s₁))
    (hm : Solver.answer (.numRows k) s₁ = (m, s₂))
    (hnz : Solver.answer (.numNonzeros k) s₂ = (nz, s₃))
    (hprogram : Solver.answer (.program k) s₃ = ((code, raw), s₄)) : ∃ h' : Host σ,
    k.program?.run h = (if (n < 0 ∨ m < 0 ∨ nz < 0) ∨ code = failure then none else
      some (.received n.toNatClampNeg m.toNatClampNeg nz.toNatClampNeg raw), h') ∧
    (¬(n < 0 ∨ m < 0 ∨ nz < 0) → s₄ = h'.solver) := by
  rw [program?_eq, HostM.run_bind, run_ask, hn]
  dsimp only
  rw [HostM.run_bind, run_ask, hm]
  dsimp only
  rw [HostM.run_bind, run_ask, hnz]
  exact run_programOf? hprogram

/-- Names are asked for one after another. -/
theorem run_names (index : ℕ → Request) (toName : (j : ℕ) → (index j).Answer → Option String)
    (js : List ℕ) (h : Host σ) : ∃ (names : List (Option String)) (h' : Host σ),
    (js.mapM fun j => host do return toName j (← Host.ask (index j)) :
      SolverM σ (List (Option String))).run h = (.ok names, h') ∧
    names.length = js.length ∧ Solver.after (js.map index) h.solver = h'.solver ∧
    ∀ (right : (r : Request) → r.Answer → Prop) (name : ℕ → Option String),
      Solver.Gives right (js.map index) h.solver →
      (∀ j ∈ js, ∀ answer, right (index j) answer → toName j answer = name j) →
      names = js.map name := by
  induction js generalizing h with
  | nil => exact ⟨[], h, rfl, rfl, rfl, fun _ _ _ _ => rfl⟩
  | cons j js ih =>
    obtain ⟨names, h', hrun, hlength, hsolver, hnames⟩ := ih
      { h with
        requests := h.requests.push (index j)
        solver := (Solver.answer (index j) h.solver).2 }
    refine ⟨toName j (Solver.answer (index j) h.solver).1 :: names, h', ?_, ?_, hsolver, ?_⟩
    · have hfirst : (host do return toName j (← Host.ask (index j)) :
          SolverM σ (Option String)).run h = (.ok (toName j (Solver.answer (index j) h.solver).1),
            { h with
              requests := h.requests.push (index j)
              solver := (Solver.answer (index j) h.solver).2 }) := rfl
      rw [List.mapM_cons, SolverM.run_bind, hfirst]
      dsimp only
      rw [SolverM.run_bind, hrun]
      rfl
    · rw [List.length_cons, hlength, List.length_cons]
    · rintro right name ⟨hj, hjs⟩ htoName
      rw [List.map_cons, htoName j (List.mem_cons_self ..) _ hj,
        hnames right name hjs fun j hj => htoName j (List.mem_cons_of_mem _ hj)]

omit [Solver σ] in
/-- A request whose code is known. -/
theorem run_orFail_of_eq {e : ResultCode} {request : HostM σ Int32} {h h' : Host σ} {code : Int32}
    (hrequest : request.run h = (code, h')) :
    (orFail e request).run h = (if code = failure then .error e else .ok (), h') := by
  rw [run_orFail, hrequest]
  simp only [beq_iff_eq]

/-- A file is asked for if the library can be told its name. -/
theorem run_readModel {file : String} {h : Host σ} {code : Int32} {s : σ}
    (hread : Solver.answer (.readModel k file) h.solver = (code, s)) : ∃ h' : Host σ,
    (k.readModel file).run h = (if passable file = false ∨ code = failure
      then .error .fileReadError else .ok (), h') ∧ (passable file = true → s = h'.solver) := by
  have hmodel : (k.readModel file : SolverM σ Unit) = if passable file then
      orFail .fileReadError (Host.ask (.readModel k file)) else throw .fileReadError := rfl
  rw [hmodel]
  by_cases hfile : passable file = true
  · let h' : Host σ := { h with requests := h.requests.push (.readModel k file), solver := s }
    have hask : (Host.ask (.readModel k file)).run h = (code, h') := by
      rw [run_ask, hread]
      rfl
    refine ⟨h', ?_, fun _ => rfl⟩
    rw [if_pos hfile]
    refine (run_orFail_of_eq hask).trans ?_
    simp only [hfile, Bool.true_eq_false, false_or]
  · rw [if_neg hfile, if_pos (.inl (Bool.eq_false_of_not_eq_true hfile))]
    exact ⟨h, rfl, fun h => absurd h hfile⟩

end InstanceId

namespace Solver

open InstanceId

/-- The requests for the names of `n` columns and `m` rows. -/
def naming (k : InstanceId) (n m : ℕ) : List Request :=
  (List.range n).map (fun j => .colName k (Int32.ofNat j)) ++
    (List.range m).map fun i => .rowName k (Int32.ofNat i)

/-- Names of the columns and rows of a program, as a library in a state gives them when it is asked.
There is one for each row; and if all answers are right, they are the names that right answers stand
for. -/
structure Named (k : InstanceId) (p : LinearProgram) (s : σ)
    (colNames rowNames : List (Option String)) : Prop where
  length : rowNames.length = p.numRows
  given : ∀ (right : (r : Request) → r.Answer → Prop) (colName rowName : ℕ → Option String),
    Gives right (naming k p.numCols p.numRows) s →
    (∀ j < p.numCols, ∀ a, right (.colName k (Int32.ofNat j)) a → nameOf a = colName j) →
    (∀ i < p.numRows, ∀ a, right (.rowName k (Int32.ofNat i)) a → nameOf a = rowName i) →
    colNames = (List.range p.numCols).map colName ∧ rowNames = (List.range p.numRows).map rowName

/-- The names are asked for at the end of a reading, which does not fail any more. -/
theorem run_naming (k : InstanceId) (p : LinearProgram) (h : Host σ) : ∃ colNames rowNames h',
    (do
      let colNames ← (List.range p.numCols).mapM fun j => host (k.colName? j)
      let rowNames ← (List.range p.numRows).mapM fun i => host (k.rowName? i)
      return (k, ⟨p, colNames, rowNames⟩) : SolverM σ (InstanceId × ModelFile)).run h =
        (.ok (k, ⟨p, colNames, rowNames⟩), h') ∧
    Named k p h.solver colNames rowNames := by
  obtain ⟨colNames, h₁, hrunCols, -, hstate, hcolNames⟩ :=
    run_names (fun j => .colName k (Int32.ofNat j)) (fun _ => nameOf) (List.range p.numCols) h
  obtain ⟨rowNames, h₂, hrunRows, hlength, -, hrowNames⟩ :=
    run_names (fun i => .rowName k (Int32.ofNat i)) (fun _ => nameOf) (List.range p.numRows) h₁
  refine ⟨colNames, rowNames, h₂, ?_, ?_, ?_⟩
  · have hcols : ((List.range p.numCols).mapM fun j => host (k.colName? j)).run h =
        (.ok colNames, h₁) := hrunCols
    have hrows : ((List.range p.numRows).mapM fun i => host (k.rowName? i)).run h₁ =
        (.ok rowNames, h₂) := hrunRows
    rw [SolverM.run_bind, hcols]
    dsimp only
    rw [SolverM.run_bind, hrows]
    rfl
  · rw [hlength, List.length_range]
  · rintro right colName rowName hgives hcols hrows
    obtain ⟨hgivesCols, hgivesRows⟩ := gives_append.1 hgives
    exact ⟨hcolNames right colName hgivesCols fun j hj => hcols j (List.mem_range.1 hj),
      hrowNames right rowName (hstate ▸ hgivesRows) fun i hi => hrows i (List.mem_range.1 hi)⟩

/-- An instance is created, or it is not, as the library answers. -/
theorem run_create?_answer (h : Host σ) : ∃ (created : Bool) (h' : Host σ),
    create?.run h = (if created then some h.instances else none, h') ∧
    answer (.create h.instances) h.solver = (created, h'.solver) := by
  obtain ⟨created, solver, journal, hcreate, hrun⟩ := run_create? h
  refine ⟨created, (create?.run h).2, ?_, ?_⟩ <;> rw [hrun]
  · cases created <;> rfl
  · rw [hcreate]
    cases created <;> rfl

/-- Having a file read fails with a code other than zero, or the program is received with the names
of its columns and rows. -/
theorem openModel_cases (file : String) (h : Host σ) :
    let r := Reading.ofFile h.instances file h.solver
    ((passable file = false ∨ r.Fails) ∧ ∃ err h', (openModel file).run h = (.error err, h') ∧
      err.code ≠ ResultCode.okay.code) ∨
    (passable file = true ∧ ¬r.Fails) ∧ ∃ colNames rowNames h',
      (openModel file).run h = (.ok (h.instances, ⟨r.received, colNames, rowNames⟩), h') ∧
      Named h.instances r.received r.state colNames rowNames := by
  obtain ⟨created, h₁, hrunCreate, hcreate⟩ := run_create?_answer h
  obtain ⟨h₂, hrunOutput, houtput⟩ := run_setOutput (k := h.instances) false h₁
  obtain ⟨code, s₃, hread⟩ : ∃ (code : Int32) (s₃ : σ),
      answer (.readModel h.instances file) h₂.solver = (code, s₃) := ⟨_, _, rfl⟩
  obtain ⟨n, s₄, hn⟩ : ∃ (n : Int32) (s₄ : σ), answer (.numCols h.instances) s₃ = (n, s₄) :=
    ⟨_, _, rfl⟩
  obtain ⟨m, s₅, hm⟩ : ∃ (m : Int32) (s₅ : σ), answer (.numRows h.instances) s₄ = (m, s₅) :=
    ⟨_, _, rfl⟩
  obtain ⟨nz, s₆, hnz⟩ : ∃ (nz : Int32) (s₆ : σ),
      answer (.numNonzeros h.instances) s₅ = (nz, s₆) := ⟨_, _, rfl⟩
  obtain ⟨programCode, raw, s₇, hprogram⟩ : ∃ (code : Int32) (raw : RawProgram) (s₇ : σ),
      answer (.program h.instances) s₆ = ((code, raw), s₇) := ⟨_, _, _, rfl⟩
  have hr : Reading.ofFile h.instances file h.solver =
      ⟨created, code, n, m, nz, programCode, raw, s₇⟩ := by
    simp only [Reading.ofFile, hcreate, houtput, hread, hn, hm, hnz, hprogram]
  rw [hr]
  intro r
  rw [openModel, SolverM.run_bind, SolverM.run_host, hrunCreate]
  cases created with
  | false => exact .inl ⟨.inr (.inl rfl), .noMemory, _, rfl, by decide⟩
  | true =>
    obtain ⟨h₃, hrunRead, hstate₃⟩ := run_readModel hread
    dsimp only
    rw [if_pos rfl]
    dsimp only
    rw [run_destroyedOnFailure, SolverM.run_bind, SolverM.run_host, hrunOutput]
    dsimp only
    rw [SolverM.run_bind, hrunRead]
    by_cases hunread : passable file = false ∨ code = failure
    · rw [if_pos hunread]
      exact .inl ⟨hunread.imp_right fun h => .inr (.inl h), .fileReadError, _, rfl, by decide⟩
    · rw [if_neg hunread]
      dsimp only
      obtain ⟨hfile, hcode⟩ := not_or.1 hunread
      have hpassable := Bool.eq_true_of_not_eq_false hfile
      rw [hstate₃ hpassable] at hn
      obtain ⟨h₄, hrunProgram, hstate₄⟩ := run_program? hn hm hnz hprogram
      rw [SolverM.run_bind, SolverM.run_host, hrunProgram]
      by_cases hrefused : (n < 0 ∨ m < 0 ∨ nz < 0) ∨ programCode = InstanceId.failure
      · rw [if_pos hrefused]
        exact .inl ⟨.inr (.inr (.inr hrefused)), .formatError, _, rfl, by decide⟩
      · rw [if_neg hrefused]
        dsimp only
        obtain rfl := hstate₄ (not_or.1 hrefused).1
        -- What is left is to ask for the names.
        obtain ⟨colNames, rowNames, h₅, hrunNames, hnamed⟩ := run_naming h.instances
          (.received n.toNatClampNeg m.toNatClampNeg nz.toNatClampNeg raw) h₄
        refine .inr ⟨⟨hpassable, ?_⟩, colNames, rowNames, h₅, ?_, hnamed⟩
        · rintro (hcreated | hread | hfails)
          · cases hcreated
          · exact hcode hread
          · exact hrefused hfails
        · rw [hrunNames]
          rfl

end Solver

end MathProgram

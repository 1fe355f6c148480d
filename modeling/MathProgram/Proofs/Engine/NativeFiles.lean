import MathProgram.Proofs.Engine.Findings
import MathProgram.Proofs.Solver.Reading
import MathProgram.Solver.Scripted

/-!
# Problem files that the solver library reads

An engine with a solver leaves a problem file to the library, and puts in place what it hands back.
If that is what is passed for a problem (`Reading.HandsBack`), the engine has this problem
afterwards with its bounds clamped and without a quadratic form, and nothing else of it has changed.
If the library fails, or hands back a row that does not exist (`Reading.Refused`), the engine is as
before.
-/

namespace MathProgram

open InstanceId (passable failure)

variable {σ : Type} [Solver σ]

/-- A problem that can be passed and handed back: it is well-formed, its columns, rows and nonzeros
are counted in 32 bits, and its names can be passed. -/
structure Problem.Transferable (p : Problem) : Prop where
  wellFormed : p.WellFormed
  numCols : p.numCols < 2 ^ 31
  numRows : p.numRows < 2 ^ 31
  size : p.matrix.size < 2 ^ 31
  colNames : ∀ c ∈ p.cols, ∀ name, c.name = some name → Transmissible name
  rowNames : ∀ r ∈ p.rows, ∀ name, r.name = some name → Transmissible name

namespace Reading

/-- The names that a problem has. -/
def GivesNames (p : Problem) : (r : Request) → r.Answer → Prop
  | .colName _ j, answer => GivesName answer (p.cols[j.toNatClampNeg]?.bind (·.name))
  | .rowName _ i, answer => GivesName answer (p.rows[i.toNatClampNeg]?.bind (·.name))
  | _, _ => True

/-- The library reads a file and hands back what is passed for a problem. -/
structure HandsBack (r : Reading σ) (k : InstanceId) (p : Problem) : Prop where
  created : r.created = true
  code : r.code ≠ failure
  numCols : r.numCols = Int32.ofNat p.numCols
  numRows : r.numRows = Int32.ofNat p.numRows
  numNonzeros : r.numNonzeros = Int32.ofNat p.matrix.size
  programCode : r.programCode ≠ failure
  program : r.program.Carries (.ofProblem p)
  names : Solver.Gives (GivesNames p) (Solver.naming k p.numCols p.numRows) r.state

/-- The library fails, or hands back an index that is not that of a row in arrays that are fine
otherwise. -/
inductive Refused (file : String) (r : Reading σ) : Prop
  | unpassable (h : passable file = false)
  | fails (h : r.Fails)
  | misplaced (htiles : Tiles r.received.asRead.starts r.received.numCols r.received.numNonzeros)
    {i : Int32} (hi : i ∈ r.received.indexes) (hrow : i < 0 ∨ (r.received.numRows : ℤ) ≤ i.toInt)

end Reading

/-- A store with a problem in place that the library has handed back. -/
def Store.taken (s : Store) (p : Problem) : Store :=
  { s with
    problem :=
      { name := s.problem.name
        minSense := p.minSense
        objConst := p.objConst
        cols := p.cols.map ColData.clamped
        rows := p.rows.map RowData.clamped
        matrix := p.matrix
        quad := .empty }
    solution := {}
    iis := none }

/-- What is made of the program and the names that were handed back, put in place, is the problem.
-/
theorem Problem.Transferable.edit_received {p : Problem} (h : p.Transferable) (s : Store) :
    let f : ModelFile := ⟨.ofProblem p, p.cols.map (·.name), p.rows.map (·.name)⟩
    ∃ entries, f.entries? = some entries ∧
      (do
        let s ← s.edit fun q => q.replaceData f.cols f.rows entries []
        return (s.setMinSense f.program.minSense).setObjConst f.program.offset) =
          Except.ok (ε := ResultCode) (s.taken p) := by
  intro f
  obtain ⟨entries, hentries, hdata⟩ :=
    h.wellFormed.replaceData_received h.numRows h.size s.problem
  refine ⟨entries, hentries, ?_⟩
  rw [Store.edit, hdata]
  rfl

namespace Reading

variable {r : Reading σ} {p : Problem} {k : InstanceId}

/-- The program that is received is the one that is handed back. -/
theorem HandsBack.received (h : r.HandsBack k p) (hp : p.Transferable) :
    r.received = .ofProblem p := by
  have hnat {n : ℕ} (hn : n < 2 ^ 31) : (Int32.ofNat n).toNatClampNeg = n :=
    Int32.toNatClampNeg_ofNat_of_lt hn
  rw [Reading.received, h.numCols, h.numRows, h.numNonzeros, hnat hp.numCols, hnat hp.numRows,
    hnat hp.size, hp.wellFormed.represented.received h.program]

/-- What hands a problem back does not fail. -/
theorem HandsBack.not_fails (h : r.HandsBack k p) (hp : p.Transferable) : ¬r.Fails := by
  have hle {n : ℕ} (hn : n < 2 ^ 31) : ¬Int32.ofNat n < 0 := by
    rw [Int32.lt_iff_toInt_lt, toInt_ofNat hn, Int32.toInt_zero]
    omega
  rintro (hcreated | hcode | (hcols | hrows | hsize) | hprogram)
  · exact absurd (h.created.symm.trans hcreated) (by decide)
  · exact h.code hcode
  · exact hle hp.numCols (h.numCols ▸ hcols)
  · exact hle hp.numRows (h.numRows ▸ hrows)
  · exact hle hp.size (h.numNonzeros ▸ hsize)
  · exact h.programCode hprogram

/-- A list, looked up index by index. -/
theorem map_getElem?_bind {α β : Type} (xs : List α) (f : α → Option β) :
    (List.range xs.length).map (fun j => xs[j]?.bind f) = xs.map f := by
  refine List.ext_getElem (by simp) fun j hj hj' => ?_
  have hlt : j < xs.length := by simpa using hj'
  simp [hlt]

/-- The names that are received are the ones that are handed back. -/
theorem HandsBack.names_eq (h : r.HandsBack k p) (hp : p.Transferable)
    {colNames rowNames : List (Option String)}
    (hnamed : Solver.Named k r.received r.state colNames rowNames) :
    p.cols.map (·.name) = colNames ∧ p.rows.map (·.name) = rowNames := by
  have hcols : (LinearProgram.ofProblem p).numCols = p.numCols := List.length_map ..
  have hrows : (LinearProgram.ofProblem p).numRows = p.numRows := List.length_map ..
  have hnat {n : ℕ} (hn : n < 2 ^ 31) : (Int32.ofNat n).toNatClampNeg = n :=
    Int32.toNatClampNeg_ofNat_of_lt hn
  have hgiven := hnamed.given
  rw [h.received hp, hcols, hrows] at hgiven
  obtain ⟨rfl, rfl⟩ := hgiven (GivesNames p) (fun j => p.cols[j]?.bind (·.name))
    (fun i => p.rows[i]?.bind (·.name)) h.names
    (fun j hj a ha => by
      refine nameOf_eq (hnat (hj.trans hp.numCols) ▸ ha) fun name hname => ?_
      obtain ⟨c, hc, hname⟩ := Option.bind_eq_some_iff.1 hname
      exact hp.colNames c (List.mem_of_getElem? hc) name hname)
    (fun i hi a ha => by
      refine nameOf_eq (hnat (hi.trans hp.numRows) ▸ ha) fun name hname => ?_
      obtain ⟨c, hc, hname⟩ := Option.bind_eq_some_iff.1 hname
      exact hp.rowNames c (List.mem_of_getElem? hc) name hname)
  exact ⟨(map_getElem?_bind ..).symm, (map_getElem?_bind ..).symm⟩

omit [Solver σ] in
/-- There are as many indexes as values. -/
theorem length_indexes (r : Reading σ) : r.received.indexes.length = r.received.numNonzeros :=
  (length_resized ..).trans (length_resized ..).symm

omit [Solver σ] in
/-- A row that does not exist has an index that is too large for the rows received. -/
theorem misplaced_rows (r : Reading σ) {colNames rowNames : List (Option String)} {i : Int32}
    (hlength : rowNames.length = r.received.numRows)
    (hrow : i < 0 ∨ (r.received.numRows : ℤ) ≤ i.toInt) :
    (ModelFile.rows ⟨r.received, colNames, rowNames⟩).length ≤ indexOfInt32 i := by
  have hnum : r.received.numRows = r.numRows.toNatClampNeg := length_resized ..
  have hupper : r.received.rowUpper.length = r.numRows.toNatClampNeg := length_resized ..
  have hsmall : r.received.numRows < 2 ^ 31 := by
    rw [hnum]
    exact Int32.toNatClampNeg_lt _
  have hrows : (ModelFile.rows ⟨r.received, colNames, rowNames⟩).length = r.received.numRows := by
    rw [ModelFile.rows, List.length_map, List.length_zip, List.length_zip, hlength, hupper, ← hnum,
      min_self]
    exact min_self _
  rw [hrows]
  exact le_indexOfInt32 hsmall hrow

end Reading

namespace Engine

open EngineM (host)

/-! ## Runs -/

/-- An engine with a solver and without a script leaves a file to the library. -/
theorem run_readProb_native {e : Engine} (hbackend : e.backend = .solver)
    (hscript : e.scripted = false) {file : String} (hnative : file.endsWith ".json" = false)
    (h : Host σ) : (readProb file).run e h = (readNative file).run e h := by
  have hfault : (fault? .readProb).run e h = ((none, e), h) := by
    have hrun : (fault? .readProb).run e h = (if e.scripted then host (Host.fault? .readProb)
        else pure none : EngineM σ (Option Int32)).run e h := rfl
    rw [hrun, hscript]
    rfl
  have hget (next : Engine → EngineM σ (Option Int32)) :
      (get >>= next).run e h = (next e).run e h := rfl
  have hkeeps : ¬e.keepsFile file = true := by
    rw [keepsFile, hbackend]
    exact Bool.eq_false_iff.1 hnative
  rw [readProb, EngineM.run_bind, hfault]
  dsimp only
  rw [hget, if_neg hkeeps]

/-- A file that the library does not read leaves the engine as it is. -/
theorem run_readNative_of_error {file : String} {e : Engine} {h h' : Host σ} {err : ResultCode}
    (hopen : (Solver.openModel file).run h = (.error err, h')) :
    (readNative file).run e h = ((some err.code, e), h') := by
  have hrun : (host (Solver.openModel file).run : EngineM σ _).run e h =
      ((((Solver.openModel file).run h).1, e), ((Solver.openModel file).run h).2) := rfl
  rw [readNative, EngineM.run_bind, hrun, hopen]
  rfl

/-- What the library has read is put in place. -/
theorem run_readNative_of_ok {file : String} {e : Engine} {h h' : Host σ} {k : InstanceId}
    {f : ModelFile} (hopen : (Solver.openModel file).run h = (.ok (k, f), h')) :
    ((readNative file).run e h).1 = ((adopt file f).run e h').1 := by
  have hrun : (host (Solver.openModel file).run : EngineM σ _).run e h =
      ((((Solver.openModel file).run h).1, e), ((Solver.openModel file).run h).2) := rfl
  rw [readNative, EngineM.run_bind, hrun, hopen]
  rfl

/-- A problem that can be put in place is, and the instance is given up. -/
theorem run_adopt_of_ok {file : String} {f : ModelFile} {e : Engine} {s : Store}
    {entries : List (ℕ × ℕ × Float)} (hentries : f.entries? = some entries)
    (hs : (do
      let s ← e.store.edit fun p => p.replaceData f.cols f.rows entries []
      return (s.setMinSense f.program.minSense).setObjConst f.program.offset) =
        Except.ok (ε := ResultCode) s) (h : Host σ) :
    ((adopt file f).run e h).1 =
      (some ResultCode.okay.code, { e with store := s, keeper := none }) := by
  unfold adopt
  rw [hentries]
  dsimp only
  rw [EngineM.run_bind, run_changeStore, TaskFile.attempt]
  dsimp only
  rw [hs]
  dsimp only
  have hokay : (codeOf (Except.ok s : Except ResultCode Store) == ResultCode.okay.code) = true :=
    rfl
  rw [if_pos hokay, EngineM.run_bind, run_releaseKeeper]
  rfl

/-- A problem that cannot be put in place leaves the engine as it is. -/
theorem run_adopt_of_error {file : String} {f : ModelFile} {e : Engine}
    {entries : List (ℕ × ℕ × Float)} (hentries : f.entries? = some entries)
    (hdata : e.store.problem.replaceData f.cols f.rows entries [] = .error .modelInputError)
    (h : Host σ) :
    ((adopt file f).run e h).1 = (some ResultCode.modelInputError.code, e) := by
  unfold adopt
  rw [hentries]
  dsimp only
  rw [EngineM.run_bind, run_changeStore, TaskFile.attempt, Store.edit, hdata]
  rfl

/-- An engine with a solver reads problem files of the library: a problem that can be passed and is
handed back is put in place with its bounds clamped and without a quadratic form, while the name,
the parameters, the jobs and the log of the engine stay; and when the library fails, or hands back a
row that does not exist, the code is not zero and the engine is as before. -/
theorem native_file_round_trip {e : Engine} (hbackend : e.backend = .solver)
    (hscript : e.scripted = false) {file : String} (hnative : file.endsWith ".json" = false)
    (h : Host σ) :
    let r := Reading.ofFile h.instances file h.solver
    (∀ p : Problem, p.Transferable → passable file = true → r.HandsBack h.instances p →
      ((readProb file).run e h).1 =
        (some ResultCode.okay.code, { e with store := e.store.taken p, keeper := none })) ∧
    (r.Refused file → ∃ code ≠ ResultCode.okay.code,
      ((readProb file).run e h).1 = (some code, e)) := by
  intro r
  rw [run_readProb_native hbackend hscript hnative]
  refine ⟨fun p hp hfile hback => ?_, fun hrefused => ?_⟩
  · rcases Solver.openModel_cases file h with
      ⟨hbad, -⟩ | ⟨-, colNames, rowNames, h', hopen, hnamed⟩
    · obtain hunpassable | hfails := hbad
      · exact absurd (hfile.symm.trans hunpassable) (by decide)
      · exact absurd hfails (hback.not_fails hp)
    · obtain ⟨rfl, rfl⟩ := hback.names_eq hp hnamed
      obtain ⟨entries, hentries, hedit⟩ := hp.edit_received e.store
      rw [run_readNative_of_ok hopen]
      exact run_adopt_of_ok (hback.received hp ▸ hentries) (hback.received hp ▸ hedit) h'
  · rcases Solver.openModel_cases file h with
      ⟨-, err, h', hopen, herr⟩ | ⟨⟨hpassable, hreads⟩, colNames, rowNames, h', hopen, hnamed⟩
    · exact ⟨err.code, herr, congrArg Prod.fst (run_readNative_of_error hopen)⟩
    · cases hrefused with
      | unpassable hunpassable => exact absurd (hpassable.symm.trans hunpassable) (by decide)
      | fails hfails => exact absurd hfails hreads
      | misplaced htiles hi hrow =>
        obtain ⟨entries, hentries, hdata⟩ :=
          ModelFile.replaceData_misplaced (f := ⟨r.received, colNames, rowNames⟩) htiles
            r.length_indexes hi (r.misplaced_rows hnamed.length hrow) e.store.problem
        rw [run_readNative_of_ok hopen]
        exact ⟨_, by decide, run_adopt_of_error hentries hdata h'⟩

/-- Two columns, of which one is integer and one has an infinite bound and a name, and a row. -/
def smallProblem : Problem where
  name := "small"
  minSense := false
  objConst := 1
  cols := [⟨0, 1e30, 2, false, some "x"⟩, ⟨-1, 3, 0, true, none⟩]
  rows := [⟨1, 1, some "r"⟩]
  matrix :=
    { byCol := ⟨[((1, 0), 5)], by simp [Sparse.Sorted]⟩
      byRow := ⟨[((0, 1), 5)], by simp [Sparse.Sorted]⟩ }
  quad := .empty

/-- A library that hands back the small problem when it reads a file. -/
def smallLibrary : ScriptedSolver where
  files := [{
    code := 0
    program :=
      { sense := -1
        offset := 1
        cost := [2, 0]
        lower := [0, -1]
        upper := [1.0 / 0.0, 3]
        rowLower := [1]
        rowUpper := [1]
        starts := [0, 0]
        indexes := [0]
        values := [5]
        integrality := [0, 1] }
    numCols := 2
    numRows := 1
    numNonzeros := 1
    colNames := [some (Utf8.bytes "x"), none]
    rowNames := [some (Utf8.bytes "r")] }]

/-- An engine reads the small problem, and reads nothing when no instance can be created. -/
theorem native_file_round_trip_small :
    let e := Engine.empty .solver false (some "mine")
    ((readProb "p.mps").run e ({ solver := smallLibrary } : Host ScriptedSolver)).1 =
      (some ResultCode.okay.code, { e with store := e.store.taken smallProblem, keeper := none }) ∧
    ∃ code ≠ ResultCode.okay.code,
      ((readProb "p.mps").run e
        ({ solver := { smallLibrary with codes := [("create", -1)] } } : Host ScriptedSolver)).1 =
          (some code, e) := by
  intro e
  have hnative : "p.mps".endsWith ".json" = false := by decide +kernel
  have htransferable : smallProblem.Transferable := {
    wellFormed :=
      { matrix :=
          { transposed := fun i j => by
              refine Option.ext fun v => ?_
              rw [Sparse.get?_eq_some_iff, Sparse.get?_eq_some_iff]
              simp only [smallProblem, List.mem_singleton, Prod.mk.injEq, and_comm]
            entry := fun i j v hv => by
              have hmem := Sparse.get?_eq_some_iff.1 hv
              simp only [smallProblem, List.mem_singleton, Prod.mk.injEq] at hmem
              obtain ⟨⟨rfl, rfl⟩, rfl⟩ := hmem
              exact ⟨by decide, by decide, settled_of_ne_zero (by decide)⟩ }
        quad := fun _ _ _ hv => nomatch hv }
    numCols := by decide
    numRows := by decide
    size := by decide
    colNames := fun c hc name hname => by
      simp only [smallProblem, List.mem_cons, List.not_mem_nil, or_false] at hc
      obtain rfl | rfl := hc <;> cases hname
      exact ⟨by decide, by decide, by decide⟩
    rowNames := fun r hr name hname => by
      obtain rfl := List.mem_singleton.1 hr
      cases hname
      exact ⟨by decide, by decide, by decide⟩ }
  have hback : (Reading.ofFile 0 "p.mps" smallLibrary).HandsBack 0 smallProblem := {
    created := rfl
    code := by decide
    numCols := rfl
    numRows := rfl
    numNonzeros := rfl
    programCode := by decide
    program := ⟨rfl, rfl, rfl, rfl, by decide +kernel, rfl, rfl, rfl, rfl, rfl, rfl⟩
    names := by
      have hbytes (s : String) (hs : (Utf8.bytes s).length ≤ 512) :
          (Utf8.bytes s).take ScriptedSolver.maxNameLength = Utf8.bytes s :=
        List.take_of_length_le hs
      exact ⟨⟨by decide, .inl (hbytes "x" (by decide))⟩, .inl rfl,
        ⟨by decide, .inl (hbytes "r" (by decide))⟩, trivial⟩ }
  have hrefused : (Reading.ofFile 0 "p.mps"
      { smallLibrary with codes := [("create", -1)] }).Refused "p.mps" :=
    .fails (.inl (by decide))
  exact ⟨(native_file_round_trip rfl rfl hnative { solver := smallLibrary }).1 smallProblem
      htransferable (by cbv) hback,
    (native_file_round_trip rfl rfl hnative
      { solver := { smallLibrary with codes := [("create", -1)] } }).2 hrefused⟩

end Engine

end MathProgram

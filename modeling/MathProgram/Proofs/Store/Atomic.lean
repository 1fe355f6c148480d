import MathProgram.Proofs.Indexing
import MathProgram.Proofs.Store.Procedures
import MathProgram.Store.Queries

/-!
# Operations that fail

What reads a store writes its results into outputs. `Query.exec_procedure` says that a reading in
place ends with the answer written, or with a result code and the outputs as they were. The
fetching of lines is the exception, as it tells how many entries there are before it finds that the
buffers are short of them.

With the operations that change a store, run in place, this makes `failures_change_nothing`: where a
code other than that of success comes back, what was given is what is left.
-/

namespace MathProgram.Store

open Procedure

namespace Query

/-- How a reading ends: with the value in the output, or with a code and the output as it was. -/
def delivered {α : Type} (r : Except ResultCode α) (out : α) : Except ResultCode Unit × α :=
  match r with
  | .ok v => (.ok (), v)
  | .error e => (.error e, out)

/-- Filling the front of a buffer that is long enough. -/
theorem exec_fill {α β : Type} (xs : List α) (value : α → β) {buffer : List β}
    (h : xs.length ≤ buffer.length) :
    (fill xs value).exec buffer = (.ok (), overwrite (xs.map value) buffer) := by
  have hstep (e : α × ℕ) : Straight (change fun bs : List β => bs.modify e.2 fun _ => value e.1)
      (id fun bs => bs.modify e.2 fun _ => value e.1) := straight_change _
  have hloop : Straight (fill xs value) (id fun buffer =>
      xs.zipIdx.foldl (fun buffer e => buffer.modify e.2 fun _ => value e.1) buffer) := by
    refine Straight.forM ?_ ?_ hstep xs.zipIdx
    · exact fun _ => rfl
    · exact fun _ _ _ => rfl
  rw [hloop]
  refine congrArg (Prod.mk _) ?_
  clear hloop
  induction xs using List.reverseRecOn with
  | nil => rfl
  | append_singleton xs x ih =>
    rw [List.length_append, List.length_singleton] at h
    -- The last value goes to the first place that those before it do not reach.
    have hfree : (xs.map value).length < buffer.length := by simpa using h
    have hlast := update?_overwrite (xs.map value) hfree (value x)
    rw [update?, if_pos (by simp [overwrite]; omega), List.length_map] at hlast
    have hprefix := ih (Nat.le_of_succ_le h)
    dsimp only [id] at hprefix ⊢
    rw [List.zipIdx_append, List.foldl_append, hprefix, List.map_append]
    simpa using Option.some.inj hlast

/-- Reading values at positions in place. -/
theorem exec_readPlaces {checked : Except ResultCode Unit} {positions : List IndexPair}
    {places : List ℕ} (h : ∀ u, checked = .ok u → positions.length = places.length)
    (value : IndexPair → Float) (vals : List Float) :
    (readPlaces checked positions places.length value).exec vals =
      delivered (do checked; Problem.checkValues places vals; return positions.map value) vals := by
  rw [readPlaces, exec_orLeave]
  cases hchecked : checked with
  | error e => rfl
  | ok u =>
    dsimp only [Problem.checkValues]
    rw [exec_check]
    split_ifs with hlength
    · rfl
    · have hn : positions.length = vals.length := (h u hchecked).trans (not_not.1 hlength).symm
      rw [exec_fill _ _ hn.le, overwrite, List.length_map, hn, List.drop_length, List.append_nil]
      rfl

/-- Positions that pass the check are as many as the rows. -/
theorem length_zip_of_checkPositions {p : Problem} {rows cols : List ℕ} {u : Unit}
    (h : p.checkPositions rows cols = .ok u) : (rows.zip cols).length = rows.length := by
  unfold Problem.checkPositions at h
  split_ifs at h with hlength
  rw [List.length_zip, not_not.1 hlength, min_self]

/-- Positions of the quadratic form that pass the check are as many as the first columns. -/
theorem length_zip_of_checkQuadPositions {p : Problem} {cols₁ cols₂ : List ℕ} {u : Unit}
    (h : p.checkQuadPositions cols₁ cols₂ = .ok u) :
    (cols₁.zip cols₂).length = cols₁.length := by
  unfold Problem.checkQuadPositions at h
  split_ifs at h with hlength
  rw [List.length_zip, not_not.1 hlength, min_self]

/-- Reading a value in place. -/
theorem exec_readValue {α : Type} (r : Except ResultCode α) (out : α) :
    (readValue r).exec out = delivered r out := by
  rw [readValue, exec_orLeave]
  cases r <;> rfl

/-- Reading a parameter in place. -/
theorem exec_readParam (s : Store) (name : String) (out : ParamValue) :
    (readParam s name).exec out = delivered (s.params.getTyped name out.type) out := by
  unfold readParam ParamTable.getTyped
  cases s.params.get? name with
  | none => rfl
  | some v =>
    dsimp only
    rw [exec_check, ite_not]
    split_ifs <;> rfl

/-- Reading in place ends with the answer delivered. -/
theorem exec_procedure (s : Store) (q : Query) (out : q.Output) :
    (q.procedure s).exec out = delivered (q.answer s out) out := by
  cases q with
  | elements rows cols => exact exec_readPlaces (fun _ hu => length_zip_of_checkPositions hu) _ _
  | quadElements cols₁ cols₂ =>
    exact exec_readPlaces (fun _ hu => length_zip_of_checkQuadPositions hu) _ _
  | intAttr name index => exact exec_readValue _ _
  | realAttr name index => exact exec_readValue _ _
  | strAttr name index => exact exec_readValue _ _
  | param name => exact exec_readParam s name _
  | job id =>
    dsimp only [procedure, answer, readJob, job?]
    cases s.jobs.find? (·.id == id) <;> rfl

end Query

/-! ## Fetching lines -/

/-- How a call ends that gives a code. -/
def ended (code : ResultCode) : Except ResultCode Unit :=
  if code = .okay then .ok () else .error code

/-- Fetching lines in place gives the code and the buffers that fetching them gives. -/
theorem exec_fetchProcedure (lines : Sparse Float) (n : ℕ) {invalidIndex : ResultCode}
    (hinvalid : invalidIndex ≠ .okay) (wanted : List ℕ) (b : LineBuffers) :
    (fetchProcedure lines n invalidIndex wanted).exec b =
      (ended (Problem.fetchLines lines n invalidIndex wanted b).1,
        (Problem.fetchLines lines n invalidIndex wanted b).2) := by
  have hfetch := Problem.fetchLines?_eq lines n invalidIndex wanted b
  rw [Problem.fetchLines?] at hfetch
  rw [fetchProcedure, exec_check]
  by_cases hany : wanted.any (n ≤ ·) = true
  · rw [if_pos hany] at hfetch ⊢
    rw [← Option.some.inj hfetch, ended, if_neg hinvalid]
  · rw [if_neg hany] at hfetch ⊢
    dsimp only at hfetch ⊢
    rw [(straight_change _).exec_bind, exec_get]
    cases hempty : b.starts.isEmpty with
    | true =>
      rw [hempty, if_pos rfl] at hfetch
      rw [← Option.some.inj hfetch]
      rfl
    | false =>
      rw [hempty, if_neg Bool.false_ne_true] at hfetch
      -- There are places for starts, so the first one is in range.
      have hstarts : 0 < b.starts.length := by
        rw [List.length_pos_iff]
        rintro hnil
        rw [hnil] at hempty
        cases hempty
      refine (exec_check _ _ _ _).trans ?_
      dsimp only
      split_ifs with hroom
      · rw [if_pos hroom] at hfetch
        rw [← Option.some.inj hfetch]
        rfl
      · rw [if_neg hroom, update?_of_lt hstarts, Option.bind_eq_bind, Option.bind_some] at hfetch
        rw [(straight_change _).exec_bind, straight_change]
        obtain ⟨w, hw, heq⟩ := Option.bind_eq_some_iff.1 hfetch
        dsimp only
        rw [hw, ← Option.some.inj heq]
        rfl

/-- A fetch that fails changes no buffer; it may tell the size. -/
theorem fetchLines_failed {lines : Sparse Float} {n : ℕ} {invalidIndex : ResultCode}
    {wanted : List ℕ} {b : LineBuffers}
    (h : (Problem.fetchLines lines n invalidIndex wanted b).1 ≠ .okay) :
    (Problem.fetchLines lines n invalidIndex wanted b).2 =
      { b with size := (Problem.fetchLines lines n invalidIndex wanted b).2.size } := by
  unfold Problem.fetchLines at h ⊢
  dsimp only at h ⊢
  split_ifs with hany hempty hroom
  · rfl
  · rfl
  · rfl
  · rw [if_neg hany, if_neg hempty, if_neg hroom] at h
    exact absurd rfl h

/-! ## Failures -/

/-- A fetch in place that ends with another code than that of success changes no buffer. -/
theorem fetchProcedure_failed (lines : Sparse Float) (n : ℕ) {invalidIndex : ResultCode}
    (hinvalid : invalidIndex ≠ .okay) (wanted : List ℕ) (b : LineBuffers)
    (h : codeOf ((fetchProcedure lines n invalidIndex wanted).exec b).1 ≠ ResultCode.okay.code) :
    ((fetchProcedure lines n invalidIndex wanted).exec b).2 =
      { b with size := ((fetchProcedure lines n invalidIndex wanted).exec b).2.size } := by
  rw [exec_fetchProcedure lines n hinvalid wanted b] at h ⊢
  refine fetchLines_failed fun hokay => h ?_
  rw [hokay]
  rfl

/-- An operation that ends with another code than that of success leaves the store as it was, unless
it is the loading of a file. -/
theorem Op.Direct.exec_failed {op : Op} (hop : op.Direct) {s : Store}
    (h : codeOf (op.procedure.exec s).1 ≠ ResultCode.okay.code) : (op.procedure.exec s).2 = s := by
  rw [op.exec_procedure] at h ⊢
  cases hr : (op.run s).1 with
  | ok u =>
    rw [hr] at h
    exact absurd rfl h
  | error e => exact hop.run_error (Prod.ext hr rfl)

/-- A reading that ends with another code than that of success leaves the outputs as they were. -/
theorem Query.exec_failed {s : Store} {q : Query} {out : q.Output}
    (h : codeOf ((q.procedure s).exec out).1 ≠ ResultCode.okay.code) :
    ((q.procedure s).exec out).2 = out := by
  rw [q.exec_procedure] at h ⊢
  cases hr : q.answer s out with
  | ok v =>
    rw [hr] at h
    exact absurd rfl h
  | error e => rfl

/-- What fails changes nothing, run step by step in place. An operation on the store that ends with
another code than that of success leaves the whole store as it was, unless it is the loading of a
file; a reading leaves its outputs as they were; and the fetching of columns or rows leaves all
buffers, and may only have told the size. -/
theorem failures_change_nothing (s : Store) :
    (∀ op : Op, op.Direct → op.procedure.exec s = op.run s ∧
      (codeOf (op.procedure.exec s).1 ≠ ResultCode.okay.code →
        (op.procedure.exec s).2 = s)) ∧
    (∀ (q : Query) (out : q.Output),
      (q.procedure s).exec out = Query.delivered (q.answer s out) out ∧
      (codeOf ((q.procedure s).exec out).1 ≠ ResultCode.okay.code →
        ((q.procedure s).exec out).2 = out)) ∧
    (∀ (wanted : List ℕ) (b : LineBuffers),
      let r := (fetchProcedure s.problem.matrix.byCol s.numCols .modelInvalidColIdx wanted).exec b
      r = (ended (s.problem.fetchCols wanted b).1, (s.problem.fetchCols wanted b).2) ∧
      (codeOf r.1 ≠ ResultCode.okay.code → r.2 = { b with size := r.2.size })) ∧
    ∀ (wanted : List ℕ) (b : LineBuffers),
      let r := (fetchProcedure s.problem.matrix.byRow s.numRows .modelInvalidRowIdx wanted).exec b
      r = (ended (s.problem.fetchRows wanted b).1, (s.problem.fetchRows wanted b).2) ∧
      (codeOf r.1 ≠ ResultCode.okay.code → r.2 = { b with size := r.2.size }) :=
  ⟨fun op hop => ⟨op.exec_procedure s, hop.exec_failed⟩,
    fun q out => ⟨q.exec_procedure s out, Query.exec_failed⟩,
    fun wanted b => ⟨exec_fetchProcedure _ _ (by decide) wanted b,
      fetchProcedure_failed _ _ (by decide) wanted b⟩,
    fun wanted b => ⟨exec_fetchProcedure _ _ (by decide) wanted b,
      fetchProcedure_failed _ _ (by decide) wanted b⟩⟩

/-- A store with one row and one column, which has an entry in it. -/
def single : Store :=
  afterOps none [.addRow ⟨0, 4, none⟩ [] [], .addCol ⟨0, 1, 1, false, none⟩ [0] [2]]

/-- The value of the column in a solution. -/
def Query.value : Query := .realAttr "PrimalSoln" (some 0)

/-- An output for the value that holds another. -/
def Query.held : value.Output := (7 : Float)

/-- The last of some positions is invalid, a value is not there, and a buffer is short: the store,
the output and the buffers are as they were, but the size is told. -/
theorem failures_change_nothing_late :
    (Op.setElements [0, 0] [0, 1] [1, 2]).procedure.exec single =
      (.error .modelInvalidColIdx, single) ∧
    (Query.value.procedure single).exec Query.held = (.error .noSoln, Query.held) ∧
    (fetchProcedure single.problem.matrix.byCol single.numCols .modelInvalidColIdx [0]).exec
      ⟨0, [5, 5], [], [3]⟩ = (.error .modelInputError, ⟨1, [5, 5], [], [3]⟩) := by
  obtain ⟨hops, hqueries, hcols, -⟩ := failures_change_nothing single
  obtain ⟨hrun, hstore⟩ := hops (.setElements [0, 0] [0, 1] [1, 2]) trivial
  obtain ⟨hread, hout⟩ := hqueries Query.value Query.held
  obtain ⟨hfetch, hbuffers⟩ := hcols [0] ⟨0, [5, 5], [], [3]⟩
  refine ⟨Prod.ext ?_ (hstore ?_), Prod.ext ?_ (hout ?_), hfetch.trans rfl⟩
  · rw [hrun]
    rfl
  · rw [hrun]
    decide
  · rw [hread]
    rfl
  · rw [hread]
    decide

end MathProgram.Store

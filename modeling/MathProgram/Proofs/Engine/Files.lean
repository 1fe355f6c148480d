import MathProgram.Engine.Files
import MathProgram.Proofs.Disk
import MathProgram.Proofs.Engine.Run
import MathProgram.Proofs.TaskFile.Failure
import MathProgram.Proofs.TaskFile.RoundTrip

/-!
# Task files of an engine

Saving puts the document of a store on the disk (`find_of_saveTask`), and loading changes a store as
the bytes of the file do (`run_loadTask`). So an engine that loads what another one has saved takes
over the sections that were both saved and chosen for loading (`task_file_round_trip`).
-/

namespace MathProgram.Engine

open EngineM (host)
open TaskFile

variable {σ : Type}

/-- Loading a task file changes the store as the bytes of the file do. -/
theorem run_loadTask (file : String) (parts : Sections) (e : Engine) (h : Host σ) :
    (loadTask file parts).run e h = match h.disk.find file with
      | .missing => ((ResultCode.fileReadError.code, e), h)
      | .folder => ((ResultCode.formatError.code, e), h)
      | .file bytes => ((codeOf (loadBytes bytes parts e.store).1,
          { e with store := (loadBytes bytes parts e.store).2 }), h) := by
  have hfind : (host (Host.findFile file) : EngineM σ Found).run e h =
      ((h.disk.find file, e), h) := rfl
  rw [loadTask, EngineM.run_bind, hfind]
  dsimp only
  cases h.disk.find file <;> rfl

/-- A code other than zero for a task file comes without a change, or from a late fault. -/
theorem run_loadTask_of_ne (file : String) (parts : Sections) (e : Engine) (h : Host σ)
    (hcode : ((loadTask file parts).run e h).1.1 ≠ ResultCode.okay.code) :
    ((loadTask file parts).run e h).1.2 = e ∨
      ∃ bytes r s', h.disk.find file = .file bytes ∧ FailsLate bytes parts e.store r s' ∧
        ((loadTask file parts).run e h).1.2 = { e with store := s' } := by
  rw [run_loadTask] at hcode ⊢
  cases hfind : h.disk.find file with
  | missing => exact .inl rfl
  | folder => exact .inl rfl
  | file bytes =>
    rw [hfind] at hcode
    dsimp only at hcode ⊢
    -- A file that is there: its bytes are loaded, and a failure is refused or late.
    rcases hload : loadBytes bytes parts e.store with ⟨r | _, s'⟩
    · obtain ⟨-, rfl⟩ | hlate := loadBytes_eq_error_iff.1 hload
      · exact .inl rfl
      · exact .inr ⟨bytes, r, s', rfl, hlate, rfl⟩
    · rw [hload] at hcode
      exact absurd rfl hcode

/-- Saving a task file changes the disk only. -/
theorem run_saveTask (file : String) (parts : Sections) (e : Engine) (h : Host σ) :
    (saveTask file parts).run e h =
      let written := h.disk.write file (Utf8.bytes (document e.store parts).render)
      ((if written.1 then ResultCode.okay.code else ResultCode.fileWriteError.code, e),
        { h with disk := written.2 }) := by
  have hrun (content : List UInt8) :
      (do if ← host (Host.writeFile file content) then return ResultCode.okay.code
          else return ResultCode.fileWriteError.code : EngineM σ Int32).run e h =
        ((if (h.disk.write file content).1 then ResultCode.okay.code
          else ResultCode.fileWriteError.code, e),
          { h with disk := (h.disk.write file content).2 }) := by
    have hwrite : (host (Host.writeFile file content) : EngineM σ Bool).run e h =
        (((h.disk.write file content).1, e),
          { h with disk := (h.disk.write file content).2 }) := rfl
    rw [EngineM.run_bind, hwrite]
    cases (h.disk.write file content).1 <;> rfl
  have hget : (get : EngineM σ Engine).run e h = ((e, e), h) := rfl
  rw [saveTask, EngineM.run_bind, hget]
  dsimp only
  rw [hrun]

/-- A document is not printed as nothing. -/
theorem bytes_document_ne_nil (s : Store) (parts : Sections) :
    Utf8.bytes (document s parts).render ≠ [] := by
  rw [document, Json.render, Json.pieces, Utf8.bytes_join, List.flatMap_cons]
  exact List.append_ne_nil_of_left_ne_nil (by decide) _

/-- What was saved without a failure is found on the disk. -/
theorem find_of_saveTask {file : String} {parts : Sections} {e : Engine} {h : Host σ}
    (hcode : ((saveTask file parts).run e h).1.1 = ResultCode.okay.code) :
    ((saveTask file parts).run e h).2.disk.find file =
      .file (Utf8.bytes (document e.store parts).render) := by
  rw [run_saveTask] at hcode ⊢
  dsimp only at hcode ⊢
  refine Disk.find_write (bytes_document_ne_nil e.store parts) ?_
  -- A disk that does not take the bytes gives another code than zero.
  by_contra hfailed
  rw [if_neg hfailed] at hcode
  exact absurd hcode (by decide)

/-- A task file is read back section by section. If an engine without NaNs in its store has saved a
file without a failure, then any engine that loads a file of the same bytes succeeds: its store
takes over the problem with its bounds clamped, the parameters, and what is recorded of the
solution, each if it was both saved and chosen for loading, and keeps the rest; with a problem it
takes over, it discards its own solution and infeasible subsystem. The number of rows and columns
is below `2 ^ 63`, as the length of any list in memory is. -/
theorem task_file_round_trip {source target : Engine} (hsource : source.store.Reachable)
    (htarget : target.store.Reachable) (hnan : source.store.NaNFree)
    (hfits : source.store.solution.Fits source.numCols source.numRows)
    (hrows : source.numRows < 2 ^ 63) (hcols : source.numCols < 2 ^ 63) (w r : Sections)
    (hdims : w.soln ∧ r.soln → ¬(w.model ∧ r.model) →
      target.numCols = source.numCols ∧ target.numRows = source.numRows)
    {file copy : String} {h h' : Host σ}
    (hsaved : ((saveTask file w).run source h).1.1 = ResultCode.okay.code)
    (hsame : h'.disk.find copy = ((saveTask file w).run source h).2.disk.find file) :
    ∃ t, (loadTask copy r).run target h' =
        ((ResultCode.okay.code, { target with store := t }), h') ∧
      t.problem = (if w.model ∧ r.model then source.store.problem.clamped
        else target.store.problem) ∧
      t.params = (if w.param ∧ r.param then source.store.params else target.store.params) ∧
      t.solution = (if w.soln ∧ r.soln then source.store.solution.recorded
        else if w.model ∧ r.model then {} else target.store.solution) ∧
      t.iis = (if w.model ∧ r.model then none else target.store.iis) ∧
      t.jobs = target.store.jobs ∧ t.log = target.store.log := by
  have hload := loadBytes_document hsource.sound htarget.sound hnan
    (addressable hsource.sound.problem hrows hcols) w r (fun _ => hfits) fun hsoln hmodel =>
      hdims (by simpa [common] using hsoln) (by simpa [common] using hmodel)
  -- The file that is loaded holds what was saved, which the store takes over.
  have hrun : (loadTask copy r).run target h' = ((ResultCode.okay.code,
      { target with store := takenOver source.store (common w r) target.store }), h') := by
    rw [run_loadTask, hsame, find_of_saveTask hsaved]
    dsimp only
    rw [hload]
    rfl
  refine ⟨_, hrun, ?_⟩
  simp only [takenOver, common, Bool.and_eq_true]
  split_ifs <;> exact ⟨rfl, rfl, rfl, rfl, rfl, rfl⟩

/-- An engine with a column of infinite bound, a row, entries, a parameter that was changed and a
solution. -/
def sample : Engine where
  backend := .plain
  store := .afterOps (some "sample") [
    .addCol ⟨0, 1e30, 2.5, true, some "x"⟩ [] [],
    .addRow ⟨-1e20, 4, none⟩ [0] [1.5],
    .setQuadElements [0] [0] [3],
    .setParam Param.maxTime (.real 60),
    .setSolution { status := .optimal, hasSolution := true, primal := [4], dual := [0.5] }]

/-- An empty engine takes over all sections of the sample from a file on an empty disk. -/
theorem task_file_round_trip_sample :
    let saved := (saveTask "t" ⟨true, true, true⟩).run sample ({ solver := () } : Host Unit)
    saved.1.1 = ResultCode.okay.code ∧
    ∃ t, (loadTask "t" ⟨true, true, true⟩).run (.empty .plain false none) saved.2 =
        ((ResultCode.okay.code, { empty .plain false none with store := t }), saved.2) ∧
      t.problem = sample.store.problem.clamped ∧ t.params = sample.store.params ∧
      t.solution = sample.store.solution.recorded := by
  intro saved
  have hplace : (Disk.mk []).place "t" = .inside ["t"] false := by cbv
  have hsaved : saved.1.1 = ResultCode.okay.code := by
    have hwritable : (Disk.mk []).writable? "t" = some ["t"] :=
      Disk.writable?_eq_some_iff.2 ⟨hplace, nofun⟩
    dsimp only [saved]
    rw [run_saveTask]
    dsimp only [Disk.write]
    rw [hwritable]
    rfl
  have hsource : sample.store.Reachable := ⟨_, _, rfl⟩
  have htarget : (empty .plain false none).store.Reachable := ⟨none, [], rfl⟩
  have hnan : sample.store.NaNFree := {
    cols := by decide +kernel
    rows := by decide
    objConst := by decide
    matrix := by decide
    quad := by decide
    params := by decide
    primal := by decide
    reducedCost := by decide
    activity := by decide
    dual := by decide
    primalObjective := by decide
    dualObjective := by decide }
  obtain ⟨t, hload, hproblem, hparams, hsolution, -⟩ :=
    task_file_round_trip hsource htarget hnan ⟨fun _ => rfl, .inr rfl⟩ (by decide)
      (by decide) ⟨true, true, true⟩ ⟨true, true, true⟩ (fun _ h => absurd ⟨rfl, rfl⟩ h)
      hsaved rfl
  exact ⟨hsaved, t, hload, hproblem, hparams, hsolution⟩

end MathProgram.Engine

import MathProgram.Model.Files
import MathProgram.Proofs.Engine.Files
import MathProgram.Proofs.Model.Run

/-!
# Reading a task file into a model

A model takes a new problem over into its handles only if the reading succeeds. So it is left as it
was by every reading that fails, unless the file has a late fault: then its engine has another
store, while its handles are the old ones (`readTask_error`, `readTask_of_failsLate`).
-/

namespace MathProgram.Model

open ModelM TaskFile

variable {σ : Type} {file : List UInt8} {name : String} {parts : Sections} {m m' : Model}
  {h h' : Host σ} {err : Error}

/-- What follows a file that the engine has read cannot fail. -/
theorem readTask_eq_error_iff (hname : fileName file = .ok name) :
    (readTask file parts).run m h = ((.error err, m'), h') ↔
      (call "read_task" (Engine.readTask name parts)).run m h = ((.error err, m'), h') := by
  rw [readTask, run_bind, run_check, hname]
  dsimp only
  rw [run_bind]
  rcases (call "read_task" (Engine.readTask name parts)).run m h with ⟨⟨_ | _, m₁⟩, h₁⟩
  · exact Iff.rfl
  · dsimp only
    cases parts.model <;> exact ⟨nofun, nofun⟩

/-- A reading that fails leaves the model as it was, or with the store of a late fault. -/
theorem readTask_error (hrun : (readTask file parts).run m h = ((.error err, m'), h')) : m' = m ∨
    ∃ name bytes e s', fileName file = .ok name ∧ h.disk.find name = .file bytes ∧
      FailsLate bytes parts m.engine.store e s' ∧
      m' = { m with engine := { m.engine with store := s' } } := by
  cases hname : fileName file with
  | error e =>
    rw [readTask, run_bind, run_check, hname] at hrun
    cases hrun
    exact .inl rfl
  | ok name =>
    rw [readTask_eq_error_iff hname] at hrun
    -- A failed call leaves its engine, so it is the engine's reading that counts.
    obtain ⟨-, rfl⟩ | ⟨hcode, -, rfl⟩ := call_error hrun
    · exact .inl rfl
    obtain ⟨script, ⟨code, hfault⟩ | hload⟩ := Engine.run_guardedCode .readTask
      (Engine.loadTask name parts) m.engine h
    · rw [Engine.readTask, hfault]
      exact .inl rfl
    · rw [Engine.readTask, hload] at hcode ⊢
      obtain hsame | ⟨bytes, e, s', hfind, hlate, hengine⟩ :=
        Engine.run_loadTask_of_ne name parts m.engine { h with script } hcode
      · rw [hsame]
        exact .inl rfl
      · rw [hengine]
        exact .inr ⟨name, bytes, e, s', rfl, hfind, hlate, rfl⟩

/-- A late fault in a file that is read into a model leaves its store there. -/
theorem readTask_of_failsLate {bytes : List UInt8} {e : ResultCode} {s' : Store}
    (hname : fileName file = .ok name) (hfreed : m.state ≠ .freed)
    (hplain : m.engine.scripted = false) (hfind : h.disk.find name = .file bytes)
    (hlate : FailsLate bytes parts m.engine.store e s') :
    ∃ journal, (readTask file parts).run m h =
      ((.error (.engine e.code (ResultCode.explain e.code)),
        { m with engine := { m.engine with store := s' } }), { h with journal }) := by
  -- The engine's store becomes that of the late fault, and its code is not zero.
  have hload : loadBytes bytes parts m.engine.store = (.error e, s') :=
    loadBytes_eq_error_iff.2 (.inr hlate)
  have hrun : (Engine.readTask name parts).run m.engine h =
      ((e.code, { m.engine with store := s' }), h) := by
    rw [Engine.readTask, Engine.run_guardedCode_of_plain _ _ hplain, Engine.run_loadTask, hfind]
    dsimp only
    rw [hload]
    rfl
  have hcall : (call "read_task" (Engine.readTask name parts)).run m h =
      (checkCode "read_task" e.code).run { m with engine := { m.engine with store := s' } } h := by
    rw [run_call, if_neg hfreed, hrun]
  obtain ⟨journal, hcheck⟩ := run_checkCode_of_ne "read_task" hlate.code_ne_okay
    { m with engine := { m.engine with store := s' } } h
  exact ⟨journal, (readTask_eq_error_iff hname).2 (hcall.trans hcheck)⟩

/-- What a task file that is not read leaves behind. A file that is refused leaves the store as it
was, and one that fails late leaves the store of its late fault; there is no other failure. The late
fault leaves other parameters at most, unless the file has a problem that was to be read: then that
problem is in place, and the solution and the infeasible subsystem are gone. A model keeps its
handles in any case, so these name other columns and rows, or none, exactly where its engine has
taken over the problem of such a file. -/
theorem failed_read_task :
    (∀ (bytes : List UInt8) (parts : Sections) (s s' : Store) (e : ResultCode),
      loadBytes bytes parts s = (.error e, s') ↔
        (Refused bytes parts s e ∧ s' = s) ∨ FailsLate bytes parts s e s') ∧
    (∀ (bytes : List UInt8) (parts : Sections) (s s' : Store) (e : ResultCode),
      FailsLate bytes parts s e s' → e.code ≠ ResultCode.okay.code ∧
        ∃ doc d, Json.read bytes = .ok doc ∧ parse doc parts = .ok d ∧
          ((d.model = none ∧ ∃ params, s' = { s with params }) ∨
            ∃ md, d.model = some md ∧ Overwritten md s')) ∧
    (∀ (file : List UInt8) (parts : Sections) (m m' : Model) (h h' : Host σ) (err : Error),
      (readTask file parts).run m h = ((.error err, m'), h') → m' = m ∨
        ∃ name bytes e s', fileName file = .ok name ∧ h.disk.find name = .file bytes ∧
          FailsLate bytes parts m.engine.store e s' ∧
          m' = { m with engine := { m.engine with store := s' } }) ∧
    ∀ (file : List UInt8) (name : String) (bytes : List UInt8) (parts : Sections) (m : Model)
      (h : Host σ) (e : ResultCode) (s' : Store), fileName file = .ok name → m.state ≠ .freed →
      m.engine.scripted = false → h.disk.find name = .file bytes →
      FailsLate bytes parts m.engine.store e s' →
      ∃ journal, (readTask file parts).run m h =
        ((.error (.engine e.code (ResultCode.explain e.code)),
          { m with engine := { m.engine with store := s' } }), { h with journal }) :=
  ⟨fun _ _ _ _ _ => loadBytes_eq_error_iff, fun _ _ _ _ _ h => ⟨h.code_ne_okay, h.leaves⟩,
    fun _ _ _ _ _ _ _ => readTask_error,
    fun _ _ _ _ _ _ _ _ hname hfreed hplain hfind =>
      readTask_of_failsLate hname hfreed hplain hfind⟩

/-- A document with an empty problem and a parameter that has no value. -/
def lateDocument : Json := .obj [
  ("format", .text "mdotask"),
  ("version", .int 1),
  ("model", .obj [("name", .text "b"), ("cols", .arr []), ("rows", .arr [])]),
  ("param", .obj [("MaxTime", .null)])]

/-- A store with one column. -/
def oneColumn : Store := .afterOps (some "a") [.addCol ⟨0, 1, 1, false, some "x"⟩ [] []]

/-- The document is read back from its text. -/
theorem read_lateDocument : Json.read (Utf8.bytes lateDocument.render) = .ok lateDocument := by
  have hback := (Json.read_render lateDocument).1 (by decide)
  have hsame : lateDocument.withoutNaN = lateDocument := by
    simp only [lateDocument, Json.withoutNaN, Json.membersWithoutNaN, Json.itemsWithoutNaN]
  rwa [hsame] at hback

/-- Reading the document fails and leaves a store without the column. -/
theorem oneColumn_overwritten : oneColumn.numCols = 1 ∧
    ∃ s', loadBytes (Utf8.bytes lateDocument.render) ⟨true, true, false⟩ oneColumn =
      (.error .formatError, s') ∧ s'.problem.name = "b" ∧ s'.numCols = 0 := by
  refine ⟨rfl, ?_⟩
  rw [loadBytes, read_lateDocument]
  exact ⟨_, rfl, rfl, rfl⟩

/-- The document is no file that is refused, but one that fails late. -/
theorem failed_read_task_without_value :
    ∃ s', FailsLate (Utf8.bytes lateDocument.render) ⟨true, true, false⟩ oneColumn .formatError s' ∧
      loadBytes (Utf8.bytes lateDocument.render) ⟨true, true, false⟩ oneColumn =
        (.error .formatError, s') ∧
      ResultCode.formatError.code ≠ ResultCode.okay.code := by
  have hparams : some [("MaxTime", Json.null)] = some ([] ++ ("MaxTime", .null) :: []) := rfl
  have hlate : FailsLate (Utf8.bytes lateDocument.render) ⟨true, true, false⟩ oneColumn
      .formatError _ :=
    ⟨lateDocument, _, _, read_lateDocument, rfl, rfl,
      .param hparams (fun p hp => absurd hp List.not_mem_nil) rfl⟩
  have hfailed := failed_read_task (σ := Unit)
  exact ⟨_, hlate, (hfailed.1 _ _ _ _ _).2 (.inr hlate), (hfailed.2.1 _ _ _ _ _ hlate).1⟩

end MathProgram.Model

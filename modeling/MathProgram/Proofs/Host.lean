import Mathlib.Data.Nat.Notation
import MathProgram.Proofs.Basic
import MathProgram.Solver.Conflict
import MathProgram.Solver.ModelFile

/-!
# What computations on a host leave alone

The number of models that were created is changed by creating one, and the faults of the script by
prescribing others. No computation that engines and models do on a host does either: it is `Framed`.
Computations that are put together from framed ones are framed, and so is therefore all the work
with a solver library (`Solver.framed_solve`, `Solver.framed_conflict`, `Solver.framed_openModel`,
`Solver.framed_writeModel`).
-/

namespace MathProgram

variable {σ α β : Type}

/-- The same models were created on two hosts, and the same faults are prescribed. -/
structure Host.Frame (h h' : Host σ) : Prop where
  verdict : h'.script.faults.verdict = h.script.faults.verdict
  models : h'.models = h.models

namespace Host.Frame

variable {h h' h'' : Host σ}

/-- What does nothing leaves all alone. -/
theorem refl (h : Host σ) : Frame h h := ⟨rfl, rfl⟩

/-- One thing after another leaves alone what both leave alone. -/
theorem trans (h₁ : Frame h h') (h₂ : Frame h' h'') : Frame h h'' :=
  ⟨h₂.verdict.trans h₁.verdict, h₂.models.trans h₁.models⟩

end Host.Frame

/-- No fault is prescribed with the code of success. -/
def Host.Honest (h : Host σ) : Prop :=
  ∀ c n, h.script.faults.verdict c n ≠ some ResultCode.okay.code

/-- A fault that is prescribed has another code than that of success. -/
theorem Host.Honest.code_ne_okay {h : Host σ} (hh : h.Honest) {c : EngineCall} {n : ℕ}
    {code : Int32} (hverdict : h.script.faults.verdict c n = some code) :
    code ≠ ResultCode.okay.code := by
  rintro rfl
  exact hh c n hverdict

/-- A host with the same faults prescribed is honest as well. -/
theorem Host.Honest.frame {h h' : Host σ} (hh : h.Honest) (hframe : Frame h h') : h'.Honest := by
  unfold Honest
  rw [hframe.verdict]
  exact hh

/-- Faults that are prescribed by a table with other codes than that of success. -/
theorem Host.honest_ofTable {h : Host σ} {table : List (EngineCall × ℕ × Int32)}
    (hfaults : h.script.faults = .ofTable table)
    (hcodes : ∀ entry ∈ table, entry.2.2 ≠ ResultCode.okay.code) : h.Honest := by
  intro c n
  rw [hfaults]
  dsimp only [Faults.ofTable]
  cases hlookup : table.lookup c with
  | none => exact nofun
  | some entry =>
    obtain ⟨working, code⟩ := entry
    obtain ⟨pre, post, htable, -⟩ := List.lookup_eq_some_iff.1 hlookup
    have hmem : (c, working, code) ∈ table := htable ▸ List.mem_append_cons_self
    dsimp only
    split
    · exact nofun
    · exact fun h => hcodes _ hmem (Option.some.inj h)

/-- A computation creates no models and prescribes no faults. -/
def Framed (act : HostM σ α) : Prop := ∀ h, Host.Frame h (act.run h).2

namespace Framed

/-- Giving a value does nothing. -/
theorem pure (a : α) : Framed (Pure.pure a : HostM σ α) := fun h => .refl h

/-- One computation after another. -/
theorem bind {act : HostM σ α} {next : α → HostM σ β} (hact : Framed act)
    (hnext : ∀ a, Framed (next a)) : Framed (act >>= next) := fun h =>
  (hact h).trans (hnext (act.run h).1 (act.run h).2)

/-- Composition preserves this. -/
theorem compositional : Compositional (m := HostM σ) Framed := ⟨pure, bind⟩

/-- A computation on every item of a list. -/
theorem forM {xs : List α} {act : α → HostM σ PUnit} (hact : ∀ x, Framed (act x)) :
    Framed (xs.forM act) := compositional.forM fun x _ => hact x

end Framed

/-! ## The host -/

namespace Host

/-- Recording an event. -/
theorem framed_record {level : Level} {origin : Origin} {component operation message : String}
    {fields : List (String × FieldValue)} :
    Framed (record level origin component operation message fields : HostM σ Unit) :=
  fun _ => ⟨rfl, rfl⟩

/-- Asking the solver library. -/
theorem framed_ask [Solver σ] {r : Request} : Framed (ask r : HostM σ r.Answer) :=
  fun _ => ⟨rfl, rfl⟩

/-- Changing the files. -/
theorem framed_modifyDisk {f : Disk → α × Disk} : Framed (modifyDisk f : HostM σ α) :=
  fun _ => ⟨rfl, rfl⟩

/-- Changing the journal. -/
theorem framed_writeJournal {f : Journal → Journal} : Framed (writeJournal f : HostM σ Unit) :=
  fun _ => ⟨rfl, rfl⟩

/-- Counting a call of an engine. -/
theorem framed_fault? {c : EngineCall} : Framed (fault? c : HostM σ (Option Int32)) :=
  fun _ => ⟨rfl, rfl⟩

/-- A change of the host. -/
theorem framed_modifyGet {f : Host σ → α × Host σ} (hf : ∀ h : Host σ, h.Frame (f h).2) :
    Framed (modifyGet f : HostM σ α) := hf

/-- Taking a prescribed outcome of a solve. -/
theorem framed_nextSolve? : Framed (nextSolve? : HostM σ (Option SolveOutcome)) :=
  framed_modifyGet fun h => by
    dsimp only
    split <;> exact ⟨rfl, rfl⟩

/-- Taking a prescribed outcome of a conflict search. -/
theorem framed_nextConflict? : Framed (nextConflict? : HostM σ (Option IisOutcome)) :=
  framed_modifyGet fun h => by
    dsimp only
    split <;> exact ⟨rfl, rfl⟩

end Host

open Host

namespace LogSink

/-- Writing to the log. -/
theorem framed_write {log : LogSink} {message : String} :
    Framed (log.write message : HostM σ Unit) := by
  unfold write
  dsimp only
  cases log.file <;> cases log.callback
  -- There is neither a file nor a callback, a callback, a file, or both.
  · exact ite_of (framed_writeJournal.bind fun _ => .pure _) (.pure _)
  · exact ite_of (framed_writeJournal.bind fun _ => framed_writeJournal) framed_writeJournal
  · exact ite_of (framed_writeJournal.bind fun _ => framed_modifyDisk.bind fun _ => .pure _)
      (framed_modifyDisk.bind fun _ => .pure _)
  · exact ite_of
      (framed_writeJournal.bind fun _ => framed_modifyDisk.bind fun _ => framed_writeJournal)
      (framed_modifyDisk.bind fun _ => framed_writeJournal)

/-- Opening another file for the log. -/
theorem framed_withFile {log : LogSink} {file : Option String} :
    Framed (log.withFile file : HostM σ (Except ResultCode LogSink)) := by
  unfold withFile
  cases file with
  | none => exact .pure _
  | some name => exact framed_modifyDisk.bind fun _ => ite_of (.pure _) (.pure _)

end LogSink

/-! ## Instances of a solver library -/

/-- A computation with a solver library creates no models and prescribes no faults. -/
abbrev SolverM.Framed (act : SolverM σ α) : Prop := MathProgram.Framed act.run

namespace SolverM.Framed

/-- Giving a value does nothing. -/
theorem pure (a : α) : Framed (Pure.pure a : SolverM σ α) := MathProgram.Framed.pure _

/-- Failing does nothing. -/
theorem throw (e : ResultCode) : Framed (throw e : SolverM σ α) := MathProgram.Framed.pure _

/-- A computation on the host. -/
theorem host {act : HostM σ α} (hact : MathProgram.Framed act) : Framed (SolverM.host act) :=
  hact.bind fun _ => .pure _

/-- One computation after another, which is left out if the first fails. -/
theorem bind {act : SolverM σ α} {next : α → SolverM σ β} (hact : Framed act)
    (hnext : ∀ a, Framed (next a)) : Framed (act >>= next) := by
  have hcont (r : Except ResultCode α) : MathProgram.Framed (ExceptT.bindCont next r) := by
    cases r with
    | error e => exact .pure _
    | ok a => exact hnext a
  exact MathProgram.Framed.bind hact hcont

/-- A computation on every item of a list. -/
theorem mapM {xs : List α} {act : α → SolverM σ β} (hact : ∀ x, Framed (act x)) :
    Framed (xs.mapM act) :=
  Compositional.mapM ⟨pure, bind⟩ fun x _ => hact x

end SolverM.Framed

namespace InstanceId

variable {h : InstanceId}

/-- A request whose failure is a result code. -/
theorem framed_orFail {e : ResultCode} {request : HostM σ Int32} (hrequest : Framed request) :
    (orFail e request).Framed :=
  (SolverM.Framed.host hrequest).bind fun _ => ite_of (.throw _) (.pure _)

/-- A request about a file. -/
theorem framed_onFile {name : String} {e : ResultCode} {request : HostM σ Int32}
    (hrequest : Framed request) : (onFile name e request).Framed :=
  ite_of (framed_orFail hrequest) (.throw _)

/-- Passing names. -/
theorem framed_passNames {names : List (Option String)} {request : Int32 → String → HostM σ Unit}
    (hrequest : ∀ i name, Framed (request i name)) : Framed (passNames names request) := by
  refine .forM fun (name, i) => ?_
  cases name with
  | none => exact .pure _
  | some name => exact ite_of (hrequest _ _) (.pure _)

variable [Solver σ]

/-- Creating an instance. -/
theorem framed_create? : Framed (create? : HostM σ (Option InstanceId)) := by
  refine .bind (fun _ => ⟨rfl, rfl⟩) fun s => .bind (fun _ => ⟨rfl, rfl⟩) fun created => ?_
  exact ite_of (.bind (fun _ => ⟨rfl, rfl⟩) fun _ => framed_record.bind fun _ => .pure _)
    (framed_record.bind fun _ => .pure _)

/-- Destroying an instance. -/
theorem framed_destroy : Framed (h.destroy : HostM σ Unit) := fun _ => ⟨rfl, rfl⟩

/-- Going on with an instance that is destroyed on failure. -/
theorem framed_destroyedOnFailure {body : SolverM σ α} (hbody : body.Framed) :
    (h.destroyedOnFailure body).Framed := by
  refine MathProgram.Framed.bind hbody fun r => ?_
  cases r with
  | ok a => exact .pure _
  | error e => exact framed_destroy.bind fun _ => .pure _

/-- Going on with an instance that is destroyed in the end. -/
theorem framed_destroyedAfter {body : SolverM σ α} (hbody : body.Framed) :
    (h.destroyedAfter body).Framed :=
  MathProgram.Framed.bind hbody fun _ => framed_destroy.bind fun _ => .pure _

/-- Setting options. -/
theorem framed_setOptions {settings : List (String × OptionValue)} :
    Framed (h.setOptions settings : HostM σ Unit) :=
  .forM fun _ => framed_ask.bind fun _ => ite_of framed_record (.pure _)

/-- Passing a linear program. -/
theorem framed_passProgram {lp : LinearProgram} : (h.passProgram lp : SolverM σ Unit).Framed :=
  framed_orFail (framed_record.bind fun _ => framed_ask)

/-- Passing a quadratic form. -/
theorem framed_passHessian {q : Hessian} : (h.passHessian q : SolverM σ Unit).Framed :=
  framed_orFail (framed_record.bind fun _ => framed_ask)

/-- Passing the names of columns and rows. -/
theorem framed_passAllNames {p : Problem} : Framed (h.passAllNames p : HostM σ Unit) :=
  (framed_passNames fun _ _ => framed_ask).bind fun _ => framed_passNames fun _ _ => framed_ask

/-- Running the solver. -/
theorem framed_run : Framed (h.run : HostM σ Bool) := framed_ask.bind fun _ => .pure _

/-- Asking for a whole number by its name. -/
theorem framed_intInfo? {name : String} : Framed (h.intInfo? name : HostM σ (Option Int32)) :=
  framed_ask.bind fun _ => .pure _

/-- Asking for a real number by its name. -/
theorem framed_realInfo? {name : String} : Framed (h.realInfo? name : HostM σ (Option Float)) :=
  framed_ask.bind fun _ => .pure _

/-- Asking for a kind of solution. -/
theorem framed_hasFeasible {kind : String} : Framed (h.hasFeasible kind : HostM σ Bool) :=
  framed_intInfo?.bind fun _ => .pure _

/-- Asking for the basis statuses. -/
theorem framed_basis? {n m : ℕ} :
    Framed (h.basis? n m : HostM σ (Option (List Int32 × List Int32))) :=
  framed_intInfo?.bind fun _ => ite_of (.pure _) (framed_ask.bind fun _ => .pure _)

/-- Asking for the linear program that was read. -/
theorem framed_program? : Framed (h.program? : HostM σ (Option LinearProgram)) :=
  framed_ask.bind fun _ => framed_ask.bind fun _ => framed_ask.bind fun _ =>
    ite_of (.pure _) (framed_ask.bind fun _ => ite_of (.pure _) (.pure _))

end InstanceId

/-! ## The work with a solver library -/

namespace Solver

open InstanceId

/-- Trying out bounds. -/
theorem framed_keptBounds {infeasible : LinearProgram → SolverM σ Bool}
    (h : ∀ lp, (infeasible lp).Framed) (lp : LinearProgram) (bs : List BoundRef) :
    (Conflict.keptBounds infeasible lp bs).Framed := by
  induction bs generalizing lp with
  | nil => exact .pure _
  | cons b bs ih => exact (h _).bind fun _ => ite_of (ih _) ((ih _).bind fun _ => .pure _)

variable [Solver σ]

/-- Setting the options for the parameters. -/
theorem framed_applyParams {h : InstanceId} {t : ParamTable} :
    (applyParams h t : SolverM σ Unit).Framed := by
  refine (SolverM.Framed.host framed_setOptions).bind fun _ => ?_
  cases methodSettings? t with
  | none => exact .throw _
  | some settings => exact .host framed_setOptions

/-- Creating an instance with the options of a store. -/
theorem framed_configured {s : Store} : (configured s : SolverM σ InstanceId).Framed := by
  refine (SolverM.Framed.host framed_create?).bind fun h => ?_
  cases h with
  | none => exact .throw _
  | some h =>
    exact framed_destroyedOnFailure <| (SolverM.Framed.host framed_setOptions).bind fun _ =>
      framed_applyParams.bind fun _ => .pure _

/-- Creating an instance with the options and the problem of a store. -/
theorem framed_loaded {s : Store} : (loaded s : SolverM σ InstanceId).Framed := by
  have hnames (h : InstanceId) : (do
      SolverM.host (h.passAllNames s.problem)
      return h : SolverM σ InstanceId).Framed :=
    (SolverM.Framed.host framed_passAllNames).bind fun _ => .pure _
  exact framed_configured.bind fun h => framed_destroyedOnFailure <|
    framed_passProgram.bind fun _ =>
      ite_of (framed_passHessian.bind fun _ => hnames h) (hnames h)

/-- Collecting the outcome of a run. -/
theorem framed_collect {h : InstanceId} {p : Problem} {modelStatus : Int32} :
    Framed (collect h p modelStatus : HostM σ (ResultCode × Solution)) := by
  have hvalues (sol : Solution) : Framed (withValues h p sol : HostM σ Solution) := by
    refine framed_hasFeasible.bind fun feasible => ite_of (.pure _) ?_
    refine (framed_ask.bind fun _ => .pure _ : Framed (h.solution? _ _)).bind fun raw => ?_
    cases raw with
    | none => exact .pure _
    | some raw =>
      exact .bind framed_ask fun _ =>
        Framed.compositional.join (.pure _) framed_hasFeasible fun _ => .pure _
  have hgaps (sol : Solution) : Framed (withGaps h sol : HostM σ Solution) :=
    framed_realInfo?.bind fun _ => framed_realInfo?.bind fun _ => .pure _
  have hbases (sol : Solution) : Framed (withBases h p sol : HostM σ Solution) := by
    refine framed_basis?.bind fun basis => ?_
    cases basis <;> exact .pure _
  have hstats (sol : Solution) : Framed (withStats h sol : HostM σ Solution) :=
    framed_ask.bind fun _ => framed_intInfo?.bind fun _ => framed_intInfo?.bind fun _ => .pure _
  refine framed_hasFeasible.bind fun feasible =>
    Framed.compositional.join (.pure _) (hvalues _) fun sol => ?_
  refine ite_of (.bind (hgaps _) ?rest) (Framed.compositional.join (hbases _) (.pure _) ?rest)
  exact fun sol => (hstats _).bind fun _ => framed_record.bind fun _ => .pure _

/-- Solving the problem of a store. -/
theorem framed_solve {s : Store} : (solve s : SolverM σ Solved).Framed := by
  refine framed_loaded.bind fun h => framed_destroyedOnFailure ?_
  refine Framed.bind framed_record fun _ => .bind framed_run fun _ => ite_of ?_ ?_
  · exact .bind framed_ask fun _ => .bind framed_collect fun _ =>
      .bind LogSink.framed_write fun _ => .pure _
  · exact .bind framed_record fun _ => .bind LogSink.framed_write fun _ => .pure _

/-- Having a file read. -/
theorem framed_openModel {name : String} :
    (openModel name : SolverM σ (InstanceId × ModelFile)).Framed := by
  refine (SolverM.Framed.host framed_create?).bind fun h => ?_
  cases h with
  | none => exact .throw _
  | some h =>
    refine framed_destroyedOnFailure <| (SolverM.Framed.host framed_setOptions).bind fun _ =>
      (framed_onFile framed_ask).bind fun _ =>
        (SolverM.Framed.host framed_program?).bind fun r => ?_
    have hname {r : Request} (f : r.Answer → Option String) :
        (SolverM.host do return f (← ask r) : SolverM σ (Option String)).Framed :=
      .host (framed_ask.bind fun _ => .pure _)
    cases r with
    | none => exact .throw _
    | some program =>
      exact (SolverM.Framed.mapM fun _ => hname _).bind fun _ =>
        (SolverM.Framed.mapM fun _ => hname _).bind fun _ => .pure _

/-- Having a problem written to a file. -/
theorem framed_writeModel {s : Store} {name : String} :
    (Solver.writeModel s name : SolverM σ Unit).Framed :=
  framed_loaded.bind fun _ => framed_destroyedAfter <|
    (SolverM.Framed.host framed_setOptions).bind fun _ => framed_onFile framed_ask

/-- Asking whether a linear program is infeasible. -/
theorem framed_infeasible {s : Store} {lp : LinearProgram} :
    (infeasible s lp : SolverM σ Bool).Framed := by
  refine framed_configured.bind fun h => framed_destroyedAfter <|
    (SolverM.Framed.host framed_setOptions).bind fun _ => framed_passProgram.bind fun _ =>
      (SolverM.Framed.host framed_run).bind fun _ =>
        ite_of ((SolverM.Framed.throw _).bind fun _ => ?_) ?_
  -- The status is looked at either way.
  all_goals
    refine (SolverM.Framed.host framed_ask).bind fun code => ?_
    split <;> first | exact .pure _ | exact .throw _

/-- Finding a conflict. -/
theorem framed_conflict {s : Store} : (conflict s : SolverM σ IisFlags).Framed := by
  have hfind (lp : LinearProgram) :
      (Conflict.find? (infeasible s : LinearProgram → SolverM σ Bool) lp).Framed :=
    framed_infeasible.bind fun _ =>
      ite_of ((framed_keptBounds (fun _ => framed_infeasible) _ _).bind fun _ => .pure _) (.pure _)
  refine (hfind _).bind fun kept => ?_
  cases kept <;> exact (SolverM.Framed.host framed_record).bind fun _ => .pure _

end Solver

end MathProgram

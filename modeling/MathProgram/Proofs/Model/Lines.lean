import MathProgram.Model.Elements
import MathProgram.Proofs.Engine.Operations
import MathProgram.Proofs.Model.Rosters
import MathProgram.Proofs.Problem.Lines

/-!
# Reading the lines of a model

`Model.Reads` says that the column of a variable, or the expression of a constraint, is read as a
list of terms: on every honest host, whatever was done there before, unless the script of the host
makes the engine's call fail. If the rosters are in step with the engine, a handle reads the entries
of its line, with the handles of the lines that cross it (`reads_line`), and nothing else
(`Reads.unique`).
-/

namespace MathProgram

open ModelM

variable {σ α β : Type}

/-! ## Calls by the script -/

/-- Looking for a fault finds one just where the script prescribes it. -/
theorem Engine.run_fault?_verdict (c : EngineCall) (e : Engine) (h : Host σ) : ∃ h', h.Frame h' ∧
    ((fault? c).run e h = ((none, e), h') ∨ ∃ n code, e.scripted = true ∧
      h.script.faults.verdict c n = some code ∧ (fault? c).run e h = ((some code, e), h')) := by
  have hfault : (fault? c).run e h = (if e.scripted then EngineM.host (Host.fault? c)
      else pure none : EngineM σ (Option Int32)).run e h := rfl
  rw [hfault]
  cases hscripted : e.scripted with
  | false => exact ⟨h, .refl h, .inl rfl⟩
  | true =>
    have hcall : (EngineM.host (Host.fault? c) : EngineM σ (Option Int32)).run e h =
        ((h.script.faults.verdict c (h.script.faults.count c), e),
          { h with script := { h.script with faults := (h.script.faults.call c).2 } }) := rfl
    rw [if_pos rfl, hcall]
    refine ⟨{ h with script := { h.script with faults := (h.script.faults.call c).2 } },
      ⟨rfl, rfl⟩, ?_⟩
    cases hverdict : h.script.faults.verdict c (h.script.faults.count c) with
    | none => exact .inl rfl
    | some code => exact .inr ⟨_, code, rfl, hverdict, rfl⟩

/-- An edit that the problem takes is put in place, unless the script makes the call fail. -/
theorem Engine.run_edit_of_ok (c : EngineCall) (f : Problem → Except ResultCode Problem)
    {e : Engine} {p : Problem} (hf : f e.store.problem = .ok p) (h : Host σ) : ∃ h', h.Frame h' ∧
      ((edit c (·.edit f)).run e h =
          ((ResultCode.okay.code, { e with store := e.store.withProblem p }), h') ∨
        ∃ n code, e.scripted = true ∧ h.script.faults.verdict c n = some code ∧
          (edit c (·.edit f)).run e h = ((code, e), h')) := by
  have hedit : e.store.edit f = .ok (e.store.withProblem p) :=
    congrArg (Except.map e.store.withProblem) hf
  rw [edit, guardedCode, EngineM.run_bind]
  obtain ⟨h', hframe, hfault | ⟨n, code, hscripted, hverdict, hfault⟩⟩ := run_fault?_verdict c e h
  · rw [hfault]
    dsimp only
    rw [run_changeStore, TaskFile.attempt, hedit]
    exact ⟨h', hframe, .inl rfl⟩
  · rw [hfault]
    exact ⟨h', hframe, .inr ⟨n, code, hscripted, hverdict, rfl⟩⟩

/-- A model that can be used has the engine put an edit in place that the problem takes, unless the
script makes the call fail; then the model stays as it is. -/
theorem ModelM.run_call_edit_of_ok (operation : String) (c : EngineCall)
    (f : Problem → Except ResultCode Problem) {m : Model} {p : Problem} (hfreed : m.state ≠ .freed)
    (hf : f m.engine.store.problem = .ok p) {h : Host σ} (hh : h.Honest) : ∃ h', h.Frame h' ∧
      ((call operation (Engine.edit c (·.edit f))).run m h =
          ((.ok (), m.withStore (m.engine.store.withProblem p)), h') ∨
        ∃ n code, m.engine.scripted = true ∧ h.script.faults.verdict c n = some code ∧
          (call operation (Engine.edit c (·.edit f))).run m h =
            ((.error (.engine code (ResultCode.explain code)), m), h')) := by
  rw [run_call, if_neg hfreed]
  obtain ⟨h', hframe, hrun | ⟨n, code, hscripted, hverdict, hrun⟩⟩ :=
    Engine.run_edit_of_ok c f hf h
  · rw [hrun]
    exact ⟨h', hframe, .inl rfl⟩
  · obtain ⟨journal, hcheck⟩ := run_checkCode_of_ne operation (hh.code_ne_okay hverdict) m h'
    rw [hrun]
    exact ⟨{ h' with journal }, hframe.trans ⟨rfl, rfl⟩,
      .inr ⟨n, code, hscripted, hverdict, hcheck⟩⟩

/-- Fetching lines leaves the engine as it is: the call does its work, or fails by the script. -/
theorem Engine.run_fetch (c : EngineCall) (f : Problem → ResultCode × LineBuffers) (b : LineBuffers)
    (e : Engine) (h : Host σ) : ∃ h', h.Frame h' ∧
      ((fetch c f b).run e h =
          ((((f e.store.problem).1.code, (f e.store.problem).2), e), h') ∨
        ∃ n code, e.scripted = true ∧ h.script.faults.verdict c n = some code ∧
          (fetch c f b).run e h = (((code, b), e), h')) := by
  rw [fetch, guarded, EngineM.run_bind]
  obtain ⟨h', hframe, hfault | ⟨n, code, hscripted, hverdict, hfault⟩⟩ := run_fault?_verdict c e h
  · rw [hfault]
    exact ⟨h', hframe, .inl rfl⟩
  · rw [hfault]
    exact ⟨h', hframe, .inr ⟨n, code, hscripted, hverdict, rfl⟩⟩

namespace Model

/-! ## Computations that read -/

/-- A computation that reads a model gives a value on every honest host, or else the error of a
fault that the host's script prescribes for a call of the engine. The model stays as it is. -/
def Answers (m : Model) (c : EngineCall) (act : ModelM σ α) (a : α) : Prop :=
  ∀ h : Host σ, h.Honest → ∃ h', h.Frame h' ∧ (act.run m h = ((.ok a, m), h') ∨
    ∃ n code, m.engine.scripted = true ∧ h.script.faults.verdict c n = some code ∧
      act.run m h = ((.error (.engine code (ResultCode.explain code)), m), h'))

namespace Answers

variable {m : Model} {c : EngineCall} {a : α} {b : β}

/-- Giving a value. -/
theorem pure {a' : α} (ha : a' = a) : m.Answers c (Pure.pure a' : ModelM σ α) a := fun h _ =>
  ⟨h, .refl h, .inl (by rw [← ha]; rfl)⟩

/-- A check of arguments that they pass. -/
theorem checked {f : Model → Except Error α} (hf : f m = .ok a) :
    m.Answers c (ModelM.checked f : ModelM σ α) a := fun h _ =>
  ⟨h, .refl h, .inl (by rw [← hf]; rfl)⟩

/-- One computation after another. -/
theorem bind {act : ModelM σ α} {next : α → ModelM σ β} (hact : m.Answers c act a)
    (hnext : m.Answers c (next a) b) : m.Answers c (act >>= next) b := fun h hh => by
  rw [run_bind]
  obtain ⟨h₁, hframe, hrun | ⟨n, code, hscripted, hverdict, hrun⟩⟩ := hact h hh
  · rw [hrun]
    obtain ⟨h₂, hframe', hrun' | ⟨n, code, hscripted, hverdict, hrun'⟩⟩ :=
      hnext h₁ (hh.frame hframe)
    · exact ⟨h₂, hframe.trans hframe', .inl hrun'⟩
    · rw [hframe.verdict] at hverdict
      exact ⟨h₂, hframe.trans hframe', .inr ⟨n, code, hscripted, hverdict, hrun'⟩⟩
  · rw [hrun]
    exact ⟨h₁, hframe, .inr ⟨n, code, hscripted, hverdict, rfl⟩⟩

/-- There is just one value that a computation gives. -/
theorem unique {act : ModelM σ α} {a a' : α} (ha : m.Answers c act a) (ha' : m.Answers c act a')
    (h : Host σ) : a = a' := by
  -- Without a script no fault is prescribed.
  obtain ⟨h₁, -, hrun | ⟨n, code, -, hverdict, -⟩⟩ := ha { h with script := {} } nofun
  · obtain ⟨h₂, -, hrun' | ⟨n, code, -, hverdict, -⟩⟩ := ha' { h with script := {} } nofun
    · rw [hrun] at hrun'
      cases hrun'
      rfl
    · cases hverdict
  · cases hverdict

/-- Fetching lines. -/
theorem fetch {operation : String} {f : Problem → ResultCode × LineBuffers} {b b' : LineBuffers}
    (hfreed : m.state ≠ .freed) (hf : f m.problem = (.okay, b')) :
    m.Answers c (callFor operation (Engine.fetch c f b) : ModelM σ LineBuffers) b' := fun h hh => by
  rw [callFor, run_bind, run_withEngine, if_neg hfreed]
  obtain ⟨h', hframe, hrun | ⟨n, code, hscripted, hverdict, hrun⟩⟩ :=
    Engine.run_fetch c f b m.engine h
  · have hf' : f m.engine.store.problem = (.okay, b') := hf
    rw [hf'] at hrun
    rw [hrun]
    exact ⟨h', hframe, .inl rfl⟩
  · obtain ⟨journal, hcheck⟩ := run_checkCode_of_ne operation (hh.code_ne_okay hverdict) m h'
    rw [hrun]
    dsimp only
    refine ⟨{ h' with journal }, hframe.trans ⟨rfl, rfl⟩, .inr ⟨n, code, hscripted, hverdict, ?_⟩⟩
    rw [run_bind, hcheck]

/-- Fetching one line. -/
theorem fetchLine {operation : String} {f : LineBuffers → Problem → ResultCode × LineBuffers}
    {lines : Sparse Float} {n i : ℕ} {code : ResultCode} (hfreed : m.state ≠ .freed)
    (hf : ∀ b, f b m.problem = Problem.fetchLines lines n code [i] b) (hi : i < n) :
    m.Answers c (Model.fetchLine operation fun b => Engine.fetch c (f b) b :
      ModelM σ (List (ℕ × Float))) (lines.line i) := by
  obtain ⟨hfirst, hsecond⟩ := Problem.fetchLines_line lines hi code
  refine (fetch hfreed ((hf _).trans hfirst)).bind <|
    (fetch hfreed ((hf _).trans hsecond)).bind ?_
  have hline : ((((lines.line i).map (·.1)).zip ((lines.line i).map (·.2))).drop 0).take
      ((lines.line i).length - 0) = lines.line i := by
    rw [List.zip_map', List.drop_zero, Nat.sub_zero, List.take_of_length_le (by simp)]
    exact List.map_id _
  exact pure hline

end Answers

/-! ## Lines over handles -/

variable {m : Model} {k l : Kind}

/-- The terms that a line stands for, over the handles of a kind. -/
def lineTerms (m : Model) (l : Kind) (line : List (ℕ × Float)) : Terms l Float :=
  line.map fun e => (⟨m.id, e.1, m.generation l⟩, e.2)

/-- Terms over handles of the model are the terms of their indexes. -/
theorem lineTerms_indexed {ts : Terms l Float} (hts : ts.Over m.id (m.generation l)) :
    m.lineTerms l ts.indexed = ts := by
  rw [lineTerms, Terms.indexed, List.map_map]
  refine (List.map_congr_left fun t ht => ?_).trans (List.map_id ts)
  exact Prod.ext (hts.handle_eq ht).symm rfl

/-- Rosters in step have the handles of a line. -/
theorem InStep.termsOver_eq (hm : m.InStep) {line : List (ℕ × Float)}
    (hline : ∀ e ∈ line, e.1 < m.count l) :
    termsOver (m.roster l) line = .ok (m.lineTerms l line) := by
  refine mapM_eq_pure fun e he => ?_
  obtain ⟨i, v⟩ := e
  have hhandle : (m.roster l)[i]? = some ⟨m.id, i, m.generation l⟩ := by
    rw [inStep_iff.1 hm l, Handle.allOf, List.getElem?_map,
      List.getElem?_range (hline (i, v) he)]
    rfl
  dsimp only
  rw [hhandle]
  rfl

/-- A handle of a roster in step is accepted, and its index is that of a line. -/
theorem InStep.accept_eq (hm : m.InStep) {x : Handle k} (hx : x ∈ m.roster k) :
    m.accept x = .ok x.index ∧ x.index < m.count k := by
  rw [inStep_iff.1 hm k, Handle.allOf_eq_issued, Handle.mem_issued_iff] at hx
  obtain ⟨hid, hgen, -, hlt⟩ := hx
  rw [Nat.zero_add] at hlt
  refine ⟨accept_eq_ok_iff.2 ⟨hid, hgen, ?_, rfl⟩, hlt⟩
  rwa [inStep_iff.1 hm k, Handle.allOf_eq_issued, Handle.length_issued]

/-- Handles that are accepted stand for columns or rows that there are. -/
theorem InStep.index_lt (hm : m.InStep) {x : Handle k} (hx : m.accept x = .ok x.index) :
    x.index < m.count k := by
  obtain ⟨-, -, hlt, -⟩ := accept_eq_ok_iff.1 hx
  rwa [Matches.length_roster (inStep_iff.1 hm k)] at hlt

/-- The terms of a line are read for a handle: as the column of a variable, or as the expression,
with the constant zero, of a constraint. -/
def Reads (σ : Type) (m : Model) : {k l : Kind} → Handle k → Terms l Float → Prop
  | .variable, .constraint, x, ts => m.Answers .getCols (col x : ModelM σ (Column Float)) ⟨ts⟩
  | .constraint, .variable, c, ts =>
    m.Answers .getRows (exprLinear c : ModelM σ (LinearExpr Float)) ⟨ts, 0⟩
  | .variable, .variable, _, _ | .constraint, .constraint, _, _ => False

/-- A handle reads the entries of its line. -/
theorem InStep.reads_line (hm : m.InStep) (hp : m.problem.WellFormed) (hfreed : m.state ≠ .freed)
    (hl : l = k.other) {x : Handle k} (hx : x ∈ m.roster k) :
    m.Reads σ x (m.lineTerms l ((m.problem.lines k).line x.index)) := by
  subst hl
  obtain ⟨haccept, hlt⟩ := hm.accept_eq hx
  have hinside : ∀ e ∈ (m.problem.lines k).line x.index, e.1 < m.count k.other := by
    intro e he
    have hcount := (hp.lines_lt (Sparse.mem_line.1 he)).2
    cases k <;> exact hcount
  have hterms := hm.termsOver_eq hinside
  cases k
  · have hindex : m.varIndex x = .ok x.index := haccept
    have hfetch : m.Answers .getCols (Model.fetchLine "col" (Engine.fetchCols [x.index]) :
        ModelM σ (List (ℕ × Float))) (m.problem.matrix.byCol.line x.index) :=
      Answers.fetchLine (f := fun b p => p.fetchCols [x.index] b) hfreed (fun _ => rfl) hlt
    exact (Answers.checked hindex).bind <| hfetch.bind <| (Answers.checked hterms).bind (.pure rfl)
  · have hindex : m.consIndex x = .ok x.index := haccept
    have hfetch : m.Answers .getRows (Model.fetchLine "expr_linear" (Engine.fetchRows [x.index]) :
        ModelM σ (List (ℕ × Float))) (m.problem.matrix.byRow.line x.index) :=
      Answers.fetchLine (f := fun b p => p.fetchRows [x.index] b) hfreed (fun _ => rfl) hlt
    exact (Answers.checked hindex).bind <| hfetch.bind <| (Answers.checked hterms).bind (.pure rfl)

/-- A handle reads one list of terms only. -/
theorem Reads.unique {x : Handle k} {ts us : Terms l Float} (hts : m.Reads σ x ts)
    (hus : m.Reads σ x us) (h : Host σ) : ts = us := by
  cases k <;> cases l
  · cases hts
  · exact congrArg Column.terms (Answers.unique hts hus h)
  · exact congrArg LinearExpr.terms (Answers.unique hts hus h)
  · cases hts

end Model

end MathProgram

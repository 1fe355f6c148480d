import MathProgram.Proofs.Engine.Operations
import MathProgram.Proofs.Model.Handles
import MathProgram.Proofs.Model.Files
import MathProgram.Proofs.Store.Records

/-!
# How models grow

Most calls of a model have effects of two sorts only: its rosters grow by the handles of the columns
and rows that its engine has gained, and if its problem is changed then the model is populated from
then on. `Grows` says this of two models, with what may have been written of the columns and rows
that were there, and `Leads` says of a computation that it leads from any model to one that has
grown, whether it succeeds or fails. Computations that are put together from such are such, so for
every call it is enough to look at the calls of the engine that it makes (`Leads.of_drives`,
`leads_change`).
-/

namespace MathProgram

namespace Model

/-! ## Models that have changed -/

/-- A model whose engine has another store. -/
def withStore (m : Model) (s : Store) : Model := { m with engine := { m.engine with store := s } }

/-- A model whose engine has gained a column, for which it has issued a handle. -/
def gainedCol (m : Model) (s : Store) : Model :=
  { m.withStore s with
    vars := m.vars ++ [⟨m.id, m.vars.length, m.varGen⟩]
    state := .populated }

/-- A model whose engine has gained a row, for which it has issued a handle. -/
def gainedRow (m : Model) (s : Store) : Model :=
  { m.withStore s with
    conss := m.conss ++ [⟨m.id, m.conss.length, m.consGen⟩]
    state := .populated }

/-- Changes in place leave as many columns and rows as a model has. -/
theorem count_of_inPlace {m : Model} {e : Engine} {ops : List Store.Op}
    (hops : ∀ op ∈ ops, op.InPlace) (hstore : e.store = m.engine.store.after ops) (k : Kind) :
    e.store.count k = m.count k :=
  (congrArg (Store.count · k) hstore).trans (Store.count_after hops)

end Model

/-- A model has issued handles for the columns and rows that its engine has gained, and nothing else
happened to its rosters. Nothing outside of a scope was written of the columns and rows that were
there. If its problem is not the same it is populated. -/
structure Model.Grows (W : Scope) (m m' : Model) : Prop where
  id : m'.id = m.id
  generation : ∀ k, m'.generation k = m.generation k
  store : ∃ ops : List Store.Op, (∀ op ∈ ops, op.Additive ∧ op.Within W) ∧
    m'.engine.store = m.engine.store.after ops
  roster : ∀ k, ∃ n, m'.count k = m.count k + n ∧
    m'.roster k = m.roster k ++ Handle.issued m.id (m.generation k) (m.roster k).length n
  state : m'.state = m.state ∧ m'.problem = m.problem ∨ m'.state = .populated
  freed : m.state = .freed → m' = m

namespace Model.Grows

variable {W : Scope} {m m' m'' : Model}

/-- A model that stays as it is has not grown. -/
theorem refl (m : Model) : Grows W m m where
  id := rfl
  generation _ := rfl
  store := ⟨[], by simp, rfl⟩
  roster k := ⟨0, rfl, (List.append_nil _).symm⟩
  state := .inl ⟨rfl, rfl⟩
  freed _ := rfl

/-- Growing twice is growing. -/
theorem trans (h₁ : Grows W m m') (h₂ : Grows W m' m'') : Grows W m m'' where
  id := h₂.id.trans h₁.id
  generation k := (h₂.generation k).trans (h₁.generation k)
  store := by
    obtain ⟨ops, hops, hstore⟩ := h₁.store
    obtain ⟨ops', hops', hstore'⟩ := h₂.store
    refine ⟨ops ++ ops', List.forall_mem_append.2 ⟨hops, hops'⟩, ?_⟩
    rw [hstore', hstore, Store.after_append]
  roster k := by
    obtain ⟨n, hcount, hroster⟩ := h₁.roster k
    obtain ⟨n', hcount', hroster'⟩ := h₂.roster k
    refine ⟨n + n', by omega, ?_⟩
    -- The second handles go on where the first ones end.
    rw [hroster', hroster, h₁.id, h₁.generation, List.append_assoc, List.length_append,
      Handle.length_issued, Handle.issued_append]
  state := by
    obtain ⟨hstate, hproblem⟩ | hstate := h₂.state
    · obtain ⟨hstate', hproblem'⟩ | hstate' := h₁.state
      · exact .inl ⟨hstate.trans hstate', hproblem.trans hproblem'⟩
      · exact .inr (hstate.trans hstate')
    · exact .inr hstate
  freed h := by
    have hm := h₁.freed h
    rw [h₂.freed (by rw [hm, h]), hm]

/-- An engine that was changed by operations that have nothing to do with the problem. -/
theorem of_quiet {e : Engine} (hfreed : m.state ≠ .freed) {ops : List Store.Op}
    (hops : ∀ op ∈ ops, op.Quiet) (hstore : e.store = m.engine.store.after ops) :
    Grows W m { m with engine := e } where
  id := rfl
  generation _ := rfl
  store := ⟨ops, fun op hop => ⟨(hops op hop).inPlace.additive, (hops op hop).within⟩, hstore⟩
  roster k := by
    refine ⟨0, ?_, ?_⟩
    · exact Store.count_of_problem (by rw [hstore, Store.problem_after hops])
    · cases k <;> exact (List.append_nil _).symm
  state := .inl ⟨rfl, by rw [problem, hstore, Store.problem_after hops]; rfl⟩
  freed h := absurd h hfreed

/-- An engine that was changed by operations that change the problem in place, which is noted. -/
theorem of_inPlace {e : Engine} (hfreed : m.state ≠ .freed) {ops : List Store.Op}
    (hops : ∀ op ∈ ops, op.InPlace ∧ op.Within W) (hstore : e.store = m.engine.store.after ops) :
    Grows W m { m with engine := e, state := .populated } where
  id := rfl
  generation _ := rfl
  store := ⟨ops, fun op hop => (hops op hop).imp_left (·.additive), hstore⟩
  roster k := by
    refine ⟨0, ?_, ?_⟩
    · exact count_of_inPlace (fun op hop => (hops op hop).1) hstore k
    · cases k <;> exact (List.append_nil _).symm
  state := .inr rfl
  freed h := absurd h hfreed

/-- A column that was added, with its handle. -/
theorem of_addCol {c : ColData} {rows : List ℕ} {vals : List Float} {s : Store}
    (hfreed : m.state ≠ .freed)
    (hs : (Store.Op.addCol c rows vals).run m.engine.store = (.ok (), s)) :
    Grows W m (m.gainedCol s) := by
  obtain ⟨hcols, hrows⟩ := Store.run_addCol hs
  refine ⟨rfl, fun k => by cases k <;> rfl, ⟨[.addCol c rows vals], ?_, ?_⟩, fun k => ?_, .inr rfl,
    fun h => absurd h hfreed⟩
  · exact List.forall_mem_singleton.2 ⟨trivial, nofun⟩
  · rw [Store.after_cons, hs]
    rfl
  · cases k
    · exact ⟨1, (congrArg List.length hcols).trans List.length_append, rfl⟩
    · exact ⟨0, congrArg List.length hrows, (List.append_nil _).symm⟩

/-- A row that was added, with its handle. -/
theorem of_addRow {r : RowData} {cols : List ℕ} {vals : List Float} {s : Store}
    (hfreed : m.state ≠ .freed)
    (hs : (Store.Op.addRow r cols vals).run m.engine.store = (.ok (), s)) :
    Grows W m (m.gainedRow s) := by
  obtain ⟨hcols, hrows⟩ := Store.run_addRow hs
  refine ⟨rfl, fun k => by cases k <;> rfl, ⟨[.addRow r cols vals], ?_, ?_⟩, fun k => ?_, .inr rfl,
    fun h => absurd h hfreed⟩
  · exact List.forall_mem_singleton.2 ⟨trivial, nofun⟩
  · rw [Store.after_cons, hs]
    rfl
  · cases k
    · exact ⟨0, congrArg List.length hcols, (List.append_nil _).symm⟩
    · exact ⟨1, (congrArg List.length hrows).trans List.length_append, rfl⟩

end Model.Grows

/-! ## Computations -/

open Model

variable {σ α β : Type}

namespace ModelM

/-- A computation changes nothing of a model but its engine, whose store it changes by operations of
a sort. -/
def Drives (P : Store.Op → Prop) (act : ModelM σ α) : Prop := ∀ (m : Model) (h : Host σ),
  h.Frame (act.run m h).2 ∧ ∃ e ops, (∀ op ∈ ops, P op) ∧ e.store = m.engine.store.after ops ∧
    (act.run m h).1.2 = { m with engine := e } ∧ (m.state = .freed → e = m.engine)

namespace Drives

variable {P : Store.Op → Prop}

/-- A computation that leaves the model as it is. -/
theorem of_eq {act : ModelM σ α} (h : ∀ (m : Model) (h : Host σ),
    h.Frame (act.run m h).2 ∧ (act.run m h).1.2 = m) : Drives P act := fun m h₁ =>
  ⟨(h m h₁).1, m.engine, [], by simp, rfl, (h m h₁).2, fun _ => rfl⟩

/-- Giving a value. -/
theorem pure (a : α) : Drives P (Pure.pure a : ModelM σ α) := of_eq fun _ h => ⟨.refl h, rfl⟩

/-- Failing. -/
theorem throw (e : Error) : Drives P (throw e : ModelM σ α) := of_eq fun _ h => ⟨.refl h, rfl⟩

/-- Looking at the model. -/
theorem get : Drives P (MonadState.get : ModelM σ Model) := of_eq fun _ h => ⟨.refl h, rfl⟩

/-- A check. -/
theorem check (r : Except Error α) : Drives P (ModelM.check r : ModelM σ α) :=
  of_eq fun _ h => ⟨.refl h, rfl⟩

/-- A check of arguments against the model. -/
theorem checked (f : Model → Except Error α) : Drives P (ModelM.checked f : ModelM σ α) :=
  of_eq fun _ h => ⟨.refl h, rfl⟩

/-- Recording an event. -/
theorem record {level : Level} {operation message : String} {fields : List (String × FieldValue)} :
    Drives P (ModelM.record level operation message fields : ModelM σ Unit) :=
  of_eq fun _ h => ⟨Host.framed_record h, rfl⟩

/-- One computation after another, which is left out if the first fails. -/
theorem bind {act : ModelM σ α} {next : α → ModelM σ β} (hact : Drives P act)
    (hnext : ∀ a, Drives P (next a)) : Drives P (act >>= next) := fun m h => by
  have hfirst := hact m h
  rw [run_bind]
  rcases hrun : act.run m h with ⟨⟨err | a, m₁⟩, h₁⟩ <;> rw [hrun] at hfirst
  · exact hfirst
  · obtain ⟨hframe, e, ops, hops, hstore, rfl, hfreed⟩ := hfirst
    obtain ⟨hframe', e', ops', hops', hstore', hm, hfreed'⟩ := hnext a { m with engine := e } h₁
    refine ⟨hframe.trans hframe', e', ops ++ ops', List.forall_mem_append.2 ⟨hops, hops'⟩, ?_, hm,
      fun h => (hfreed' h).trans (hfreed h)⟩
    rw [hstore', hstore, Store.after_append]

/-- Composition preserves this. -/
theorem compositional : Compositional (m := ModelM σ) (Drives P) := ⟨pure, bind⟩

/-- A computation on every item of a list, with all results. -/
theorem mapM {xs : List α} {act : α → ModelM σ β} (hact : ∀ x, Drives P (act x)) :
    Drives P (xs.mapM act) := compositional.mapM fun x _ => hact x

/-- A computation on every item of a list. -/
theorem forM {xs : List α} {act : α → ModelM σ PUnit} (hact : ∀ x, Drives P (act x)) :
    Drives P (xs.forM act) := compositional.forM fun x _ => hact x

/-- Failing with a result code. -/
theorem fail {operation : String} {code : Int32} :
    Drives P (ModelM.fail operation code : ModelM σ α) := record.bind fun _ => throw _

/-- Failing with a result code that is not zero. -/
theorem checkCode {operation : String} {code : Int32} :
    Drives P (ModelM.checkCode operation code : ModelM σ Unit) := ite_of (pure _) fail

/-- A computation on the engine, unless the model has been freed. -/
theorem withEngine {act : EngineM σ α} (hact : Engine.Drives P act) :
    Drives P (ModelM.withEngine act) := fun m h => by
  rw [run_withEngine]
  by_cases hfreed : m.state = .freed
  · rw [if_pos hfreed]
    exact ⟨.refl h, m.engine, [], by simp, rfl, rfl, fun _ => rfl⟩
  · rw [if_neg hfreed]
    obtain ⟨hframe, ops, hops, hstore⟩ := hact m.engine h
    exact ⟨hframe, _, ops, hops, hstore, rfl, fun h => absurd h hfreed⟩

/-- A call of the engine. -/
theorem call {operation : String} {act : EngineM σ Int32} (hact : Engine.Drives P act) :
    Drives P (ModelM.call operation act) :=
  (withEngine hact).bind fun _ => checkCode

/-- A call of the engine with an output. -/
theorem callFor {operation : String} {act : EngineM σ (Int32 × α)} (hact : Engine.Drives P act) :
    Drives P (ModelM.callFor operation act) :=
  (withEngine hact).bind fun _ => checkCode.bind fun _ => pure _

end Drives

end ModelM

namespace ModelM

/-- A computation changes the engine by operations of a sort, and it changes the model otherwise
just if it succeeds, by a function then. -/
def Concludes (P : Store.Op → Prop) (f : Model → Model) (act : ModelM σ α) : Prop :=
  ∀ (m : Model) (h : Host σ), h.Frame (act.run m h).2 ∧
    ∃ e ops, (∀ op ∈ ops, P op) ∧ e.store = m.engine.store.after ops ∧
      ((m.state ≠ .freed ∧ ∃ a, (act.run m h).1 = (.ok a, f { m with engine := e })) ∨
        ((m.state = .freed → e = m.engine) ∧
          ∃ err, (act.run m h).1 = (.error err, { m with engine := e })))

namespace Concludes

variable {P : Store.Op → Prop} {f : Model → Model}

/-- A computation on the engine, and then what fails without an effect or concludes. -/
theorem withEngine {act : EngineM σ α} {next : α → ModelM σ β} (hact : Engine.Drives P act)
    (hnext : ∀ a m (h : Host σ), ∃ h', h.Frame h' ∧
      ((∃ b, (next a).run m h = ((.ok b, f m), h')) ∨
        ∃ err, (next a).run m h = ((.error err, m), h'))) :
    Concludes P f (ModelM.withEngine act >>= next) := fun m h => by
  rw [run_bind, run_withEngine]
  by_cases hfreed : m.state = .freed
  · rw [if_pos hfreed]
    exact ⟨.refl h, m.engine, [], by simp, rfl, .inr ⟨fun _ => rfl, _, rfl⟩⟩
  · rw [if_neg hfreed]
    obtain ⟨hframe, ops, hops, hstore⟩ := hact m.engine h
    obtain ⟨h', hframe', ⟨b, hrun⟩ | ⟨err, hrun⟩⟩ := hnext (act.run m.engine h).1.1
      { m with engine := (act.run m.engine h).1.2 } (act.run m.engine h).2
    · dsimp only
      rw [hrun]
      exact ⟨hframe.trans hframe', _, ops, hops, hstore, .inl ⟨hfreed, b, rfl⟩⟩
    · dsimp only
      rw [hrun]
      exact ⟨hframe.trans hframe', _, ops, hops, hstore, .inr ⟨fun h => absurd h hfreed, err, rfl⟩⟩

/-- A call of the engine, and then what concludes. -/
theorem call {operation : String} {act : EngineM σ Int32} {next : Unit → ModelM σ β}
    (hact : Engine.Drives P act) (hnext : ∀ m (h : Host σ), ∃ h' b, h.Frame h' ∧
      (next ()).run m h = ((.ok b, f m), h')) :
    Concludes P f (ModelM.call operation act >>= next) := by
  rw [ModelM.call, bind_assoc]
  refine withEngine hact fun code m h => ?_
  by_cases hcode : code = ResultCode.okay.code
  · obtain ⟨h', b, hframe, hrun⟩ := hnext m h
    refine ⟨h', hframe, .inl ⟨b, ?_⟩⟩
    rw [run_bind, hcode, run_checkCode_okay]
    exact hrun
  · obtain ⟨journal, hcheck⟩ := run_checkCode_of_ne operation hcode m h
    refine ⟨{ h with journal }, ⟨rfl, rfl⟩, .inr ⟨.engine code (ResultCode.explain code), ?_⟩⟩
    rw [run_bind, hcheck]

/-- Something that changes the engine only, and then what concludes. -/
theorem bind {act : ModelM σ α} {next : α → ModelM σ β} (hact : Drives P act)
    (hnext : ∀ a, Concludes P f (next a)) : Concludes P f (act >>= next) := fun m h => by
  have hfirst := hact m h
  rw [run_bind]
  rcases hrun : act.run m h with ⟨⟨err | a, m₁⟩, h₁⟩ <;> rw [hrun] at hfirst
  · obtain ⟨hframe, e, ops, hops, hstore, rfl, hfreed⟩ := hfirst
    exact ⟨hframe, e, ops, hops, hstore, .inr ⟨hfreed, err, rfl⟩⟩
  · obtain ⟨hframe, e, ops, hops, hstore, rfl, hfreed⟩ := hfirst
    obtain ⟨hframe', e', ops', hops', hstore', hcases⟩ := hnext a { m with engine := e } h₁
    refine ⟨hframe.trans hframe', e', ops ++ ops', List.forall_mem_append.2 ⟨hops, hops'⟩, ?_, ?_⟩
    · rw [hstore', hstore, Store.after_append]
    · refine hcases.imp_right fun ⟨hfreed', herr⟩ => ⟨fun h => ?_, herr⟩
      exact (hfreed' h).trans (hfreed h)

end Concludes

end ModelM

/-- A computation leads to a model that has grown, whether it succeeds or fails, and writes nothing
outside of a scope. -/
def Leads (W : Scope) (act : ModelM σ α) : Prop := ∀ (m : Model) (h : Host σ), h.Honest →
  h.Frame (act.run m h).2 ∧ m.Grows W (act.run m h).1.2

variable {W : Scope}

namespace Leads

/-- A computation that has nothing to do with the problem. -/
theorem of_drives {act : ModelM σ α} (hact : ModelM.Drives Store.Op.Quiet act) : Leads W act :=
  fun m h _ => by
    obtain ⟨hframe, e, ops, hops, hstore, hm, hfreed⟩ := hact m h
    rw [hm]
    refine ⟨hframe, ?_⟩
    by_cases h : m.state = .freed
    · rw [hfreed h]
      exact .refl m
    · exact .of_quiet h hops hstore

/-- Giving a value. -/
theorem pure (a : α) : Leads W (Pure.pure a : ModelM σ α) := of_drives (.pure a)

/-- Failing. -/
theorem throw (e : Error) : Leads W (throw e : ModelM σ α) := of_drives (.throw e)

/-- A check. -/
theorem check (r : Except Error α) : Leads W (ModelM.check r : ModelM σ α) := of_drives (.check r)

/-- A check of arguments against the model. -/
theorem checked (f : Model → Except Error α) : Leads W (ModelM.checked f : ModelM σ α) :=
  of_drives (.checked f)

/-- One computation after another, which is left out if the first fails. -/
theorem bind {act : ModelM σ α} {next : α → ModelM σ β} (hact : Leads W act)
    (hnext : ∀ a, Leads W (next a)) : Leads W (act >>= next) := fun m h hh => by
  have hfirst := hact m h hh
  rw [ModelM.run_bind]
  rcases hrun : act.run m h with ⟨⟨e | a, m₁⟩, h₁⟩ <;> rw [hrun] at hfirst
  · exact hfirst
  · have hsecond := hnext a m₁ h₁ (hh.frame hfirst.1)
    exact ⟨hfirst.1.trans hsecond.1, hfirst.2.trans hsecond.2⟩

/-- A check of arguments against the model, and then what depends on what was found. -/
theorem bind_checked {f : Model → Except Error α} {next : α → ModelM σ β}
    (hnext : ∀ m a, f m = .ok a → Leads W (next a)) : Leads W (ModelM.checked f >>= next) :=
  fun m h hh => by
    have hchecked : (ModelM.checked f : ModelM σ α).run m h = ((f m, m), h) := rfl
    rw [ModelM.run_bind, hchecked]
    cases hf : f m with
    | error err => exact ⟨.refl h, .refl m⟩
    | ok a => exact hnext m a hf m h hh

/-- Composition preserves this. -/
theorem compositional : Compositional (m := ModelM σ) (Leads W) := ⟨pure, bind⟩

/-- A computation on every item of a list, with all results. -/
theorem mapM {xs : List α} {act : α → ModelM σ β} (hact : ∀ x, Leads W (act x)) :
    Leads W (xs.mapM act) := compositional.mapM fun x _ => hact x

/-- A computation on every item of a list. -/
theorem forM {xs : List α} {act : α → ModelM σ PUnit} (hact : ∀ x ∈ xs, Leads W (act x)) :
    Leads W (xs.forM act) := compositional.forM hact

/-- A computation so many times. -/
theorem times {n : ℕ} {act : ModelM σ α} (hact : Leads W act) : Leads W (ModelM.times n act) :=
  ModelM.of_times compositional hact

end Leads

/-! ## Calls that change the problem -/

namespace ModelM

/-- A call that performs an operation: it fails and the model stays as it is, or the operation
succeeds. -/
theorem run_call_of_performs (operation : String) {act : EngineM σ Int32} {op : Store.Op}
    (hact : Engine.Performs op act) (m : Model) {h : Host σ} (hh : h.Honest) :
    ∃ h', h.Frame h' ∧
      ((∃ err, (call operation act).run m h = ((.error err, m), h')) ∨
        (m.state ≠ .freed ∧ ∃ s, op.run m.engine.store = (.ok (), s) ∧
          (call operation act).run m h = ((.ok (), m.withStore s), h'))) := by
  obtain ⟨hframe, hcases⟩ := hact m.engine h hh
  rw [run_call]
  by_cases hfreed : m.state = .freed
  · rw [if_pos hfreed]
    exact ⟨h, .refl h, .inl ⟨_, rfl⟩⟩
  · rw [if_neg hfreed]
    obtain ⟨hcode, he⟩ | ⟨hcode, s, hs, he⟩ := hcases
    · obtain ⟨journal, hcheck⟩ := run_checkCode_of_ne operation hcode
        { m with engine := (act.run m.engine h).1.2 } (act.run m.engine h).2
      rw [he] at hcheck ⊢
      exact ⟨{ (act.run m.engine h).2 with journal }, hframe.trans ⟨rfl, rfl⟩, .inl ⟨_, hcheck⟩⟩
    · refine ⟨_, hframe, .inr ⟨hfreed, s, hs, ?_⟩⟩
      rw [hcode, run_checkCode_okay, he]
      rfl

/-- A call that changes the problem in place. -/
theorem leads_change {operation : String} {act : EngineM σ Int32} {op : Store.Op}
    (hact : Engine.Performs op act) (hop : op.InPlace) (hW : op.Within W) :
    Leads W (change operation act) := by
  intro m h hh
  rw [change, run_bind]
  obtain ⟨h', hframe, ⟨err, hrun⟩ | ⟨hfreed, s, hs, hrun⟩⟩ :=
    run_call_of_performs operation hact m hh
  · rw [hrun]
    exact ⟨hframe, .refl m⟩
  · have htouch : (touch : ModelM σ Unit).run (m.withStore s) h' =
        ((.ok (), (m.withStore s).touched), h') := rfl
    have hpopulated : (m.withStore s).touched = { m.withStore s with state := .populated } :=
      if_neg hfreed
    rw [hrun]
    dsimp only
    rw [htouch, hpopulated]
    have hstore : s = m.engine.store.after [op] := by rw [Store.after_cons, hs]; rfl
    exact ⟨hframe, .of_inPlace hfreed (List.forall_mem_singleton.2 ⟨hop, hW⟩) hstore⟩

end ModelM

namespace Model

open ModelM

/-- Adding a column: the call fails and the model stays as it is, or the column is added and the
handle for it is given out. -/
theorem run_pushCol (c : ColData) (rows : List ℕ) (vals : List Float) (m : Model) {h : Host σ}
    (hh : h.Honest) : ∃ h', h.Frame h' ∧
      ((∃ err, (pushCol c rows vals).run m h = ((.error err, m), h')) ∨
        (m.state ≠ .freed ∧ ∃ s,
          (Store.Op.addCol c rows vals).run m.engine.store = (.ok (), s) ∧
          (pushCol c rows vals).run m h =
            ((.ok ⟨m.id, m.vars.length, m.varGen⟩, m.gainedCol s), h'))) := by
  have hact : Engine.Performs (.addCol c rows vals) (Engine.addCol c rows vals : EngineM σ Int32) :=
    Engine.performs_edit _ rfl trivial
  obtain ⟨h', hframe, ⟨err, hrun⟩ | ⟨hfreed, s, hs, hrun⟩⟩ :=
    run_call_of_performs "add_var" hact m hh
  · refine ⟨h', hframe, .inl ⟨err, ?_⟩⟩
    rw [pushCol, run_bind, hrun]
  · -- After the call nothing can fail, and the host changes by an event only.
    have hrest : ∃ journal, (pushCol c rows vals).run m h = ((.ok ⟨m.id, m.vars.length, m.varGen⟩,
        touched { m.withStore s with vars := m.vars ++ [⟨m.id, m.vars.length, m.varGen⟩] }),
        { h' with journal }) := by
      rw [pushCol, run_bind, hrun]
      exact ⟨_, rfl⟩
    have hgained : touched { m.withStore s with
        vars := m.vars ++ [⟨m.id, m.vars.length, m.varGen⟩] } = m.gainedCol s := if_neg hfreed
    obtain ⟨journal, hrest⟩ := hrest
    rw [hgained] at hrest
    exact ⟨{ h' with journal }, hframe.trans ⟨rfl, rfl⟩, .inr ⟨hfreed, s, hs, hrest⟩⟩

/-- Adding a row whose handles are accepted: the call fails and the model stays as it is, or the row
is added and the handle for it is given out. -/
theorem run_pushRow (row : StatedRow Float) (name : Option String) {m : Model} {h : Host σ}
    (hh : h.Honest) {cols : List ℕ} {vals : List Float}
    (hparts : m.linearParts row.expr.purge = .ok (cols, vals)) : ∃ h', h.Frame h' ∧
      ((∃ err, (pushRow row name).run m h = ((.error err, m), h')) ∨
        (m.state ≠ .freed ∧ ∃ s,
          (Store.Op.addRow ⟨row.lower, row.upper, name⟩ cols vals).run m.engine.store =
            (.ok (), s) ∧
          (pushRow row name).run m h =
            ((.ok ⟨m.id, m.conss.length, m.consGen⟩, m.gainedRow s), h'))) := by
  have hact : Engine.Performs (.addRow ⟨row.lower, row.upper, name⟩ cols vals)
      (Engine.addRow ⟨row.lower, row.upper, name⟩ cols vals : EngineM σ Int32) :=
    Engine.performs_edit _ rfl trivial
  have hchecked : (checked fun m => m.linearParts row.expr.purge : ModelM σ _).run m h =
      ((.ok (cols, vals), m), h) := by
    rw [← hparts]
    rfl
  obtain ⟨h', hframe, ⟨err, hrun⟩ | ⟨hfreed, s, hs, hrun⟩⟩ :=
    run_call_of_performs "add_cons" hact m hh
  · refine ⟨h', hframe, .inl ⟨err, ?_⟩⟩
    rw [pushRow, run_bind, hchecked]
    dsimp only
    rw [run_bind, hrun]
  · have hrest : ∃ journal, (pushRow row name).run m h = ((.ok ⟨m.id, m.conss.length, m.consGen⟩,
        touched { m.withStore s with conss := m.conss ++ [⟨m.id, m.conss.length, m.consGen⟩] }),
        { h' with journal }) := by
      rw [pushRow, run_bind, hchecked]
      dsimp only
      rw [run_bind, hrun]
      exact ⟨_, rfl⟩
    have hgained : touched { m.withStore s with
        conss := m.conss ++ [⟨m.id, m.conss.length, m.consGen⟩] } = m.gainedRow s := if_neg hfreed
    obtain ⟨journal, hrest⟩ := hrest
    rw [hgained] at hrest
    exact ⟨{ h' with journal }, hframe.trans ⟨rfl, rfl⟩, .inr ⟨hfreed, s, hs, hrest⟩⟩

/-- Adding a row whose handles are not all accepted. -/
theorem run_pushRow_of_error (row : StatedRow Float) (name : Option String) {m : Model}
    {err : Error} (hparts : m.linearParts row.expr.purge = .error err) (h : Host σ) :
    (pushRow row name).run m h = ((.error err, m), h) := by
  have hchecked : (checked fun m => m.linearParts row.expr.purge : ModelM σ _).run m h =
      ((.error err, m), h) := by
    rw [← hparts]
    rfl
  rw [pushRow, run_bind, hchecked]

/-- Adding a column. -/
theorem leads_pushCol {c : ColData} {rows : List ℕ} {vals : List Float} :
    Leads W (pushCol c rows vals : ModelM σ Var) := by
  intro m h hh
  obtain ⟨h', hframe, ⟨err, hrun⟩ | ⟨hfreed, s, hs, hrun⟩⟩ := run_pushCol c rows vals m hh
  · rw [hrun]
    exact ⟨hframe, .refl m⟩
  · rw [hrun]
    exact ⟨hframe, .of_addCol hfreed hs⟩

/-- Adding a row. -/
theorem leads_pushRow {row : StatedRow Float} {name : Option String} :
    Leads W (pushRow row name : ModelM σ Cons) := by
  intro m h hh
  cases hparts : m.linearParts row.expr.purge with
  | error err =>
    rw [run_pushRow_of_error row name hparts]
    exact ⟨.refl h, .refl m⟩
  | ok parts =>
    obtain ⟨h', hframe, ⟨err, hrun⟩ | ⟨hfreed, s, hs, hrun⟩⟩ := run_pushRow row name hh hparts
    · rw [hrun]
      exact ⟨hframe, .refl m⟩
    · rw [hrun]
      exact ⟨hframe, .of_addRow hfreed hs⟩

end Model

end MathProgram

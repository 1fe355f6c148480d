import MathProgram.Proofs.Model.Batches
import MathProgram.Proofs.Model.Calls
import MathProgram.Solver.Scripted

/-!
# Rosters in step with the engine

A model's rosters are in step if there is one handle for each column and each row of the engine, in
order, with the model's number and its present generations. A new model's rosters are, and every
call keeps them so, whether it succeeds or fails; the one exception is a task file that is not read
to its end (`InStep.happens`, and `Matches.happens` of one roster by itself). A batch that fails
half way is no exception, and bringing the rosters in step always works (`rosters_in_step`).
-/

namespace MathProgram

/-- The handles of all columns or rows, in order. -/
theorem Handle.eq_allOf_iff {k : Kind} {xs : List (Handle k)} {model : ModelId}
    {generation : UInt32} {n : ℕ} : xs = allOf model generation n ↔
      xs.length = n ∧ ∀ j (h : j < xs.length), xs[j] = ⟨model, j, generation⟩ := by
  constructor
  · rintro rfl
    simp [allOf]
  · rintro ⟨rfl, hxs⟩
    refine List.ext_getElem (by simp [allOf]) fun j hj _ => ?_
    simp [hxs j hj, allOf]

namespace Model

/-- The rosters are in step with the engine. -/
structure InStep (m : Model) : Prop where
  numVars : m.vars.length = m.engine.numCols
  numConss : m.conss.length = m.engine.numRows
  vars : ∀ j (h : j < m.vars.length), m.vars[j] = ⟨m.id, j, m.varGen⟩
  conss : ∀ i (h : i < m.conss.length), m.conss[i] = ⟨m.id, i, m.consGen⟩

variable {m m' : Model}

/-- Rosters in step hold the handles of all columns and rows. -/
theorem inStep_iff : m.InStep ↔
    ∀ k, m.roster k = Handle.allOf m.id (m.generation k) (m.count k) := by
  constructor
  · intro h k
    cases k
    · exact Handle.eq_allOf_iff.2 ⟨h.numVars, h.vars⟩
    · exact Handle.eq_allOf_iff.2 ⟨h.numConss, h.conss⟩
  · intro h
    obtain ⟨hnumVars, hvars⟩ := Handle.eq_allOf_iff.1 (h .variable)
    obtain ⟨hnumConss, hconss⟩ := Handle.eq_allOf_iff.1 (h .constraint)
    exact ⟨hnumVars, hnumConss, hvars, hconss⟩

/-- Bringing the rosters in step does so. -/
theorem inStep_renewed (m : Model) : m.renewVars.renewConss.InStep :=
  inStep_iff.2 fun k => by cases k <;> rfl

end Model

/-! ## One roster -/

/-- The roster of a kind holds the handles of all columns or rows. -/
def Model.Matches (m : Model) (k : Kind) : Prop :=
  m.roster k = Handle.allOf m.id (m.generation k) (m.count k)

/-- What a call does renews the roster of a kind. -/
def Call.Effect.Renews (k : Kind) : Call.Effect → Prop
  | .deletes k' _ => k' = k
  | .loads | .syncs => True
  | .grows | .marks | .frees | .spoils | .drafts => False

namespace Model.Matches

variable {m m' : Model} {k : Kind} {W : Scope}

/-- A roster still matches if it stays, and so do its generation and the number of columns or rows.
-/
theorem congr (hm : m.Matches k) (hid : m'.id = m.id) (hroster : m'.roster k = m.roster k)
    (hgen : m'.generation k = m.generation k) (hcount : m'.count k = m.count k) : m'.Matches k := by
  rw [Matches, hroster, hid, hgen, hcount, hm]

/-- There are as many handles as columns or rows. -/
theorem length_roster (hm : m.Matches k) : (m.roster k).length = m.count k := by
  rw [hm, Handle.allOf_eq_issued, Handle.length_issued]

/-- A roster that grows still matches. -/
theorem grows (hm : m.Matches k) (h : m.Grows W m') : m'.Matches k := by
  obtain ⟨n, hcount, hroster⟩ := h.roster k
  -- The new handles go on where those of all columns or rows end.
  rw [Matches, hroster, hm.length_roster, hm, h.id, h.generation, hcount, Handle.allOf_eq_issued,
    Handle.allOf_eq_issued]
  have happend := Handle.issued_append (k := k) m.id (m.generation k) 0 (m.count k) n
  rwa [Nat.zero_add] at happend

/-- An engine that has kept its number of columns or rows. -/
theorem of_engine (hm : m.Matches k) {e : Engine} {state : ModelState} {env : Option ℕ}
    (hcount : e.store.count k = m.count k) :
    Matches { m with engine := e, state := state, env := env } k := by
  cases k <;> exact hm.congr rfl rfl rfl hcount

/-- A roster that is renewed matches. -/
theorem of_renews {effect : Call.Effect} (h : Call.Happens W effect m m')
    (hrenews : effect.Renews k) : m'.Matches k := by
  cases effect with
  | grows | marks | frees | spoils | drafts => exact hrenews.elim
  | deletes k' removed =>
    obtain ⟨-, s, -, rfl⟩ := h
    obtain rfl : k' = k := hrenews
    cases k' <;> rfl
  | loads =>
    obtain ⟨-, e, -, -, -, rfl⟩ := h
    cases k <;> rfl
  | syncs =>
    obtain ⟨-, rfl⟩ := h
    cases k <;> rfl

/-- What a call does keeps a roster matched, unless a task file is not read to its end. -/
theorem happens (hm : m.Matches k) {effect : Call.Effect} (h : Call.Happens W effect m m')
    (heffect : effect ≠ .spoils) : m'.Matches k := by
  by_cases hrenews : effect.Renews k
  · exact of_renews h hrenews
  · cases effect with
    | loads | syncs => exact absurd trivial hrenews
    | spoils => exact absurd rfl heffect
    | grows => exact hm.grows h
    | deletes k' removed =>
      obtain ⟨-, s, hs, rfl⟩ := h
      obtain ⟨-, hothers⟩ := Store.run_deletion hs
      -- The roster of the other kind is renewed.
      have hcount : s.count k = m.count k := by
        rw [count, ← Store.length_records, hothers k (Ne.symm hrenews), Store.length_records]
      cases k' <;> cases k <;> first | exact absurd rfl hrenews | exact hm.congr rfl rfl rfl hcount
    | marks =>
      obtain ⟨-, e, ops, hops, hstore, rfl⟩ := h
      exact hm.of_engine (count_of_inPlace (fun op hop => (hops op hop).inPlace) hstore k)
    | frees =>
      obtain ⟨-, rfl⟩ | ⟨-, e, hstore, rfl⟩ := h
      · exact hm
      · exact hm.of_engine (congrArg (Store.count · k) hstore)
    | drafts =>
      obtain ⟨e, ops, hops, hstore, rfl, -⟩ := h
      exact hm.of_engine (count_of_inPlace (fun op hop => (hops op hop).1) hstore k)

end Model.Matches

namespace Model

variable {m m' : Model} {W : Scope}

namespace InStep

/-- Rosters that grow stay in step. -/
theorem grows (hm : m.InStep) (h : m.Grows W m') : m'.InStep :=
  inStep_iff.2 fun k => Matches.grows (inStep_iff.1 hm k) h

/-- What a call does keeps the rosters in step, unless a task file is not read to its end. -/
theorem happens (hm : m.InStep) {effect : Call.Effect} (h : Call.Happens W effect m m')
    (heffect : effect ≠ .spoils) : m'.InStep :=
  inStep_iff.2 fun k => Matches.happens (inStep_iff.1 hm k) h heffect

/-- Turns keep the rosters in step, if none of them fails to read a task file. -/
theorem afterTurns {σ : Type} [Solver σ] {turns : List (Turn σ)} (hm : m.InStep)
    (hhonest : ∀ t ∈ turns, t.host.Honest)
    (hread : ∀ done t rest, turns = done ++ t :: rest → ¬t.FailsToReadTask (m.afterTurns done)) :
    (m.afterTurns turns).InStep := by
  induction turns generalizing m with
  | nil => exact hm
  | cons t turns ih =>
    obtain ⟨ht, hturns⟩ := List.forall_mem_cons.1 hhonest
    have hsound : t.effect m ≠ .spoils := fun heffect => by
      obtain ⟨file, parts, err, hcall, hresult⟩ := Call.effect_eq_spoils heffect
      exact hread [] t turns rfl ⟨file, parts, err, hcall, hresult⟩
    refine ih (hm.happens (t.happens ht m) hsound) hturns fun done t' rest hrest => ?_
    exact hread (t :: done) t' rest (congrArg (t :: ·) hrest)

end InStep

variable {σ : Type}

/-- The rosters of a new model are in step. -/
theorem inStep_ofEngine (engine : Engine) (env : Option ℕ) (h : Host σ) :
    InStep { ((ofEngine engine).run h).1 with env } := by
  obtain ⟨state, journal, -, hrun⟩ := run_ofEngine engine h
  have hm : ({ ((ofEngine engine).run h).1 with env } : Model) =
      { ({ id := h.models, engine : Model }).renewVars.renewConss with state, env } :=
    congrArg (fun r => { r.1 with env }) hrun
  rw [hm]
  exact inStep_iff.2 fun k => by cases k <;> rfl

variable [Solver σ]

/-- A model's rosters are in step with its engine after any calls, if no reading of a task file
fails: the model was built around any engine, each call is made on any host, and calls of the engine
may fail without an effect. Batches of additions do not have to succeed: the rosters and the problem
have then gained what was added before the first addition that failed. And whatever the rosters of a
model are that has not been freed, bringing them in step succeeds and does so. -/
theorem rosters_in_step :
    (∀ (engine : Engine) (env : Option ℕ) (start : Host σ) (turns : List (Turn σ)),
      let m : Model := { ((ofEngine engine).run start).1 with env }
      (∀ t ∈ turns, t.host.Honest) →
      (∀ done t rest, turns = done ++ t :: rest → ¬t.FailsToReadTask (m.afterTurns done)) →
      (m.afterTurns turns).InStep) ∧
    (∀ (k : Kind) (b : Batch k) (m : Model) (h : Host σ), h.Honest →
      m.Ends σ b.additions (b.run.run m h).1.1 (b.run.run m h).1.2) ∧
    ∀ (m : Model) (h : Host σ), m.state ≠ .freed →
      ∃ m', (sync.run m h) = ((.ok (), m'), h) ∧ m'.InStep ∧ m'.engine = m.engine := by
  refine ⟨fun engine env start turns => ?_, fun k b m h hh => b.ends m hh, fun m h hfreed => ?_⟩
  · intro m hhonest hread
    exact (inStep_ofEngine engine env start).afterTurns hhonest hread
  · refine ⟨m.renewVars.renewConss, ?_, inStep_renewed m, rfl⟩
    rw [sync, ModelM.run_bind, ModelM.run_checkUsable, if_neg hfreed]
    rfl

/-- A host on which the third call that adds a column fails. -/
def twoColumnsHost : Host ScriptedSolver where
  solver := {}
  script := { faults := .ofTable [(.addCol, 2, 1)] }

/-- A batch of three variables of which two are added, to a model around a store without columns. -/
theorem rosters_in_step_two_of_three :
    let m : Model := ((create true .plain none).run twoColumnsHost).1
    let m' : Model := m.afterTurns [⟨.addVars 3 false, twoColumnsHost⟩]
    m'.vars = [⟨0, 0, 1⟩, ⟨0, 1, 1⟩] ∧ m'.InStep ∧
      (∃ r, m.Ends ScriptedSolver (Batch.vars 3 false).additions r m') ∧
      ∃ m'', sync.run m' twoColumnsHost = ((.ok (), m''), twoColumnsHost) ∧ m''.InStep := by
  intro m m'
  have hhonest : twoColumnsHost.Honest := Host.honest_ofTable rfl (by decide)
  have hread (t : Turn ScriptedSolver) (ht : t ∈ [⟨.addVars 3 false, twoColumnsHost⟩])
      (m : Model) : ¬t.FailsToReadTask m := by
    rintro ⟨file, parts, err, hcall, -⟩
    obtain rfl := List.mem_singleton.1 ht
    cases hcall
  obtain ⟨hturns, hbatch, hsync⟩ := rosters_in_step (σ := ScriptedSolver)
  refine ⟨by decide, ?_, ⟨_, hbatch .variable (.vars 3 false) m twoColumnsHost hhonest⟩, ?_⟩
  · refine hturns (.empty .plain true none) none twoColumnsHost _ ?_ ?_
    · exact List.forall_mem_singleton.2 hhonest
    · exact fun done t rest hturns => hread t (hturns ▸ List.mem_append_cons_self) _
  · obtain ⟨m'', hrun, hm'', -⟩ := hsync m' twoColumnsHost (by decide)
    exact ⟨m'', hrun, hm''⟩

end Model

end MathProgram

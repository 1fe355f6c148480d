import MathProgram.Proofs.Model.ReadBack
import MathProgram.Proofs.Store.Deletion

/-!
# Deleting variables and constraints

Deleting what handles stand for deletes their columns or rows, in whatever order the handles come
and however often they are repeated: the engine is asked for each number once. What is left is what
`Store.Deleted` says, or nothing has changed; and of a model whose rosters are in step a deletion
fails only by a fault that was prescribed for the engine (`Model.deletes_deletion`). Together with
what a deletion leaves of a store that is `Model.deletion_keeps_survivors`.
-/

namespace MathProgram

open ModelM

variable {σ : Type} {k : Kind}

/-- The call that deletes columns or rows. -/
def EngineCall.deletion : Kind → EngineCall
  | .variable => .deleteCols
  | .constraint => .deleteRows

namespace Model

/-- A computation deletes columns or rows of a model, on every honest host, and changes nothing else
of the problem; or else it fails and changes nothing. Of a model that can be used and whose rosters
are in step it fails only by a fault that the host's script prescribes for the engine's call. -/
def Deletes (m : Model) (k : Kind) (removed : List ℕ) (act : ModelM σ Unit) : Prop :=
  ∀ h : Host σ, h.Honest → ∃ h', h.Frame h' ∧
    ((∃ m', act.run m h = ((.ok (), m'), h') ∧
        Store.Deleted k removed m.engine.store m'.engine.store) ∨
      ∃ err, act.run m h = ((.error err, m), h') ∧ (m.InStep → m.state ≠ .freed →
        ∃ n code, m.engine.scripted = true ∧ h.script.faults.verdict (.deletion k) n = some code ∧
          err = .engine code (ResultCode.explain code)))

variable {m : Model}

/-- The engine is asked for just the numbers given. -/
theorem mem_distinct {is : List ℕ} {i : ℕ} : i ∈ distinct is ↔ i ∈ is := by
  rw [distinct, List.mem_eraseDups, List.mem_mergeSort]

/-- A model that can be used deletes what handles stand for that there is, unless the script makes
the call fail. -/
theorem run_deletion_of_lt (x : Handle k) (xs : List (Handle k))
    (haccept : ∀ y ∈ x :: xs, m.accept y = .ok y.index)
    (hlt : ∀ y ∈ x :: xs, y.index < m.engine.store.count k) (hfreed : m.state ≠ .freed) {h : Host σ}
    (hh : h.Honest) :
    (∃ m', ((deletion k (x :: xs)).run m h).1 = (.ok (), m')) ∨
      ∃ n code, m.engine.scripted = true ∧ h.script.faults.verdict (.deletion k) n = some code ∧
        ((deletion k (x :: xs)).run m h).1 =
          (.error (.engine code (ResultCode.explain code)), m) := by
  have hindexes : (x :: xs).mapM m.accept = .ok ((x :: xs).map (·.index)) :=
    mapM_accept_eq_ok_iff.2 ⟨haccept, rfl⟩
  have hremoved : ∀ i ∈ distinct ((x :: xs).map (·.index)), i < m.engine.store.count k := by
    intro i hi
    obtain ⟨y, hy, rfl⟩ := List.mem_map.1 (mem_distinct.1 hi)
    exact hlt y hy
  obtain ⟨p, hp, -⟩ := Store.exists_deletion m.engine.store hremoved
  have hedit : (engineDeletion k (distinct ((x :: xs).map (·.index))) : EngineM σ Int32) =
      Engine.edit (.deletion k) (·.edit (·.deletion k (distinct ((x :: xs).map (·.index))))) := by
    cases k <;> rfl
  obtain ⟨operation, rest, hrest, hsteps⟩ := exists_deletion_steps (σ := σ) x xs
  obtain ⟨h₁, -, hcall⟩ := run_call_edit_of_ok operation (.deletion k)
    (·.deletion k (distinct ((x :: xs).map (·.index)))) hfreed hp hh
  rw [hsteps, run_bind, run_checked, hindexes]
  dsimp only
  rw [run_bind, hedit]
  obtain hcall | ⟨n, code, hscripted, hverdict, hcall⟩ := hcall
  · obtain ⟨h₂, -, hrun⟩ := hrest (distinct ((x :: xs).map (·.index)))
      (m.withStore (m.engine.store.withProblem p)) h₁
    rw [hcall]
    dsimp only
    rw [hrun]
    exact .inl ⟨_, rfl⟩
  · rw [hcall]
    exact .inr ⟨n, code, hscripted, hverdict, rfl⟩

/-- Deleting what handles stand for that are accepted. -/
theorem deletes_deletion (hs : m.engine.store.Reachable) {xs : List (Handle k)}
    (haccept : ∀ x ∈ xs, m.accept x = .ok x.index) :
    m.Deletes k (xs.map (·.index)) (deletion k xs : ModelM σ Unit) := fun h hh => by
  cases xs with
  | nil =>
    have hnothing : (deletion k [] : ModelM σ Unit).run m h = ((.ok (), m), h) := by cases k <;> rfl
    exact ⟨h, .refl h, .inl ⟨m, hnothing, .refl hs.sound.problem k⟩⟩
  | cons x xs =>
    obtain ⟨hframe, hcases⟩ := happens_deletion (W := Scope.empty) x xs m hh
    refine ⟨_, hframe, ?_⟩
    obtain ⟨err, hrun⟩ | ⟨m', hrun, -, s, hs', rfl⟩ := hcases
    · refine .inr ⟨err, Prod.ext hrun rfl, fun hm hfreed => ?_⟩
      -- The engine has the columns or rows, so only the script can have made it fail.
      have hlt : ∀ y ∈ x :: xs, y.index < m.engine.store.count k := fun y hy =>
        hm.index_lt (haccept y hy)
      obtain ⟨m', hok⟩ | ⟨n, code, hscripted, hverdict, hfault⟩ :=
        run_deletion_of_lt x xs haccept hlt hfreed hh
      · rw [hrun] at hok
        cases hok
      · rw [hrun] at hfault
        cases hfault
        exact ⟨n, code, hscripted, hverdict, rfl⟩
    · have hstore : ({ (m.withStore s).renew k with state := .populated } : Model).engine.store =
          s := by cases k <;> rfl
      refine .inl ⟨_, Prod.ext hrun rfl, ?_⟩
      rw [hstore]
      exact (hs.sound.deleted hs').congr fun i => mem_distinct

/-! ## Main theorem -/

/-- Deleting columns or rows keeps those that survive, in order, with all their data. The numbers to
delete come in any order and repeated. What stands at a new number, the place of an old one among
those that are kept, is what stood at the old one: the record, the entries of the matrix, and, for
columns, those of the quadratic form; the other records, the parameters, the sense and the constant
stay. Deleting some numbers and then, by their new numbers, what is left of others is deleting all
of them at once. And with handles that a model accepts, deleting variables or constraints does this
to the problem. -/
theorem deletion_keeps_survivors :
    (∀ (s : Store) (k : Kind) (removed : List ℕ), s.Reachable → (∀ i ∈ removed, i < s.count k) →
      ∃ s', (Store.Op.deletion k removed).run s = (.ok (), s') ∧ Store.Deleted k removed s s') ∧
    (∀ (s : Store) (k : Kind) (A B R AB : List ℕ), s.Reachable →
      (∀ i ∈ A, i < s.count k) → (∀ i ∈ B, i < s.count k) →
      (∀ r, r ∈ R ↔ ∃ b ∈ B, (kept A (s.count k))[r]? = some b) →
      (∀ i, i ∈ AB ↔ i ∈ A ∨ i ∈ B) →
        (Store.Op.deletion k R).run ((Store.Op.deletion k A).run s).2 =
          (Store.Op.deletion k AB).run s) ∧
    ∀ (m : Model) (k : Kind) (xs : List (Handle k)), m.engine.store.Reachable →
      (∀ x ∈ xs, m.accept x = .ok x.index) →
        m.Deletes k (xs.map (·.index)) (deletion k xs : ModelM σ Unit) := by
  refine ⟨fun s k removed hs hremoved => ?_, fun s k A B R AB hs hA hB hR hAB => ?_,
    fun m k xs hs haccept => deletes_deletion hs haccept⟩
  · obtain ⟨p, -, hrun⟩ := Store.exists_deletion s hremoved
    exact ⟨_, hrun, hs.sound.deleted hrun⟩
  · exact hs.sound.deletion_deletion hA hB hR hAB

/-- A model of three variables and a constraint, with a product of two variables in the objective.
-/
def threeWithProduct : Model where
  id := 0
  engine := {
    backend := .plain
    store := .afterOps none (List.replicate 3 (.addCol (defaultCol false) [] []) ++
      [.addRow ⟨0, 1, none⟩ [0, 2] [1, 2], .setQuadElements [2] [1] [5]]) }
  vars := Handle.allOf 0 1 3
  conss := Handle.allOf 0 1 1
  varGen := 1
  consGen := 1
  state := .populated

/-- The first column, named twice, is deleted, and entries of the matrix and of the quadratic form
move; the first and then the last column are deleted, or both at once; and handles of them that are
repeated delete both. -/
theorem deletion_keeps_survivors_repeated :
    (∃ s', (Store.Op.deletion .variable [0, 0]).run threeWithProduct.engine.store = (.ok (), s') ∧
      (s'.problem.lines .variable).get? (1, 0) = some 2 ∧
      s'.problem.quadCoef? s(1, 0) = some 5) ∧
    (Store.Op.deletion .variable [1, 1]).run
        ((Store.Op.deletion .variable [0]).run threeWithProduct.engine.store).2 =
      (Store.Op.deletion .variable [2, 0, 2]).run threeWithProduct.engine.store ∧
    threeWithProduct.Deletes .variable [2, 0, 2]
      (deleteVars [⟨0, 2, 1⟩, ⟨0, 0, 1⟩, ⟨0, 2, 1⟩] : ModelM ScriptedSolver Unit) := by
  obtain ⟨hone, htwo, hmodel⟩ := deletion_keeps_survivors (σ := ScriptedSolver)
  have hs : threeWithProduct.engine.store.Reachable := ⟨none, _, rfl⟩
  refine ⟨?_, ?_, ?_⟩
  · obtain ⟨s', hrun, hs'⟩ := hone _ .variable [0, 0] hs (by decide)
    refine ⟨s', hrun, (hs'.entries 1 0 2).2 ⟨2, rfl, rfl⟩, ?_⟩
    exact (hs'.quad 1 0 5).2 ⟨2, 1, rfl, rfl, rfl⟩
  · refine htwo _ .variable [0] [2, 0] [1, 1] [2, 0, 2] hs (by decide) (by decide) ?_ ?_
    · intro r
      constructor
      · intro hr
        obtain rfl : r = 1 := by simpa using hr
        exact ⟨2, by decide, rfl⟩
      · rintro ⟨b, hb, hr⟩
        obtain ⟨-, hrank⟩ := getElem?_kept.1 hr
        obtain rfl | rfl : b = 2 ∨ b = 0 := by simpa using hb
        · obtain rfl : 1 = r := Option.some.inj hrank
          decide
        · cases hrank
    · intro i
      simp only [List.mem_cons, List.not_mem_nil, or_false]
      omega
  · refine hmodel _ .variable [⟨0, 2, 1⟩, ⟨0, 0, 1⟩, ⟨0, 2, 1⟩] hs ?_
    decide

end Model

end MathProgram

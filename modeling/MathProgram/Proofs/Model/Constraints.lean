import MathProgram.Proofs.Model.ReadBack
import MathProgram.Proofs.Model.Refusal
import MathProgram.Proofs.Relation

/-!
# Constraints that are added

A constraint with two sides becomes the row that states it, and a range becomes the row between its
bounds; a batch adds the rows that its constraints would add one by one. With handles that the model
accepts the row goes into the engine with its terms merged, or nothing changes; if the rosters are
in step only a fault that was prescribed for the engine can prevent it (`Model.adds_pushRow`).
Together with what such rows mean in exact arithmetic, a constraint that is added means what was
written (`Model.constraints_mean_what_was_written`).
-/

namespace MathProgram

open ModelM

variable {σ : Type}

/-- A problem takes a row whose columns it has. -/
theorem Problem.exists_addRow {p : Problem} (r : RowData) {cols : List ℕ} {vals : List Float}
    (hlength : cols.length = vals.length) (hcols : ∀ j ∈ cols, j < p.numCols) :
    ∃ p', p.addRow r cols vals = .ok p' := by
  have hinside : ¬cols.any (p.numCols ≤ ·) = true := by
    simpa using hcols
  rw [Problem.addRow, if_neg (not_not.2 hlength), if_neg hinside]
  exact ⟨_, rfl⟩

namespace Model

/-- A computation adds a row to a model, on every honest host, with its terms merged, and nothing
else; or else it fails and changes nothing. Of a model that can be used and whose rosters are in
step it fails only by a fault that the host's script prescribes for the engine's call. -/
def Adds (m : Model) (act : ModelM σ Cons) (row : StatedRow Float) (name : Option String) : Prop :=
  ∀ h : Host σ, h.Honest → ∃ h', h.Frame h' ∧
    ((∃ c m', act.run m h = ((.ok c, m'), h') ∧ m'.conss = m.conss ++ [c] ∧
        m.Gained [.cons row name] m' ∧
        m.problem.LineAdded .constraint m'.problem row.expr.terms.purge.indexed) ∨
      ∃ err, act.run m h = ((.error err, m), h') ∧ (m.InStep → m.state ≠ .freed →
        ∃ n code, m.engine.scripted = true ∧ h.script.faults.verdict .addRow n = some code ∧
          err = .engine code (ResultCode.explain code)))

variable {m : Model}

/-- The parts of a merged expression whose handles are accepted. -/
theorem linearParts_purge_of_accepts {e : LinearExpr Float}
    (haccept : ∀ y ∈ e.vars, m.accept y = .ok y.index) :
    m.linearParts e.purge = .ok (e.purge.vars.map (·.index), e.purge.coefs) := by
  have hindexes : e.purge.vars.mapM m.accept = .ok (e.purge.vars.map (·.index)) :=
    mapM_accept_eq_ok_iff.2 ⟨fun y hy => haccept y
      (Handle.mem_of_mem_leading (Terms.mem_handles_purge.1 hy)), rfl⟩
  have hparts : m.linearParts e.purge =
      e.purge.vars.mapM m.accept >>= fun js => pure (js, e.purge.coefs) := rfl
  rw [hparts, hindexes]
  rfl

/-- The parts of a merged expression are the indexes and coefficients of its terms. -/
theorem zip_purge (e : LinearExpr Float) :
    (e.purge.vars.map (·.index)).zip e.purge.coefs = e.terms.purge.indexed := by
  rw [LinearExpr.vars, LinearExpr.coefs, List.map_map]
  exact List.zip_map' ..

/-- Adding a row whose handles are accepted. -/
theorem adds_pushRow (hp : m.problem.WellFormed) {row : StatedRow Float} {name : Option String}
    (haccept : ∀ y ∈ row.expr.vars, m.accept y = .ok y.index) :
    m.Adds (pushRow row name : ModelM σ Cons) row name := fun h hh => by
  have hparts := linearParts_purge_of_accepts haccept
  obtain ⟨h', hframe, ⟨err, hrun⟩ | ⟨hfreed, s, hs, hrun⟩⟩ := run_pushRow row name hh hparts
  · refine ⟨h', hframe, .inr ⟨err, hrun, fun hm hfreed => ?_⟩⟩
    -- The engine has the columns, so it can take the row.
    have hcols : ∀ j ∈ row.expr.purge.vars.map (·.index), j < m.problem.numCols := by
      intro j hj
      obtain ⟨y, hy, rfl⟩ := List.mem_map.1 hj
      exact hm.index_lt (haccept y (Handle.mem_of_mem_leading (Terms.mem_handles_purge.1 hy)))
    have hlength : (row.expr.purge.vars.map (·.index)).length = row.expr.purge.coefs.length := by
      simp [LinearExpr.vars, LinearExpr.coefs]
    obtain ⟨p, hadd⟩ := Problem.exists_addRow ⟨row.lower, row.upper, name⟩ hlength hcols
    obtain ⟨h₁, -, hcall⟩ := run_call_edit_of_ok "add_cons" .addRow
      (·.addRow ⟨row.lower, row.upper, name⟩ (row.expr.purge.vars.map Handle.index)
        row.expr.purge.coefs) hfreed hadd hh
    rw [pushRow, run_bind, run_checked, hparts] at hrun
    dsimp only at hrun
    rw [run_bind, Engine.addRow] at hrun
    obtain hcall | ⟨n, code, hscripted, hverdict, hcall⟩ := hcall
    · rw [hcall] at hrun
      cases hrun
    · rw [hcall] at hrun
      cases hrun
      exact ⟨n, code, hscripted, hverdict, rfl⟩
  · obtain ⟨p, hadd, rfl⟩ := Store.edit_eq_ok (Store.run_eq_ok rfl hs)
    have hline := Problem.lineAdded_addRow hp hadd
    rw [zip_purge] at hline
    exact ⟨h', hframe, .inl ⟨_, _, hrun, rfl, .row hs, hline⟩⟩

/-- Adding a constraint that is stated by a row. -/
theorem adds_addCons (hp : m.problem.WellFormed) {left right : Side Float} {sense : Sense}
    {row : StatedRow Float} {name : Option String} (hrow : statedRow? left sense right = some row)
    (haccept : ∀ y ∈ sideVars left right, m.accept y = .ok y.index) :
    m.Adds (addCons left sense right name : ModelM σ Cons) row name := by
  have hvars := statedRow?_vars left sense right
  rw [hrow] at hvars
  rw [addCons, hrow]
  rw [← hvars] at haccept
  exact adds_pushRow hp haccept

/-! ## Batches -/

/-- Names of the right number are accepted. -/
theorem checkOptional_names {names : Option (List String)} {n : ℕ}
    (hnames : ∀ ns ∈ names, ns.length = n) : checkOptional .names n names = .ok () := by
  cases names with
  | none => rfl
  | some ns => exact if_pos (hnames ns rfl).symm

/-- A batch of constraints adds them one after the other. -/
theorem addConssWith_eq {es : List (LinearExpr Float)} {senses : List Sense} {bs : List Float}
    {names : Option (List String)} (hsenses : senses.length = es.length)
    (hbs : bs.length = es.length) (hnames : ∀ ns ∈ names, ns.length = es.length) :
    (addConssWith es senses bs names : ModelM σ (List Cons)) =
      (es.zip (senses.zip (bs.zip (namesOf es.length names)))).mapM fun (e, sense, b, name) =>
        addCons (.expr e) sense (.const b) name := by
  rw [addConssWith, checkLength, if_pos hsenses.symm, checkLength, if_pos hbs.symm,
    checkOptional_names hnames]
  rfl

/-- A batch of ranges adds them one after the other. -/
theorem addRanges_eq {es : List (LinearExpr Float)} {lowers uppers : List Float}
    {names : Option (List String)} (hlowers : lowers.length = es.length)
    (huppers : uppers.length = es.length) (hnames : ∀ ns ∈ names, ns.length = es.length) :
    (addRanges es lowers uppers names : ModelM σ (List Cons)) =
      (es.zip (lowers.zip (uppers.zip (namesOf es.length names)))).mapM
        fun (e, lower, upper, name) => addRange e lower upper name := by
  rw [addRanges, checkLength, if_pos hlowers.symm, checkLength, if_pos huppers.symm,
    checkOptional_names hnames]
  rfl

/-! ## Main theorem -/

/-- A constraint means what was written. In exact arithmetic, where bounds from the threshold on are
read as infinite, the row that states a constraint is satisfied by an assignment just if the
constraint holds, and the row that states a range just if the value lies in the range; a bound that
is not finite is left as it is. This takes that a bound which was finite is still so after the
constants were moved to it. With handles that the model accepts, a constraint adds the row that
states it unless both of its sides are constants, a range adds its row, and a batch adds its
constraints or ranges one by one. -/
theorem constraints_mean_what_was_written {α : Type} [CommRing α] [LinearOrder α]
    [IsStrictOrderedRing α] [BEq α] [LawfulBEq α] [Unbounded α] (hinf : 0 < (infinity : α))
    {m : Model} (hs : m.engine.store.Reachable) :
    (∀ (left right : Side α) (sense : Sense) (row : StatedRow α) (x : ℕ → α),
      left.StayFinite right → statedRow? left sense right = some row →
        (row.Holds x ↔ sense.Holds (left.value x) (right.value x))) ∧
    (∀ (e : LinearExpr α) (lower upper : α) (x : ℕ → α),
      StaysFinite lower e.constant → StaysFinite upper e.constant →
        ((rowBetween e lower upper).Holds x ↔
          readBound lower ≤ finite (e.value x) ∧ finite (e.value x) ≤ readBound upper)) ∧
    (∀ (e : LinearExpr α) (lower upper : α),
      (¬isFinite lower = true → (rowBetween e lower upper).lower = lower) ∧
        (¬isFinite upper = true → (rowBetween e lower upper).upper = upper)) ∧
    (∀ (left right : Side Float) (sense : Sense) (name : Option String),
      (∀ y ∈ sideVars left right, m.accept y = .ok y.index) →
        (∃ a b, left = .const a ∧ right = .const b) ∨
          ∃ row, statedRow? left sense right = some row ∧
            m.Adds (addCons left sense right name : ModelM σ Cons) row name) ∧
    (∀ (e : LinearExpr Float) (lower upper : Float) (name : Option String),
      (∀ y ∈ e.vars, m.accept y = .ok y.index) →
        m.Adds (addRange e lower upper name : ModelM σ Cons) (rowBetween e lower upper) name) ∧
    (∀ (es : List (LinearExpr Float)) (senses : List Sense) (bs : List Float)
      (names : Option (List String)), senses.length = es.length → bs.length = es.length →
        (∀ ns ∈ names, ns.length = es.length) →
        (addConssWith es senses bs names : ModelM σ (List Cons)) =
          (es.zip (senses.zip (bs.zip (namesOf es.length names)))).mapM
            fun (e, sense, b, name) => addCons (.expr e) sense (.const b) name) ∧
    ∀ (es : List (LinearExpr Float)) (lowers uppers : List Float) (names : Option (List String)),
      lowers.length = es.length → uppers.length = es.length →
        (∀ ns ∈ names, ns.length = es.length) →
        (addRanges es lowers uppers names : ModelM σ (List Cons)) =
          (es.zip (lowers.zip (uppers.zip (namesOf es.length names)))).mapM
            fun (e, lower, upper, name) => addRange e lower upper name := by
  have hp : m.problem.WellFormed := hs.sound.problem
  refine ⟨fun left right sense row x hstay hrow => holds_statedRow? hinf hstay hrow,
    fun e lower upper x hlower hupper => holds_rowBetween hlower hupper,
    fun e lower upper => ⟨fun h => if_neg h, fun h => if_neg h⟩,
    fun left right sense name haccept => ?_,
    fun e lower upper name haccept => adds_pushRow hp haccept,
    fun es senses bs names => addConssWith_eq, fun es lowers uppers names => addRanges_eq⟩
  cases hrow : statedRow? left sense right with
  | none => exact .inl (statedRow?_eq_none_iff.1 hrow)
  | some row => exact .inr ⟨row, rfl, adds_addCons hp hrow haccept⟩

end Model

/-- The rationals have the threshold of the doubles. -/
instance : Unbounded ℚ := ⟨10 ^ 20⟩

namespace Model

/-- The last variable twice and a constant. -/
def doubledVar (α : Type) [OfNat α 1] [OfNat α 2] : LinearExpr α :=
  ⟨[(⟨0, 2, 1⟩, 2), (⟨0, 2, 1⟩, 1)], 1⟩

/-- With a constant on the left the row has a lower bound, from which the constant is taken. It is
satisfied where three times the variable is six at least, and goes into the engine. -/
theorem constraints_mean_what_was_written_of_bound :
    (∃ row : StatedRow ℚ, statedRow? (.const 7) .lessEqual (.expr (doubledVar ℚ)) = some row ∧
      ∀ x : ℕ → ℚ, row.Holds x ↔ 6 ≤ 3 * x 2) ∧
    threeByOne.InStep ∧ threeByOne.state ≠ .freed ∧
    ∃ row : StatedRow Float,
      statedRow? (.const 7) .lessEqual (.expr (doubledVar Float)) = some row ∧
      threeByOne.Adds (addCons (.const 7) .lessEqual (.expr (doubledVar Float)) none :
        ModelM ScriptedSolver Cons) row none := by
  have hinf : (0 : ℚ) < infinity := by norm_num [infinity]
  obtain ⟨hmeans, -, -, hadds, -⟩ :=
    constraints_mean_what_was_written (σ := ScriptedSolver) hinf (m := threeByOne) ⟨none, _, rfl⟩
  have hfinite (v : ℚ) (hv : |v| < 10 ^ 20) : isFinite v = true := isFinite_iff.2 (abs_lt.1 hv)
  have hseven : readBound (7 : ℚ) = finite 7 := readBound_of_isFinite (hfinite 7 (by norm_num))
  have hstay : (Side.const 7).StayFinite (.expr (doubledVar ℚ)) := fun _ =>
    hfinite (7 - 1) (by norm_num)
  refine ⟨⟨_, rfl, fun x => ?_⟩, inStep_iff.2 fun k => by cases k <;> rfl, nofun, ?_⟩
  · rw [hmeans _ _ _ _ x hstay rfl]
    have hvalue : (doubledVar ℚ).value x = 2 * x 2 + (1 * x 2 + 0) + 1 := by
      rw [LinearExpr.value, doubledVar, Terms.value_cons, Terms.value_cons, Terms.value_nil]
    have hholds : Sense.lessEqual.Holds (readBound (7 : ℚ)) (finite ((doubledVar ℚ).value x)) ↔
        7 ≤ (doubledVar ℚ).value x := by
      rw [hseven]
      exact finite_le_finite
    refine hholds.trans ?_
    rw [hvalue]
    constructor <;> intro h <;> linarith
  · have haccept : ∀ y ∈ sideVars (.const 7) (.expr (doubledVar Float)),
        threeByOne.accept y = .ok y.index := by
      intro y hy
      obtain rfl : y = ⟨0, 2, 1⟩ := by simpa [sideVars, doubledVar, Side.toExpr,
        LinearExpr.ofConstant, LinearExpr.vars] using hy
      rfl
    obtain ⟨a, b, -, hconst⟩ | hrow := hadds _ _ .lessEqual none haccept
    · cases hconst
    · exact hrow

end Model

end MathProgram

import Mathlib.Data.Sym.Sym2
import MathProgram.Proofs.Expr.Sums
import MathProgram.Proofs.Model.Constraints
import MathProgram.Proofs.Store.Dense

/-!
# Objectives that are replaced

Replacing the objective is one call for each column, one for the constant and two for the quadratic
form. The linear part was merged before, so it assigns each column one value, and zero to those it
does not name; the quadratic part is written term by term into a form that was cleared, so of the
terms for a pair the last one stays (`lastFor?`). What was there before leaves no trace: the problem
that comes out is given by the expression alone, but for what has nothing to do with the objective
(`Problem.Restated`).

`Model.Reaches` says what a computation makes of a model on all hosts whose scripts leave the engine
alone (`Engine.Unhindered`). The call reaches the problem with the new objective if it accepts all
handles, and it changes nothing at all if it rejects one that it looks at
(`Model.objective_replaced`).
-/

namespace MathProgram

open ModelM

variable {σ : Type}

/-! ## The last of several values -/

section Last

variable {ι α β : Type} [DecidableEq ι] {i : ι} {b : β} {ps : List (ι × β)}

/-- The last value that is written for a key. -/
def lastFor? (i : ι) (ps : List (ι × β)) : Option β := (ps.filter (·.1 = i)).getLast?.map (·.2)

/-- One more value is the last for its key. -/
theorem lastFor?_append_singleton (i : ι) (ps : List (ι × β)) (p : ι × β) :
    lastFor? i (ps ++ [p]) = if p.1 = i then some p.2 else lastFor? i ps := by
  unfold lastFor?
  rw [List.filter_append]
  split_ifs with hp
  · simp [hp]
  · simp [hp]

/-- If there is at most one value for each key, the last one is the only one. -/
theorem lastFor?_eq_some_iff (hnodup : (ps.map (·.1)).Nodup) :
    lastFor? i ps = some b ↔ (i, b) ∈ ps := by
  have hmem {b : β} (h : lastFor? i ps = some b) : (i, b) ∈ ps := by
    obtain ⟨⟨i', b'⟩, hlast, rfl⟩ := Option.map_eq_some_iff.1 h
    obtain ⟨hp, hi⟩ := List.mem_filter.1 (List.mem_of_getLast? hlast)
    obtain rfl : i' = i := of_decide_eq_true hi
    exact hp
  refine ⟨hmem, fun hp => ?_⟩
  have hfilter : (i, b) ∈ ps.filter (·.1 = i) := List.mem_filter.2 ⟨hp, decide_eq_true rfl⟩
  obtain ⟨b', hb'⟩ : ∃ b', lastFor? i ps = some b' :=
    ⟨_, congrArg (Option.map _) (List.getLast?_eq_some_getLast (List.ne_nil_of_mem hfilter))⟩
  have hsame := List.inj_on_of_nodup_map hnodup (hmem hb') hp rfl
  rw [hb', (Prod.mk.inj hsame).2]

/-- Of values assigned from left to right the last is stored. -/
theorem assign_apply (f : ι → Option Float) (ps : List (ι × Float)) (i : ι) :
    assign f ps i = (lastFor? i ps).elim (f i) stored? := by
  induction ps using List.reverseRecOn with
  | nil => rfl
  | append_singleton ps p ih =>
    unfold assign at ih ⊢
    rw [List.foldl_append, List.foldl_cons, List.foldl_nil, Function.update_apply,
      lastFor?_append_singleton, ih]
    split_ifs with h h' h'
    · rfl
    · exact absurd h.symm h'
    · exact absurd h'.symm h
    · rfl

/-- Of changes of the items of a list, each of which overwrites what earlier ones did, the last one
stays. -/
theorem getElem?_foldl_modify {f : β → α → α} (hf : ∀ b b' a, f b (f b' a) = f b a)
    (ps : List (ℕ × β)) (xs : List α) (j : ℕ) :
    (ps.foldl (fun xs p => xs.modify p.1 (f p.2)) xs)[j]? =
      xs[j]?.map fun a => (lastFor? j ps).elim a (f · a) := by
  induction ps using List.reverseRecOn with
  | nil => exact Option.map_id'.symm
  | append_singleton ps p ih =>
    rw [List.foldl_append, List.foldl_cons, List.foldl_nil, List.getElem?_modify, ih,
      lastFor?_append_singleton, Option.map_eq_map, Option.map_map]
    refine congrArg (Option.map · xs[j]?) (funext fun a => ?_)
    dsimp only [Function.comp_apply]
    split_ifs with hp
    · cases lastFor? j ps with
      | none => rfl
      | some b => exact hf p.2 b a
    · rfl

end Last

/-! ## What is stated -/

namespace QuadExpr

/-- The coefficient of the linear part for a column, the sum of all that is written for it. -/
def coefAt (obj : QuadExpr Float) (j : ℕ) : Float :=
  (sum? ((obj.linear.terms.filter (·.1.index = j)).map (·.2))).getD 0

/-- The quadratic terms by their unordered pairs of columns. -/
def byPair (obj : QuadExpr Float) : List (Sym2 ℕ × Float) :=
  obj.quad.map fun t => (s(t.1.1.index, t.1.2.index), t.2)

end QuadExpr

/-- A problem has the objective of an expression in place of its own, and nothing else of it has
changed: columns have the coefficients of the linear part, and a pair of columns has the coefficient
of the last quadratic term that is written for it in either order, unless that is zero. -/
structure Problem.Restated (p : Problem) (obj : QuadExpr Float) (p' : Problem) : Prop where
  cols : ∀ j, p'.cols[j]? = p.cols[j]?.map fun c : ColData => { c with obj := obj.coefAt j }
  constant : p'.objConst = obj.linear.constant
  quad : ∀ pair, p'.quadCoef? pair = (lastFor? pair obj.byPair).bind stored?
  rest : p' = { p with cols := p'.cols, objConst := p'.objConst, quad := p'.quad }

/-! ## Computing the objective -/

section Scatter

variable {obj : QuadExpr Float} {model : ModelId} {generation : UInt32}

/-- Values put at positions that there are. -/
theorem Model.scatter_eq_ok {n : ℕ} {positions : List ℕ} (hpositions : ∀ j ∈ positions, j < n)
    (vals : List Float) : Model.scatter n positions vals = .ok
      ((positions.zip vals).foldl (fun xs p => xs.set p.1 p.2) (List.replicate n 0)) := by
  have hinside : ¬positions.any (n ≤ ·) = true := Problem.not_any_of_lt hpositions
  rw [Model.scatter, if_neg hinside]

/-- What a merged list has for an index is the sum of what the list has for it. -/
theorem Terms.Over.lastFor?_purge {ts : Terms .variable Float} (hts : ts.Over model generation)
    (j : ℕ) : lastFor? j ts.purge.indexed = sum? ((ts.filter (·.1.index = j)).map (·.2)) := by
  have hnodup : (ts.purge.indexed.map (·.1)).Nodup := by
    rw [Terms.indexed, List.map_map]
    exact hts.pairwise_index.imp fun hlt => hlt.ne
  refine Option.ext fun v => ?_
  rw [lastFor?_eq_some_iff hnodup, ← hts.mem_purge_iff]
  constructor
  · intro hmem
    obtain ⟨t, ht, heq⟩ := List.mem_map.1 hmem
    obtain ⟨rfl, rfl⟩ := Prod.mk.inj heq
    rw [← hts.purge.handle_eq ht]
    exact ht
  · intro hmem
    exact List.mem_map_of_mem (f := fun t => (t.1.index, t.2)) hmem

/-- What is put at the positions of a merged list are the coefficients of the columns. -/
theorem scattered_eq (hover : obj.linear.terms.Over model generation) (n : ℕ) :
    obj.linear.terms.purge.indexed.foldl (fun xs p => xs.set p.1 p.2)
      (List.replicate n (0 : Float)) = (List.range n).map obj.coefAt := by
  have hset : (fun (xs : List Float) (p : ℕ × Float) => xs.set p.1 p.2) =
      fun xs p => xs.modify p.1 ((fun v _ => v) p.2) :=
    funext₂ fun xs p => (List.modify_eq_set (fun _ => p.2) p.1 xs).symm
  refine List.ext_getElem? fun j => ?_
  rw [hset, getElem?_foldl_modify (f := fun v _ => v) fun _ _ _ => rfl, hover.lastFor?_purge,
    List.getElem?_replicate, List.getElem?_map]
  by_cases hj : j < n
  · rw [if_pos hj, List.getElem?_range hj, Option.map_some, Option.map_some, QuadExpr.coefAt]
    cases sum? ((obj.linear.terms.filter (·.1.index = j)).map (·.2)) <;> rfl
  · rw [if_neg hj, List.getElem?_eq_none (by simpa using hj)]
    rfl

/-- In a list with positions, what is at a position is the last value for it. -/
theorem lastFor?_zipIdx (xs : List Float) (j : ℕ) :
    lastFor? j (xs.zipIdx.map fun e => (e.2, e.1)) = xs[j]? := by
  have hnodup : ((xs.zipIdx.map fun e => (e.2, e.1)).map (·.1)).Nodup := by
    rw [List.map_map]
    show (xs.zipIdx.map (·.2)).Nodup
    rw [List.zipIdx_map_snd]
    exact List.nodup_range'
  refine Option.ext fun v => ?_
  rw [lastFor?_eq_some_iff hnodup, List.mem_map]
  constructor
  · rintro ⟨e, he, heq⟩
    obtain ⟨rfl, rfl⟩ := Prod.mk.inj heq
    exact List.mem_zipIdx_iff_getElem?.1 he
  · intro hv
    exact ⟨(v, j), List.mem_zipIdx_iff_getElem?.2 hv, rfl⟩

end Scatter

/-! ## What is written -/

namespace QuadExpr

/-- The coefficients of the linear part for a number of columns. -/
def objs (obj : QuadExpr Float) (n : ℕ) : List Float := (List.range n).map obj.coefAt

/-- The quadratic terms by the positions that they are written to. -/
def entries (obj : QuadExpr Float) : List (IndexPair × Float) :=
  ((obj.vars1.map (·.index)).zip (obj.vars2.map (·.index))).zip obj.coefs

/-- As unordered pairs these are those of the expression. -/
theorem entries_byPair (obj : QuadExpr Float) :
    (obj.entries.map fun e => (s(e.1.1, e.1.2), e.2)) = obj.byPair := by
  rw [entries, vars1, vars2, coefs, List.map_map, List.map_map, List.zip_map', List.zip_map',
    List.map_map]
  rfl

end QuadExpr

namespace Problem

/-- Columns with other coefficients in the objective. -/
def withObjs (objs : List Float) (cols : List ColData) : List ColData :=
  objs.zipIdx.foldl (fun cols e => cols.modify e.2 fun c => { c with obj := e.1 }) cols

/-- The problem that is left behind when its objective is replaced. -/
def restate (p : Problem) (obj : QuadExpr Float) : Problem :=
  { p with
    cols := withObjs (obj.objs p.numCols) p.cols
    objConst := obj.linear.constant
    quad := obj.entries.foldl (fun q e => setQuad q e.1.1 e.1.2 e.2) .empty }

/-- Each column has the coefficient that is at its position. -/
theorem getElem?_withObjs (objs : List Float) (cols : List ColData) (j : ℕ) :
    (withObjs objs cols)[j]? =
      cols[j]?.map fun c => objs[j]?.elim c fun v => { c with obj := v } := by
  have hswap : withObjs objs cols = (objs.zipIdx.map fun e => (e.2, e.1)).foldl
      (fun cols p => cols.modify p.1 fun c => { c with obj := p.2 }) cols := by
    rw [List.foldl_map, withObjs]
  rw [hswap, getElem?_foldl_modify (f := fun v (c : ColData) => { c with obj := v })
    fun _ _ _ => rfl, lastFor?_zipIdx]

/-- There are as many columns as before. -/
theorem length_withObjs (objs : List Float) (cols : List ColData) :
    (withObjs objs cols).length = cols.length := by
  unfold withObjs
  induction objs.zipIdx generalizing cols with
  | nil => rfl
  | cons e es ih => exact (ih _).trans (List.length_modify ..)

/-- When the coefficients and the constant are written and the quadratic form is cleared, writing
the quadratic terms at positions that are there gives that problem. -/
theorem setQuadElements_restate {p : Problem} {obj : QuadExpr Float}
    (hpos : p.QuadPositions (obj.vars1.map (·.index)) (obj.vars2.map (·.index))) :
    setQuadElements
      { p with
        cols := withObjs (obj.objs p.numCols) p.cols
        objConst := obj.linear.constant }.deleteAllQuadElements
      (obj.vars1.map (·.index)) (obj.vars2.map (·.index)) obj.coefs = .ok (p.restate obj) := by
  have hcols : (withObjs (obj.objs p.numCols) p.cols).length = p.numCols := length_withObjs ..
  have hcheck : checkQuadPositions
      { p with
        cols := withObjs (obj.objs p.numCols) p.cols
        objConst := obj.linear.constant }.deleteAllQuadElements
      (obj.vars1.map (·.index)) (obj.vars2.map (·.index)) = .ok () :=
    QuadPositions.check ⟨hpos.length, fun j hj => (hpos.cols₁_lt j hj).trans_eq hcols.symm,
      fun j hj => (hpos.cols₂_lt j hj).trans_eq hcols.symm⟩
  have hvals : obj.coefs.length = (obj.vars1.map (·.index)).length := by
    rw [QuadExpr.coefs, QuadExpr.vars1, List.length_map, List.length_map, List.length_map]
  rw [setQuadElements, hcheck, checkValues_of_length hvals]
  rfl

/-- That problem has the objective of the expression. -/
theorem restated_restate (p : Problem) (obj : QuadExpr Float) : p.Restated obj (p.restate obj) where
  cols j := by
    show (withObjs (obj.objs p.numCols) p.cols)[j]? = _
    rw [getElem?_withObjs, QuadExpr.objs, List.getElem?_map]
    by_cases hj : j < p.numCols
    · rw [List.getElem?_range hj]
      rfl
    · rw [List.getElem?_eq_none (Nat.not_lt.1 hj)]
      rfl
  constant := rfl
  quad pair := by
    have hempty : quadView .empty pair = none := by
      induction pair using Sym2.inductionOn with
      | hf i j => rfl
    show quadView (obj.entries.foldl (fun q e => setQuad q e.1.1 e.1.2 e.2) .empty) pair = _
    rw [quadView_foldl, obj.entries_byPair, assign_apply, hempty]
    cases lastFor? pair obj.byPair <;> rfl
  rest := rfl

end Problem

/-! ## Calls that are not hindered -/

/-- The script of a host makes no call of an engine fail. -/
def Engine.Unhindered (e : Engine) (h : Host σ) : Prop :=
  e.scripted = true → ∀ c n, h.script.faults.verdict c n = none

namespace Model

variable {m m' m'' : Model} {s : Store} {α β : Type}

/-- On every host that makes no call of the engine fail, a computation gives a value and leaves
another model behind, whose calls do not fail either. -/
def Reaches (σ : Type) (m : Model) (act : ModelM σ α) (a : α) (m' : Model) : Prop :=
  ∀ h : Host σ, m.engine.Unhindered h →
    ∃ h', h.Frame h' ∧ m'.engine.Unhindered h' ∧ act.run m h = ((.ok a, m'), h')

namespace Reaches

/-- One computation after another. -/
theorem bind {act : ModelM σ α} {next : α → ModelM σ β} {a : α} {b : β}
    (hact : Reaches σ m act a m') (hnext : Reaches σ m' (next a) b m'') :
    Reaches σ m (act >>= next) b m'' := by
  intro h hh
  obtain ⟨h₁, hframe₁, hh₁, hrun₁⟩ := hact h hh
  obtain ⟨h₂, hframe₂, hh₂, hrun₂⟩ := hnext h₁ hh₁
  refine ⟨h₂, hframe₁.trans hframe₂, hh₂, ?_⟩
  rw [run_bind, hrun₁]
  exact hrun₂

/-- Arguments that pass their check. -/
theorem checked {f : Model → Except Error α} {a : α} (hf : f m = .ok a) :
    Reaches σ m (ModelM.checked f) a m := fun h hh =>
  ⟨h, .refl h, hh, by rw [run_checked, hf]⟩

/-- A change of the problem is noted. -/
theorem touch (hfreed : m.state ≠ .freed) :
    Reaches σ m ModelM.touch () { m with state := .populated } := by
  have htouched : m.touched = { m with state := .populated } := if_neg hfreed
  rw [← htouched]
  exact fun h hh => ⟨h, .refl h, fun hscripted => hh (by rwa [htouched] at hscripted), rfl⟩

/-- A line for the journal. -/
theorem record {level : Level} {operation message : String} {fields : List (String × FieldValue)} :
    Reaches σ m (ModelM.record level operation message fields) () m := fun h hh =>
  ⟨((ModelM.record level operation message fields).run m h).2, ⟨rfl, rfl⟩, hh, rfl⟩

/-- A model that has not been freed. -/
theorem checkUsable (hfreed : m.state ≠ .freed) :
    Reaches σ m ModelM.checkUsable () m := checked (if_neg hfreed)

/-- A computation for each item of a list, of which each does its step while the models keep what
the steps need. -/
theorem forM {act : β → ModelM σ Unit} {step : Model → β → Model} {P : Model → Prop} {es : List β}
    (hstep : ∀ e ∈ es, ∀ m, P m → Reaches σ m (act e) () (step m e) ∧ P (step m e)) (hm : P m) :
    Reaches σ m (es.forM act) () (es.foldl step m) := by
  induction es generalizing m with
  | nil => exact fun h hh => ⟨h, .refl h, hh, rfl⟩
  | cons e es ih =>
    obtain ⟨hact, hm'⟩ := hstep e List.mem_cons_self m hm
    exact hact.bind (ih (fun e' he' => hstep e' (List.mem_cons_of_mem e he')) hm')

/-- A call that changes the store does so. -/
theorem call {operation : String} {c : EngineCall} {f : Store → Except ResultCode Store}
    (hfreed : m.state ≠ .freed) (hf : f m.engine.store = .ok s) :
    Reaches σ m (ModelM.call operation (Engine.edit c f)) () (m.withStore s) := by
  intro h hh
  have hedit : ∃ h', h.Frame h' ∧ (Engine.edit c f).run m.engine h =
      ((ResultCode.okay.code, { m.engine with store := s }), h') := by
    rw [Engine.edit, Engine.guardedCode, EngineM.run_bind]
    obtain ⟨h', hframe, hfault | ⟨n, code, hscripted, hverdict, -⟩⟩ :=
      Engine.run_fault?_verdict c m.engine h
    · refine ⟨h', hframe, ?_⟩
      rw [hfault]
      dsimp only
      rw [Engine.run_changeStore, TaskFile.attempt, hf]
      rfl
    · rw [hh hscripted c n] at hverdict
      cases hverdict
  obtain ⟨h', hframe, hrun⟩ := hedit
  refine ⟨h', hframe, fun hscripted c n => ?_, ?_⟩
  · rw [hframe.verdict]
    exact hh hscripted c n
  · rw [run_call, if_neg hfreed, hrun]
    rfl

end Reaches

/-! ## The steps of the call -/

/-- The model after the coefficients of all columns were written, one by one. -/
def objsWritten (m : Model) (objs : List Float) : Model :=
  objs.zipIdx.foldl (fun m e =>
    m.withStore (m.engine.store.modifyCol e.2 fun c => { c with obj := e.1 })) m

/-- The problem of the model has then these coefficients. -/
theorem problem_objsWritten (m : Model) (objs : List Float) :
    (m.objsWritten objs).problem =
      { m.problem with cols := Problem.withObjs objs m.problem.cols } := by
  unfold objsWritten Problem.withObjs
  induction objs.zipIdx generalizing m with
  | nil => rfl
  | cons e es ih => exact ih _

/-- Putting another problem in place makes up for what has become of the store before. -/
theorem withProblem_objsWritten (m : Model) (objs : List Float) (p : Problem) :
    (m.objsWritten objs).withStore ((m.objsWritten objs).engine.store.withProblem p) =
      m.withStore (m.engine.store.withProblem p) := by
  unfold objsWritten
  induction objs.zipIdx generalizing m with
  | nil => rfl
  | cons e es ih => exact ih _

/-- Writing the coefficients of all columns. -/
theorem reaches_objsWritten (operation : String) (hfreed : m.state ≠ .freed) {objs : List Float}
    (hlength : objs.length = m.engine.numCols) :
    Reaches σ m (objs.zipIdx.forM fun (c, j) =>
      ModelM.call operation (Engine.setRealAttr "Obj" (some j) c)) () (m.objsWritten objs) := by
  refine Reaches.forM (P := fun m' => m'.state ≠ .freed ∧ m'.engine.numCols = m.engine.numCols)
    (fun e he m' ⟨hfreed', hcols⟩ => ⟨.call hfreed' ?_, hfreed', ?_⟩) ⟨hfreed, rfl⟩
  · have hlt : e.2 < m'.engine.store.numCols := by
      have := List.mem_zipIdx he
      have : m'.engine.store.numCols = m'.engine.numCols := rfl
      omega
    exact if_neg (Nat.not_le.2 hlt)
  · exact (List.length_modify ..).trans hcols

/-- What follows the checks: the coefficients of the columns and the constant are written, and the
quadratic form is cleared and written again. -/
theorem reaches_restate (obj : QuadExpr Float) (hfreed : m.state ≠ .freed)
    (hpos : m.problem.QuadPositions (obj.vars1.map (·.index)) (obj.vars2.map (·.index)))
    {operation message : String} {fields : List (String × FieldValue)} :
    Reaches σ m (do
        (obj.objs m.problem.numCols).zipIdx.forM fun (c, j) =>
          ModelM.call operation (Engine.setRealAttr "Obj" (some j) c)
        ModelM.call operation (Engine.setRealAttr "ObjConst" none obj.linear.constant)
        ModelM.call operation Engine.deleteAllQuadElements
        ModelM.call operation (Engine.setQuadElements (obj.vars1.map (·.index))
          (obj.vars2.map (·.index)) obj.coefs)
        touch
        record .debug operation message fields) ()
      { m.withStore (m.engine.store.withProblem (m.problem.restate obj)) with
        state := .populated } := by
  have hlength : (obj.objs m.problem.numCols).length = m.engine.numCols := by
    rw [QuadExpr.objs, List.length_map, List.length_range]
    rfl
  have hcoefs := reaches_objsWritten (σ := σ) operation hfreed hlength
  have hsame := withProblem_objsWritten m (obj.objs m.problem.numCols)
  have hproblem := problem_objsWritten m (obj.objs m.problem.numCols)
  generalize m.objsWritten (obj.objs m.problem.numCols) = m₁ at hcoefs hsame hproblem
  have hfreed₁ : m₁.state ≠ .freed := by
    have hstate : m₁.state = m.state := congrArg (·.state) (hsame m.problem)
    rwa [hstate]
  -- From here on all that changes is the problem.
  let next (p : Problem) : Model := m₁.withStore (m₁.engine.store.withProblem p)
  have hedit {c : EngineCall} {f : Problem → Except ResultCode Problem} {p p' : Problem}
      (hf : f p = .ok p') :
      Reaches σ (next p) (ModelM.call operation (Engine.edit c (·.edit f))) () (next p') :=
    Reaches.call (m := next p) (s := m₁.engine.store.withProblem p') hfreed₁
      (congrArg (Except.map _) hf)
  let p₂ : Problem := { m₁.problem with objConst := obj.linear.constant }
  let p₃ : Problem := p₂.deleteAllQuadElements
  have hconstant : Reaches σ m₁
      (ModelM.call operation (Engine.setRealAttr "ObjConst" none obj.linear.constant)) ()
        (next p₂) :=
    Reaches.call hfreed₁ rfl
  have hclear : Reaches σ (next p₂) (ModelM.call operation Engine.deleteAllQuadElements) ()
      (next p₃) := hedit rfl
  have hquad : p₃.setQuadElements (obj.vars1.map (·.index)) (obj.vars2.map (·.index)) obj.coefs =
      .ok (m.problem.restate obj) := by
    unfold p₃ p₂
    rw [hproblem]
    exact Problem.setQuadElements_restate hpos
  rw [← hsame (m.problem.restate obj)]
  exact hcoefs.bind <| hconstant.bind <| hclear.bind <| (hedit hquad).bind <|
    (Reaches.touch (m := next (m.problem.restate obj)) hfreed₁).bind .record

/-- Replacing the objective, with handles that are accepted. -/
theorem reaches_setQuadraticObjective {obj : QuadExpr Float} (hm : m.InStep)
    (hfreed : m.state ≠ .freed)
    (haccept : ∀ x ∈ obj.linear.vars ++ (obj.vars1 ++ obj.vars2), m.accept x = .ok x.index) :
    Reaches σ m (setQuadraticObjective obj) ()
      { m.withStore (m.engine.store.withProblem (m.problem.restate obj)) with
        state := .populated } := by
  simp only [List.mem_append, or_imp, forall_and] at haccept
  obtain ⟨hlinear, hfirst, hsecond⟩ := haccept
  have hparts := linearParts_purge_of_accepts hlinear
  have hindexes {xs : List Var} (hxs : ∀ x ∈ xs, m.accept x = .ok x.index) :
      m.varIndexes xs = .ok (xs.map (·.index)) := mapM_accept_eq_ok_iff.2 ⟨hxs, rfl⟩
  have hlt {xs : List Var} (hxs : ∀ x ∈ xs, m.accept x = .ok x.index) :
      ∀ j ∈ xs.map (·.index), j < m.problem.numCols := by
    intro j hj
    obtain ⟨x, hx, rfl⟩ := List.mem_map.1 hj
    exact hm.index_lt (hxs x hx)
  have hlength : obj.vars1.length = obj.vars2.length := by
    rw [QuadExpr.vars1, QuadExpr.vars2, List.length_map, List.length_map]
  have hquad : m.quadPositions obj.vars1 obj.vars2 =
      .ok (obj.vars1.map (·.index), obj.vars2.map (·.index)) := by
    rw [quadPositions, checkLength, if_pos hlength, hindexes hfirst, hindexes hsecond]
    rfl
  have hpos : m.problem.QuadPositions (obj.vars1.map (·.index)) (obj.vars2.map (·.index)) :=
    ⟨by rw [List.length_map, List.length_map, hlength], hlt hfirst, hlt hsecond⟩
  have hscatter : scatter m.engine.numCols (obj.linear.purge.vars.map (·.index))
      obj.linear.purge.coefs = .ok (obj.objs m.problem.numCols) := by
    have hover : obj.linear.terms.Over m.id m.varGen := fun t ht => by
      obtain ⟨hmodel, hgen, -⟩ := accept_eq_ok_iff.1 (hlinear t.1 (List.mem_map_of_mem ht))
      exact ⟨hmodel, hgen⟩
    have hmerged : ∀ x ∈ obj.linear.purge.vars, m.accept x = .ok x.index := fun x hx =>
      hlinear x (Handle.mem_of_mem_leading (Terms.mem_handles_purge.1 hx))
    rw [QuadExpr.objs, ← scattered_eq hover, ← zip_purge]
    exact scatter_eq_ok (hlt hmerged) _
  exact .bind (.checked hparts) <| .bind (.checked hquad) <| .bind (.checkUsable hfreed) <|
    .bind (.checked hscatter) <| reaches_restate obj hfreed hpos

/-! ## Main theorem -/

/-- An objective is replaced as a whole. Let the rosters be in step with the engine, none of whose
calls is made to fail, and let all handles be accepted. Then the call succeeds, and afterwards the
problem has the objective of the expression instead of its own; the solution and the infeasible
subsystem are discarded, and nothing else has changed. If a handle is rejected, of those in a pair
or of those that are left when the linear part has been merged, then the call is refused: neither
the model nor the host changes. -/
theorem objective_replaced (obj : QuadExpr Float) (m : Model) (h : Host σ) :
    (m.InStep → m.state ≠ .freed → m.engine.Unhindered h →
      (∀ x ∈ obj.linear.vars ++ (obj.vars1 ++ obj.vars2), m.accept x = .ok x.index) →
        ∃ m' h', (setQuadraticObjective obj).run m h = ((.ok (), m'), h') ∧ h.Frame h' ∧
          m.problem.Restated obj m'.problem ∧
          m' = { m with
            engine := { m.engine with
              store := { m.engine.store with problem := m'.problem, solution := {}, iis := none } }
            state := .populated }) ∧
    ((∃ x ∈ obj.linear.purge.vars ++ (obj.vars1 ++ obj.vars2), m.Rejects x) →
      Refused (setQuadraticObjective obj) m h) := by
  refine ⟨fun hm hfreed hh haccept => ?_, fun ⟨x, hx, hrejects⟩ => ?_⟩
  · obtain ⟨h', hframe, -, hrun⟩ := reaches_setQuadraticObjective hm hfreed haccept h hh
    exact ⟨_, h', hrun, hframe, m.problem.restated_restate obj, rfl⟩
  · refine (screens_setQuadraticObjective m h).1 ⟨x, ?_, hrejects⟩
    rw [List.mem_append] at hx ⊢
    exact hx.imp_left Terms.mem_handles_purge.1

/-- An objective with two terms for the first variable, with a pair in both orders, and with a zero.
-/
def laterObjective : QuadExpr Float where
  linear := ⟨[(⟨0, 0, 1⟩, 1), (⟨0, 0, 1⟩, 3)], 5⟩
  quad := [((⟨0, 1, 1⟩, ⟨0, 0, 1⟩), 2), ((⟨0, 0, 1⟩, ⟨0, 1, 1⟩), 4), ((⟨0, 1, 1⟩, ⟨0, 1, 1⟩), 0)]

/-- A new model with two variables, whose objective was set before. -/
def statedModel : Model := ((create false .plain none).run idleHost).1.afterTurns
  [⟨.addVar { defaultCol false with obj := 7 }, idleHost⟩,
    ⟨.addVar { defaultCol false with obj := 8 }, idleHost⟩,
    ⟨.setQuadraticObjective ⟨⟨[(⟨0, 1, 1⟩, 9)], 6⟩, [((⟨0, 1, 1⟩, ⟨0, 1, 1⟩), 3)]⟩, idleHost⟩]

/-- Nothing of the objective before is left, and an expression with a handle of another generation
is refused. -/
theorem objective_replaced_twice :
    statedModel.InStep ∧ statedModel.state ≠ .freed ∧ statedModel.engine.Unhindered idleHost ∧
    ∃ m' h', (setQuadraticObjective laterObjective).run statedModel idleHost = ((.ok (), m'), h') ∧
      m'.problem.cols[0]?.map (·.obj) = some 4 ∧ m'.problem.cols[1]?.map (·.obj) = some 0 ∧
      m'.problem.objConst = 5 ∧
      m'.problem.quadCoef? s(0, 1) = some 4 ∧ m'.problem.quadCoef? s(1, 1) = none ∧
      Refused (setQuadraticObjective ⟨.empty, [((⟨0, 0, 1⟩, ⟨0, 0, 2⟩), 1)]⟩) statedModel
        idleHost := by
  have hm : statedModel.InStep := inStep_iff.2 fun k => by cases k <;> decide +kernel
  have hfreed : statedModel.state ≠ .freed := by decide +kernel
  have hidle : statedModel.engine.Unhindered idleHost := fun _ _ _ => rfl
  have haccept : ∀ x ∈ laterObjective.linear.vars ++ (laterObjective.vars1 ++ laterObjective.vars2),
      statedModel.accept x = .ok x.index := by decide +kernel
  obtain ⟨m', h', hrun, -, hrestated, -⟩ :=
    (objective_replaced laterObjective statedModel idleHost).1 hm hfreed hidle haccept
  refine ⟨hm, hfreed, hidle, m', h', hrun, ?_, ?_, hrestated.constant, ?_, ?_, ?_⟩
  · rw [hrestated.cols]
    decide +kernel
  · rw [hrestated.cols]
    decide +kernel
  · rw [hrestated.quad]
    decide
  · rw [hrestated.quad]
    decide
  · have hrejects : statedModel.Rejects (⟨0, 0, 2⟩ : Var) :=
      ⟨.staleHandle .variable 0, by decide +kernel⟩
    exact (objective_replaced _ statedModel idleHost).2
      ⟨⟨0, 0, 2⟩, List.mem_append_right _ (by decide), hrejects⟩

end Model

end MathProgram

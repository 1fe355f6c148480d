import MathProgram.Proofs.Expr.Purge
import MathProgram.Proofs.Model.Batches
import MathProgram.Proofs.Model.Calls
import MathProgram.Solver.Scripted

/-!
# Handles that a model rejects

A call that is passed terms checks their handles before it does anything else, and if one of those
it looks at is rejected it is refused: it fails for the handle, and nothing changes (`Screens`). Of
a column and of the pairs of a quadratic form it looks at every handle. The terms of a row and the
linear part of an objective are merged first, and then it looks at the handles that lead. A handle
that is rejected can so be hidden by another: it stands behind one of the present generation with
the same index (`Hides`). That is the only way to escape the check (`Model.rejected_handles`), and
it is one: the handles count as the same, and the coefficients are added up (`hidden_handle`).
-/

namespace MathProgram

variable {σ α β : Type} {k : Kind}

/-- The error is that a handle is foreign or stale. -/
def Error.OfHandle : Error → Prop
  | foreignHandle .. | staleHandle .. => True
  | _ => False

namespace Model

variable {m m' : Model} {x : Handle k} {xs ys : List (Handle k)}

/-- A model rejects a handle as it is. -/
def Rejects (m : Model) (x : Handle k) : Prop := ∃ err, m.accept x = .error err

theorem not_rejects_iff : ¬m.Rejects x ↔ m.accept x = .ok x.index := by
  cases h : m.accept x with
  | error err => exact ⟨fun hx => absurd ⟨err, h⟩ hx, nofun⟩
  | ok i =>
    obtain ⟨-, -, -, rfl⟩ := accept_eq_ok_iff.1 h
    exact ⟨fun _ => rfl, fun _ ⟨err, herr⟩ => nomatch h.symm.trans herr⟩

/-- What a model accepts depends on its number and on its handles. -/
theorem rejects_congr (hid : m'.id = m.id) (hgen : m'.generation k = m.generation k)
    (hroster : m'.roster k = m.roster k) : m'.Rejects x ↔ m.Rejects x := by
  rw [Rejects, Rejects, accept_eq, accept_eq, hid, hgen, hroster]

/-- A handle that is rejected is hidden in a list: it is one of the model with an index in use, and
the model accepts a handle with that index that stands before it. -/
def Hides (m : Model) (xs : List (Handle k)) (x : Handle k) : Prop :=
  x.model = m.id ∧ x.index < (m.roster k).length ∧ x.generation ≠ m.generation k ∧
    ∃ before y after, xs = before ++ y :: after ∧ x ∈ after ∧ m.accept y = .ok x.index

/-- A handle that is rejected is hidden if all handles that lead are accepted. -/
theorem hides_of_leading (hx : x ∈ xs) (hrejects : m.Rejects x)
    (hleading : ∀ y ∈ Handle.leading xs, ¬m.Rejects y) : m.Hides xs x := by
  obtain ⟨y, hy, hsame⟩ := Handle.exists_leading hx
  have haccept := not_rejects_iff.1 (hleading y hy)
  obtain ⟨hmodel, hgen, hlt, -⟩ := accept_eq_ok_iff.1 haccept
  obtain ⟨hmodel', hindex⟩ := Handle.same_iff.1 hsame
  have hne : x ≠ y := by
    rintro rfl
    exact hleading x hy hrejects
  refine ⟨hmodel'.trans hmodel, hindex ▸ hlt, fun hgen' => hne ?_, ?_⟩
  · exact Handle.eq_of_same hsame (hgen'.trans hgen.symm)
  · -- No handle before the leading one names the same thing, so the rejected one is not there.
    obtain ⟨-, before, after, hxs, hbefore⟩ :=
      List.find?_eq_some_iff_append.1 (Handle.mem_leading_iff.1 hy)
    rw [← Handle.same_congr hsame] at hbefore
    refine ⟨before, y, after, hxs, ?_, hindex ▸ haccept⟩
    rw [hxs, List.mem_append, List.mem_cons] at hx
    obtain hx | rfl | hx := hx
    · simpa using hbefore x hx
    · exact absurd rfl hne
    · exact hx

/-! ## Checks of arguments -/

/-- A check is one of handles: it fails for a handle if one of them is rejected, and gives something
otherwise. -/
def Checks (m : Model) (xs : List (Handle k)) (r : Except Error α) : Prop :=
  ((∃ x ∈ xs, m.Rejects x) → ∃ err, err.OfHandle ∧ r = .error err) ∧
    ((∀ x ∈ xs, ¬m.Rejects x) → ∃ a, r = .ok a)

namespace Checks

/-- Handles that were checked are not rejected. -/
theorem not_rejects {xs : List (Handle k)} {r : Except Error α} {a : α} (hr : m.Checks xs r)
    (h : r = .ok a) : ∀ x ∈ xs, ¬m.Rejects x := fun x hx hrejects => by
  obtain ⟨err, -, herr⟩ := hr.1 ⟨x, hx, hrejects⟩
  cases h.symm.trans herr

/-- A check of nothing. -/
theorem pure (a : α) : m.Checks ([] : List (Handle k)) (Pure.pure a) := ⟨nofun, fun _ => ⟨a, rfl⟩⟩

/-- One check after another, which is left out if the first fails. -/
theorem bind {r : Except Error α} {f : α → Except Error β} (hr : m.Checks xs r)
    (hf : ∀ a, m.Checks ys (f a)) : m.Checks (xs ++ ys) (r >>= f) := by
  by_cases hxs : ∃ x ∈ xs, m.Rejects x
  · obtain ⟨err, herr, rfl⟩ := hr.1 hxs
    refine ⟨fun _ => ⟨err, herr, rfl⟩, fun hall => ?_⟩
    obtain ⟨x, hx, hrejects⟩ := hxs
    exact absurd hrejects (hall x (List.mem_append_left ys hx))
  · have hxs' : ∀ x ∈ xs, ¬m.Rejects x := fun x hx hrejects => hxs ⟨x, hx, hrejects⟩
    obtain ⟨a, rfl⟩ := hr.2 hxs'
    refine ⟨fun ⟨x, hx, hrejects⟩ => (hf a).1 ⟨x, ?_, hrejects⟩,
      fun hall => (hf a).2 fun y hy => hall y (List.mem_append_right xs hy)⟩
    exact (List.mem_append.1 hx).resolve_left fun hx => hxs' x hx hrejects

/-- A check of the same handles in another order. -/
theorem congr {r : Except Error α} (hr : m.Checks xs r) (h : ∀ x, x ∈ xs ↔ x ∈ ys) :
    m.Checks ys r := by
  simpa only [Checks, h] using hr

/-- The check of a handle. -/
theorem accept (x : Handle k) : m.Checks [x] (m.accept x) := by
  constructor
  · intro hx
    obtain ⟨err, herr⟩ : m.Rejects x := by simpa using hx
    refine ⟨err, ?_, herr⟩
    obtain ⟨-, rfl⟩ | ⟨-, -, rfl⟩ := accept_eq_error_iff.1 herr <;> trivial
  · intro hx
    exact ⟨x.index, not_rejects_iff.1 (hx x (List.mem_singleton_self x))⟩

/-- The check of all handles of a list. -/
theorem mapM (xs : List (Handle k)) : m.Checks xs (xs.mapM m.accept) := by
  induction xs with
  | nil => exact pure _
  | cons x xs ih =>
    rw [List.mapM_cons]
    refine (accept x).bind fun i => ?_
    exact (ih.bind fun is => pure (i :: is)).congr fun y => by rw [List.append_nil]

/-- The indexes and coefficients of an expression. -/
theorem linearParts (e : LinearExpr Float) : m.Checks e.vars (m.linearParts e) :=
  ((mapM e.vars).bind fun is => pure (is, e.coefs)).congr fun x => by rw [List.append_nil]

/-- The indexes and coefficients of an expression that was merged: the handles that lead are
checked. -/
theorem linearParts_purge (e : LinearExpr Float) :
    m.Checks (Handle.leading e.vars) (m.linearParts e.purge) :=
  (linearParts e.purge).congr fun _ => Terms.mem_handles_purge

/-- The positions that two lists of variables stand for, which are equally long. -/
theorem quadPositions {xs ys : List Var} (hlength : xs.length = ys.length) :
    m.Checks (xs ++ ys) (m.quadPositions xs ys) := by
  have hchecked : checkLength .secondVars xs.length ys.length = .ok () := if_pos hlength
  rw [Model.quadPositions, hchecked]
  refine (mapM xs).bind fun is => ?_
  exact ((mapM ys).bind fun js => pure (is, js)).congr fun x => by rw [List.append_nil]

end Checks

/-! ## Calls -/

/-- A computation is refused: it fails for a handle, and neither the model nor the host changes. -/
def Refused (act : ModelM σ α) (m : Model) (h : Host σ) : Prop :=
  ∃ err, err.OfHandle ∧ act.run m h = ((.error err, m), h)

/-- A computation screens handles: it is refused if one of them is rejected, and does not fail for a
handle otherwise. -/
def Screens (xs : List (Handle k)) (act : ModelM σ α) : Prop := ∀ (m : Model) (h : Host σ),
  ((∃ x ∈ xs, m.Rejects x) → Refused act m h) ∧
    ((∀ x ∈ xs, ¬m.Rejects x) → ∀ err, (act.run m h).1.1 = .error err → ¬err.OfHandle)

namespace Screens

open ModelM

/-- A computation that does not fail for a handle. -/
theorem of_error {act : ModelM σ α}
    (h : ∀ m h err, (act.run m h).1.1 = .error err → ¬err.OfHandle) :
    Screens ([] : List (Handle k)) act := fun m host => ⟨nofun, fun _ => h m host⟩

/-- A computation that does not fail. -/
theorem of_ok {act : ModelM σ α} (h : ∀ m h, ∃ a, (act.run m h).1.1 = .ok a) :
    Screens ([] : List (Handle k)) act := of_error fun m host err herr => by
  obtain ⟨a, ha⟩ := h m host
  cases ha.symm.trans herr

/-- A check of handles, and then a computation that screens others. -/
theorem checked_bind {f : Model → Except Error α} {next : α → ModelM σ β}
    (hf : ∀ m : Model, m.Checks xs (f m)) (hnext : ∀ a, Screens ys (next a)) :
    Screens (xs ++ ys) (checked f >>= next) := fun m h => by
  have hrun : (checked f : ModelM σ α).run m h = ((f m, m), h) := rfl
  rw [Refused, run_bind, hrun]
  by_cases hxs : ∃ x ∈ xs, m.Rejects x
  · obtain ⟨err, herr, hfm⟩ := (hf m).1 hxs
    rw [hfm]
    obtain ⟨x, hx, hrejects⟩ := hxs
    exact ⟨fun _ => ⟨err, herr, rfl⟩,
      fun hall => absurd hrejects (hall x (List.mem_append_left ys hx))⟩
  · have hxs' : ∀ x ∈ xs, ¬m.Rejects x := fun x hx hrejects => hxs ⟨x, hx, hrejects⟩
    obtain ⟨a, ha⟩ := (hf m).2 hxs'
    rw [ha]
    refine ⟨fun ⟨x, hx, hrejects⟩ => (hnext a m h).1 ⟨x, ?_, hrejects⟩,
      fun hall => (hnext a m h).2 fun y hy => hall y (List.mem_append_right xs hy)⟩
    exact (List.mem_append.1 hx).resolve_left fun hx => hxs' x hx hrejects

/-- One computation after another, neither of which fails for a handle. -/
theorem bind {act : ModelM σ α} {next : α → ModelM σ β}
    (hact : Screens ([] : List (Handle k)) act)
    (hnext : ∀ a, Screens ([] : List (Handle k)) (next a)) :
    Screens ([] : List (Handle k)) (act >>= next) := of_error fun m h err herr => by
  have hfirst := (hact m h).2 nofun
  rw [run_bind] at herr
  rcases hrun : act.run m h with ⟨⟨err' | a, m'⟩, h'⟩ <;> rw [hrun] at hfirst herr
  · obtain rfl := Except.error.inj herr
    exact hfirst err' rfl
  · exact (hnext a m' h').2 nofun err herr

/-- A computation on every item of a list. -/
theorem forM {items : List α} {act : α → ModelM σ PUnit}
    (hact : ∀ a, Screens ([] : List (Handle k)) (act a)) :
    Screens ([] : List (Handle k)) (items.forM act) := by
  have hclosed : Compositional (m := ModelM σ) (Screens ([] : List (Handle k))) :=
    ⟨fun a => of_ok fun _ _ => ⟨a, rfl⟩, bind⟩
  exact hclosed.forM fun a _ => hact a

/-- A call of the engine fails with a result code, or because the model has been freed. -/
theorem call {operation : String} {act : EngineM σ Int32} :
    Screens ([] : List (Handle k)) (ModelM.call operation act) := of_error fun m h err herr => by
  have hrun : (ModelM.call operation act).run m h = ((.error err, _), _) :=
    Prod.ext (Prod.ext herr rfl) rfl
  obtain ⟨rfl, -⟩ | ⟨-, rfl, -⟩ := call_error hrun
  · exact not_false
  · exact not_false

/-- The check that a model has not been freed. -/
theorem checkUsable : Screens ([] : List (Handle k)) (ModelM.checkUsable : ModelM σ Unit) :=
  of_error fun m h err herr => by
    rw [run_checkUsable] at herr
    by_cases hfreed : m.state = .freed
    · rw [if_pos hfreed] at herr
      cases herr
      exact not_false
    · rw [if_neg hfreed] at herr
      cases herr

end Screens

/-- Adding a column. -/
theorem screens_pushCol {c : ColData} {rows : List ℕ} {vals : List Float} :
    Screens ([] : List (Handle k)) (pushCol c rows vals : ModelM σ Var) :=
  Screens.call.bind fun _ => .of_ok fun _ _ => ⟨_, rfl⟩

/-- Adding a variable with its column: all handles of the column are looked at. -/
theorem screens_addVarWithCol {c : ColData} {a : Column Float} :
    Screens (a.terms.map (·.1)) (addVarWithCol c a : ModelM σ Var) := by
  rw [← List.append_nil (a.terms.map (·.1))]
  exact Screens.checked_bind (fun m => Checks.mapM (m := m) _) fun rows => screens_pushCol

/-- Adding a row: the handles of its expression that lead are looked at. -/
theorem screens_pushRow {row : StatedRow Float} {name : Option String} :
    Screens (Handle.leading row.expr.vars) (pushRow row name : ModelM σ Cons) := by
  rw [← List.append_nil (Handle.leading row.expr.vars)]
  refine Screens.checked_bind (fun m => Checks.linearParts_purge row.expr) fun (cols, vals) => ?_
  exact Screens.call.bind fun _ => .of_ok fun _ _ => ⟨_, rfl⟩

/-- The variables of both sides of a constraint, in the order in which their terms are merged: a
variable on the left comes behind an expression on the right, from which it is subtracted. -/
def sideVars : Side Float → Side Float → List Var
  | .var x, .expr e => e.vars ++ [x]
  | left, right => left.toExpr.vars ++ right.toExpr.vars

/-- The variables of a difference. -/
theorem vars_subtract (e o : LinearExpr Float) : (e.subtract o).vars = e.vars ++ o.vars := by
  have hone : ((-1 : Float) == 0) = false := by decide
  have hterms : (e.subtract o).terms = e.terms ++ Terms.scale (-1) o.terms := by
    rw [LinearExpr.subtract, LinearExpr.multAdd, hone, Terms.multAdd, hone]
    rfl
  rw [LinearExpr.vars, hterms, List.map_append, Terms.scale, List.map_map]
  rfl

/-- The variables of the row that states a constraint are those of its sides. -/
theorem statedRow?_vars (left : Side Float) (sense : Sense) (right : Side Float) :
    (match statedRow? left sense right with
      | some row => row.expr.vars
      | none => []) = sideVars left right := by
  cases left <;> cases right <;>
    simp only [statedRow?, rowAgainst, sideVars, vars_subtract, Side.toExpr] <;>
    first | rfl | exact (List.append_nil _).symm

/-- Adding a constraint: the handles of both sides that lead are looked at. -/
theorem screens_addCons {left right : Side Float} {sense : Sense} {name : Option String} :
    Screens (Handle.leading (sideVars left right))
      (addCons left sense right name : ModelM σ Cons) := by
  rw [← statedRow?_vars left sense right, addCons]
  cases statedRow? left sense right with
  | none => exact .of_error fun m h err herr => by cases herr; exact not_false
  | some row => exact screens_pushRow

/-- Replacing the objective: the handles of its linear part that lead are looked at, and all those
of its pairs. -/
theorem screens_setQuadraticObjective {obj : QuadExpr Float} :
    Screens (Handle.leading obj.linear.vars ++ (obj.vars1 ++ obj.vars2))
      (setQuadraticObjective obj : ModelM σ Unit) := by
  have hlength : obj.vars1.length = obj.vars2.length := by
    rw [QuadExpr.vars1, QuadExpr.vars2, List.length_map, List.length_map]
  refine Screens.checked_bind (fun m => Checks.linearParts_purge obj.linear) fun (cols, coefs) => ?_
  rw [← List.append_nil (obj.vars1 ++ obj.vars2)]
  refine Screens.checked_bind (fun m => Checks.quadPositions hlength) fun (cols₁, cols₂) => ?_
  refine Screens.checkUsable.bind fun _ => .bind ?_ fun objs => ?_
  · refine .of_error fun m h err herr => ?_
    have hscatter : scatter m.engine.numCols cols coefs = .error err := herr
    unfold scatter at hscatter
    split at hscatter <;> cases hscatter
    exact not_false
  · refine (Screens.forM fun (c, j) => .call).bind fun _ => ?_
    exact Screens.call.bind fun _ => Screens.call.bind fun _ => Screens.call.bind fun _ =>
      .of_ok fun _ _ => ⟨_, rfl⟩

end Model

/-! ## Batches of constraints -/

/-- The expression of a constraint that is added. -/
def Addition.expr : Addition .constraint → LinearExpr Float
  | .cons row _ => row.expr

/-- The expressions of a batch of constraints. -/
def Batch.exprs : Batch .constraint → List (LinearExpr Float)
  | .conss count => List.replicate count .empty
  | .conssWith es .. | .ranges es .. => es

namespace Batch

open ModelM Model

variable {b : Batch .constraint} {added : List (Addition .constraint)}

/-- The first of four lists that are equally long. -/
theorem map_fst_zip {γ δ : Type} {as : List α} {bs : List β} {cs : List γ} {ds : List δ}
    (hb : as.length = bs.length) (hc : as.length = cs.length) (hd : as.length = ds.length) :
    (as.zip (bs.zip (cs.zip ds))).map (·.1) = as := by
  refine List.map_fst_zip ?_
  rw [List.length_zip, List.length_zip]
  omega

/-- There are as many names as was checked, or as are needed if none are given. -/
theorem length_namesOf {n : ℕ} {names : Option (List String)}
    (h : checkOptional .names n names = .ok ()) : n = (namesOf n names).length := by
  cases names with
  | none => exact List.length_replicate.symm
  | some names =>
    have hlength : checkLength .names n names.length = .ok () := h
    unfold checkLength at hlength
    split at hlength
    · rename_i hn
      exact hn.trans (List.length_map _).symm
    · cases hlength

/-- Every addition of a batch has its expression. -/
theorem map_expr (hadded : b.additions = .ok added) : added.map Addition.expr = b.exprs := by
  have hchecked {what : Counted} {n n' : ℕ} (h : checkLength what n n' = .ok ()) : n = n' := by
    unfold checkLength at h
    split at h
    · assumption
    · cases h
  cases b with
  | conss count =>
    obtain rfl := Except.ok.inj hadded
    rw [List.map_replicate]
    rfl
  | conssWith es senses bs names =>
    obtain ⟨_, hsenses, hadded⟩ := bind_eq_ok.1 hadded
    obtain ⟨_, hbs, hadded⟩ := bind_eq_ok.1 hadded
    obtain ⟨_, hnames, hadded⟩ := bind_eq_ok.1 hadded
    obtain rfl := Except.ok.inj hadded
    rw [List.map_map]
    exact map_fst_zip (hchecked hsenses) (hchecked hbs) (length_namesOf hnames)
  | ranges es lowers uppers names =>
    obtain ⟨_, hlowers, hadded⟩ := bind_eq_ok.1 hadded
    obtain ⟨_, huppers, hadded⟩ := bind_eq_ok.1 hadded
    obtain ⟨_, hnames, hadded⟩ := bind_eq_ok.1 hadded
    obtain rfl := Except.ok.inj hadded
    rw [List.map_map]
    exact map_fst_zip (hchecked hlowers) (hchecked huppers) (length_namesOf hnames)

/-- A batch whose additions are given is abandoned at one of them: those before it were made and
then it failed for a handle, which changed nothing, or one of those before it failed. -/
def AbandonedAt (b : Batch .constraint) (added : List (Addition .constraint)) (i : ℕ) (m : Model)
    (h : Host σ) : Prop := ∃ err m' h', b.run.run m h = ((.error err, m'), h') ∧
  ((∃ xs, ((added.take i).mapM Addition.run).run m h = ((.ok xs, m'), h') ∧ err.OfHandle) ∨
    ((added.take i).mapM Addition.run).run m h = ((.error err, m'), h'))

/-- A batch is abandoned at an expression one of whose leading handles is rejected. -/
theorem abandonedAt (hadded : b.additions = .ok added) {i : ℕ} {e : LinearExpr Float}
    (he : b.exprs[i]? = some e) {m : Model} (hrejects : ∃ x ∈ Handle.leading e.vars, m.Rejects x)
    {h : Host σ} (hh : h.Honest) : b.AbandonedAt added i m h := by
  obtain ⟨a, ha, rfl⟩ : ∃ a, added[i]? = some a ∧ a.expr = e := by
    rw [← map_expr hadded, List.getElem?_map] at he
    exact Option.map_eq_some_iff.1 he
  obtain ⟨hi, rfl⟩ := List.getElem?_eq_some_iff.1 ha
  obtain ⟨row, name, hrow⟩ : ∃ row name, added[i] = .cons row name := by
    cases added[i] with
    | cons row name => exact ⟨row, name, rfl⟩
  have hsplit : added.mapM Addition.run = ((added.take i).mapM Addition.run >>= fun xs =>
      ((Addition.cons row name).run >>= fun x =>
        (added.drop (i + 1)).mapM Addition.run >>= fun xs => pure (x :: xs)) >>= fun xs' =>
          pure (xs ++ xs') : ModelM σ (List Cons)) := by
    conv_lhs => rw [← List.take_append_drop i added, List.drop_eq_getElem_cons hi, hrow]
    rw [List.mapM_append, List.mapM_cons]
  have hends := (ends_mapM (added.take i) m hh).2
  rw [AbandonedAt, run_eq, hadded, run_bind, run_check]
  dsimp only
  rw [hsplit, run_bind]
  rcases hfirst : ((added.take i).mapM Addition.run).run m h with ⟨⟨err | xs, m'⟩, h'⟩ <;>
    rw [hfirst] at hends
  · exact ⟨err, m', h', rfl, .inr rfl⟩
  · -- The variables are the same then, and so are the handles that are rejected.
    cases hends with
    | made hgained =>
      have hvars : m'.vars = m.vars := by
        have hcols : (added.take i).filterMap Addition.col? = [] :=
          List.filterMap_eq_nil_iff.2 fun a _ => by cases a; rfl
        rw [hgained.vars, hcols]
        exact List.append_nil _
      obtain ⟨x, hx, hrejects⟩ := hrejects
      rw [hrow] at hx
      have hgen : m'.generation .variable = m.generation .variable := hgained.varGen
      have hrejects' : m'.Rejects x := (rejects_congr hgained.id hgen hvars).2 hrejects
      have hscreens : Screens (Handle.leading row.expr.vars)
          (pushRow row name : ModelM σ Cons) := screens_pushRow
      obtain ⟨err, herr, hrun⟩ := (hscreens m' h').1 ⟨x, hx, hrejects'⟩
      refine ⟨err, m', h', ?_, .inl ⟨xs, rfl, herr⟩⟩
      dsimp only
      rw [run_bind, run_bind]
      have hrun' : ((Addition.cons row name).run).run m' h' = ((.error err, m'), h') := hrun
      rw [hrun']

end Batch

/-! ## What is rejected -/

/-- A call is passed terms: the handles of those that are merged before the model looks at them, and
the handles of the others. -/
inductive Call.Submits : Call → {k : Kind} → List (Handle k) → List (Handle k) → Prop
  | column (c : ColData) (a : Column Float) :
    Submits (.addVarWithCol c a) [] (a.terms.map (·.1))
  | sides (left : Side Float) (sense : Sense) (right : Side Float) (name : Option String) :
    Submits (.addCons left sense right name) (Model.sideVars left right) []
  | range (e : LinearExpr Float) (lower upper : Float) (name : Option String) :
    Submits (.addRange e lower upper name) e.vars []
  | objective (obj : QuadExpr Float) :
    Submits (.setQuadraticObjective obj) obj.linear.vars (obj.vars1 ++ obj.vars2)

namespace Model

variable [Solver σ]

/-- The handles that a call looks at. -/
theorem Screens.call_run {c : Call} {merged plain : List (Handle k)}
    (hc : c.Submits merged plain) :
    Screens (Handle.leading merged ++ plain) (c.run : ModelM σ c.Result) := by
  cases hc with
  | column => exact screens_addVarWithCol
  | sides left _ right =>
    rw [List.append_nil]
    exact screens_addCons
  | range e lower upper name =>
    rw [List.append_nil]
    have hscreens : Screens (Handle.leading (rowBetween e lower upper).expr.vars)
        (pushRow (rowBetween e lower upper) name : ModelM σ Cons) := screens_pushRow
    exact hscreens
  | objective => exact screens_setQuadraticObjective

/-- What becomes of a handle that a model rejects. A call that is passed terms is refused exactly if
it looks at such a handle, which changes nothing, and it does not fail for a handle otherwise. It
looks at all handles that are not merged, and of those that are merged at the ones that lead; so if
it is not refused, the handle is one of the merged ones and hidden among them. A batch of
constraints adds one expression after the other: it does not get past one with such a handle, unless
the handle is hidden in the expression. -/
theorem rejected_handles (m : Model) {h : Host σ} (hh : h.Honest) :
    (∀ (c : Call) (k : Kind) (merged plain : List (Handle k)), c.Submits merged plain →
      (Refused c.run m h ↔ ∃ x ∈ Handle.leading merged ++ plain, m.Rejects x) ∧
      (∀ err, (c.run.run m h).1.1 = .error err → err.OfHandle → Refused c.run m h) ∧
      ∀ x ∈ merged ++ plain, m.Rejects x →
        Refused c.run m h ∨ x ∈ merged ∧ m.Hides merged x) ∧
    ∀ b : Batch .constraint,
      (∃ err, b.additions = .error err ∧ b.run.run m h = ((.error err, m), h)) ∨
      ∃ added, b.additions = .ok added ∧ ∀ (i : ℕ) (e : LinearExpr Float), b.exprs[i]? = some e →
        ∀ x ∈ e.vars, m.Rejects x → b.AbandonedAt added i m h ∨ m.Hides e.vars x := by
  refine ⟨fun c k merged plain hc => ?_, fun b => ?_⟩
  · have hscreens := Screens.call_run (σ := σ) hc m h
    by_cases hrejects : ∃ x ∈ Handle.leading merged ++ plain, m.Rejects x
    · have hrefused := hscreens.1 hrejects
      exact ⟨iff_of_true hrefused hrejects, fun _ _ _ => hrefused, fun _ _ _ => .inl hrefused⟩
    · have haccepts : ∀ x ∈ Handle.leading merged ++ plain, ¬m.Rejects x :=
        fun x hx hx' => hrejects ⟨x, hx, hx'⟩
      have hfails := hscreens.2 haccepts
      refine ⟨iff_of_false ?_ hrejects, fun err herr hof => absurd hof (hfails err herr),
        fun x hx hx' => .inr ?_⟩
      · rintro ⟨err, hof, hrun⟩
        exact hfails err (by rw [hrun]) hof
      · have hmerged : x ∈ merged := (List.mem_append.1 hx).resolve_right fun hplain =>
          haccepts x (List.mem_append_right _ hplain) hx'
        exact ⟨hmerged, hides_of_leading hmerged hx' fun y hy =>
          haccepts y (List.mem_append_left plain hy)⟩
  · cases hadded : b.additions with
    | error err =>
      refine .inl ⟨err, rfl, ?_⟩
      rw [Batch.run_eq, hadded, ModelM.run_bind, ModelM.run_check]
    | ok added =>
      refine .inr ⟨added, rfl, fun i e he x hx hx' => ?_⟩
      by_cases hrejects : ∃ y ∈ Handle.leading e.vars, m.Rejects y
      · exact .inl (Batch.abandonedAt hadded he hrejects hh)
      · exact .inr (hides_of_leading hx hx' fun y hy hy' => hrejects ⟨y, hy, hy'⟩)

/-- A host that prescribes nothing. -/
def idleHost : Host ScriptedSolver := { solver := {} }

/-- A handle of the first generation of a new model. -/
def staleVar : Var := ⟨0, 0, 1⟩

/-- The handle of the next generation with the same index. -/
def freshVar : Var := ⟨0, 0, 2⟩

/-- A new model with one variable, whose handles were renewed after it had been added. -/
def renewedModel : Model := ((create true .plain none).run idleHost).1.afterTurns
  [⟨.addVar (defaultCol false), idleHost⟩, ⟨.sync, idleHost⟩]

/-- The stale handle is found before the fresh one, and in the second expression of a batch. -/
theorem rejected_handles_before_fresh :
    let e : LinearExpr Float := ⟨[(staleVar, 1), (freshVar, 1)], 0⟩
    let b : Batch .constraint :=
      .ranges [⟨[(freshVar, 1)], 0⟩, ⟨[(staleVar, 1)], 0⟩] [0, 0] [1, 1] none
    Refused (Call.addRange e 0 1 none).run renewedModel idleHost ∧
      ∃ added, b.AbandonedAt added 1 renewedModel idleHost := by
  intro e b
  have hhonest : idleHost.Honest := fun _ _ => nofun
  have hrejects : renewedModel.Rejects staleVar :=
    ⟨.staleHandle .variable 0, by decide⟩
  obtain ⟨hcalls, hbatches⟩ := rejected_handles renewedModel hhonest
  refine ⟨?_, ?_⟩
  · refine (hcalls _ .variable _ _ (.range ⟨[(staleVar, 1), (freshVar, 1)], 0⟩ 0 1 none)).1.2 ?_
    exact ⟨staleVar, by decide, hrejects⟩
  · obtain ⟨err, herr, -⟩ | ⟨added, -, hentries⟩ :=
      hbatches (.ranges [⟨[(freshVar, 1)], 0⟩, ⟨[(staleVar, 1)], 0⟩] [0, 0] [1, 1] none)
    · cases herr
    · refine ⟨added, (hentries 1 ⟨[(staleVar, 1)], 0⟩ rfl staleVar (by decide)
        hrejects).resolve_right ?_⟩
      -- There is no other handle that it could stand behind.
      rintro ⟨-, -, -, before, y, after, hxs, hafter, -⟩
      have hlength := congrArg List.length hxs
      have hpos := List.length_pos_of_mem hafter
      simp only [LinearExpr.vars, List.length_map, List.length_append, List.length_cons,
        List.length_nil] at hlength
      omega

/-- Behind the fresh handle the stale one is not found: the row is added, and the coefficients of
both are added up in it. -/
theorem hidden_handle :
    let e : LinearExpr Float := ⟨[(freshVar, 1), (staleVar, 1)], 0⟩
    let r := (addRange e 0 1 none).run renewedModel idleHost
    (staleVar ∈ e.vars ∧ renewedModel.Rejects staleVar) ∧
      ¬Refused (addRange e 0 1 none) renewedModel idleHost ∧
      r.1.2.conss = [⟨0, 0, 2⟩] ∧ r.1.2.problem.matrix.entries = [(0, 0, 2)] := by
  intro e r
  have hpurge : (rowBetween e 0 1).expr.purge = ⟨[(freshVar, 1 + 1)], 0⟩ :=
    congrArg (LinearExpr.mk · 0) (Terms.purge_of_sorted (by decide))
  have hresult : r.1.1.toOption = some ⟨0, 0, 2⟩ ∧ r.1.2.conss = [⟨0, 0, 2⟩] ∧
      r.1.2.problem.matrix.entries = [(0, 0, 2)] := by
    unfold r addRange pushRow
    rw [hpurge]
    decide
  refine ⟨⟨by decide, .staleHandle .variable 0, by decide⟩, ?_, hresult.2⟩
  rintro ⟨err, -, hrun⟩
  have hok := hresult.1
  rw [show r.1.1 = .error err from congrArg (·.1.1) hrun] at hok
  cases hok

end Model

end MathProgram

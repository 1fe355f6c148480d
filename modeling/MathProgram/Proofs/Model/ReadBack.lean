import MathProgram.Proofs.Model.Lines
import MathProgram.Proofs.Store.Reachable
import MathProgram.Solver.Scripted

/-!
# Reading back what was added

A constraint is merged before it is passed to the engine, and a column is passed on as it is; the
engine adds up what falls on one position. Either way the handle that is given out reads the merged
terms, in order and with a zero in front of each sum (`LineGained.reads`). Lines of the same kind
are read as before (`LineGained.kept`), and a line that the new one crosses has its term at the end
(`LineGained.crossed`). A batch does so for each of its additions (`enters_mapM`). What holds of all
calls that add is `added_lines_read_back`.
-/

namespace MathProgram

open ModelM Model

variable {σ α β : Type} {k l : Kind}

/-! ## What an addition passes to the engine -/

namespace Addition

/-- The terms of the line that is added. -/
def terms : {k : Kind} → Addition k → Terms k.other Float
  | _, var _ => ([] : Terms .constraint Float)
  | _, varWithCol _ a => a.terms
  | _, cons row _ => row.expr.terms

/-- The terms that are passed to the engine: those of a constraint are merged. -/
def passed : {k : Kind} → Addition k → Terms k.other Float
  | _, var _ => ([] : Terms .constraint Float)
  | _, varWithCol _ a => a.terms
  | _, cons row _ => row.expr.terms.purge

/-- The indexes that are passed to the engine. -/
def indexes (a : Addition k) : List ℕ := a.passed.map (·.1.index)

/-- The coefficients that are passed to the engine. -/
def coefs (a : Addition k) : List Float := a.passed.map (·.2)

/-- The call of the engine. -/
def call : {k : Kind} → Addition k → EngineM σ Int32
  | _, var c => Engine.addCol c [] []
  | _, varWithCol c a => Engine.addCol c (varWithCol c a).indexes (varWithCol c a).coefs
  | _, cons row name =>
    Engine.addRow ⟨row.lower, row.upper, name⟩ (cons row name).indexes (cons row name).coefs

/-- What is passed comes to the same as what is added. -/
theorem purge_passed (a : Addition k) : a.passed.purge = a.terms.purge := by
  cases a with
  | var | varWithCol => rfl
  | cons row name => exact Terms.purge_purge row.expr.terms

/-- What is passed as two lists. -/
theorem zip_indexes_coefs (a : Addition k) : a.indexes.zip a.coefs = a.passed.indexed :=
  List.zip_map' ..

end Addition

/-- The engine was called for additions one after the other, each on some host, and no call failed.
-/
inductive Engine.Passes (σ : Type) : Engine → List (Addition k) → Engine → Prop
  | nil (e : Engine) : Passes σ e [] e
  | cons {a : Addition k} {added : List (Addition k)} {e e' e'' : Engine} {h h' : Host σ}
    (hcall : a.call.run e h = ((ResultCode.okay.code, e'), h')) (hrest : Passes σ e' added e'') :
    Passes σ e (a :: added) e''

/-! ## One addition -/

/-- The term that a new line brings to a line that it crosses. -/
def Terms.crossing (x : Handle k) (y : Handle l) (ts : Terms l Float) : Terms k Float :=
  (ts.filter (·.1 = y)).map fun t => (x, t.2)

/-- A model has gained a line with terms that were passed to its engine, and has issued a handle for
it. -/
structure Model.LineGained (m m' : Model) (x : Handle k) (passed : Terms k.other Float) :
    Prop where
  usable : m.state ≠ .freed ∧ m'.state ≠ .freed
  id : m'.id = m.id
  generation : ∀ k, m'.generation k = m.generation k
  roster : m'.roster k = m.roster k ++ [x]
  crossing : m'.roster k.other = m.roster k.other
  handle : x = ⟨m.id, m.problem.count k, m.generation k⟩
  accepted : passed.Over m.id (m.generation k.other)
  line : m.problem.LineAdded k m'.problem passed.indexed

namespace Model.LineGained

variable {m m' : Model} {x : Handle k} {passed : Terms k.other Float}

/-- The terms of a line are over the same handles. -/
theorem lineTerms_eq (h : m.LineGained m' x passed) (l : Kind) :
    m'.lineTerms l = m.lineTerms l := by
  funext line
  rw [lineTerms, lineTerms, h.id, h.generation]

/-- The handle of the line reads the merged terms. -/
theorem reads (h : m.LineGained m' x passed) (hm' : m'.InStep) :
    m'.Reads σ x passed.purge.stored := by
  have hx : x ∈ m'.roster k := by
    rw [h.roster]
    exact List.mem_append_right _ (List.mem_singleton_self x)
  have hindex : x.index = m.problem.count k := congrArg Handle.index h.handle
  have hread := hm'.reads_line (σ := σ) h.line.wellFormed h.usable.2 rfl hx
  rwa [h.lineTerms_eq, hindex, h.line.line_new h.accepted,
    lineTerms_indexed h.accepted.purge.stored] at hread

/-- A line of the same kind is read as before. -/
theorem kept (h : m.LineGained m' x passed) (hm : m.InStep) (hm' : m'.InStep)
    (hp : m.problem.WellFormed) {y : Handle k} (hy : y ∈ m.roster k) :
    ∃ ts : Terms k.other Float, m.Reads σ y ts ∧ m'.Reads σ y ts := by
  have hy' : y ∈ m'.roster k := by
    rw [h.roster]
    exact List.mem_append_left _ hy
  have hlt : y.index < m.problem.count k := by
    have hcount := (hm.accept_eq hy).2
    cases k <;> exact hcount
  have hread := hm'.reads_line (σ := σ) h.line.wellFormed h.usable.2 rfl hy'
  rw [h.lineTerms_eq, h.line.line_kept hlt] at hread
  exact ⟨_, hm.reads_line hp h.usable.1 rfl hy, hread⟩

/-- A line that the new one crosses has its term at the end. -/
theorem crossed (h : m.LineGained m' x passed) (hm : m.InStep) (hm' : m'.InStep)
    (hp : m.problem.WellFormed) {y : Handle k.other} (hy : y ∈ m.roster k.other) :
    ∃ ts : Terms k Float, m.Reads σ y ts ∧
      m'.Reads σ y (ts ++ passed.purge.stored.crossing x y) := by
  have hkind : k = k.other.other := by cases k <;> rfl
  have hy' : y ∈ m'.roster k.other := h.crossing ▸ hy
  obtain ⟨hid, hgen, -⟩ := accept_eq_ok_iff.1 (hm.accept_eq hy).1
  have hhandle : y = ⟨m.id, y.index, m.generation k.other⟩ := by
    rw [← hid, ← hgen]
  have hnew : m.lineTerms k ((passed.purge.stored.filter (·.1 = y)).map fun t =>
      (m.problem.count k, t.2)) = passed.purge.stored.crossing x y := by
    rw [lineTerms, List.map_map, Terms.crossing, h.handle]
    rfl
  have hread := hm'.reads_line (σ := σ) h.line.wellFormed h.usable.2 hkind hy'
  have hline := h.line.line_crossed hp h.accepted y.index
  rw [← hhandle] at hline
  rw [h.lineTerms_eq, hline, lineTerms, List.map_append, ← lineTerms, ← lineTerms, hnew] at hread
  exact ⟨_, hm.reads_line hp h.usable.1 hkind hy, hread⟩

end Model.LineGained

/-- A check of arguments against the model changes nothing else. -/
theorem ModelM.run_checked (f : Model → Except Error α) (m : Model) (h : Host σ) :
    (checked f).run m h = ((f m, m), h) := rfl

/-- A call that is followed by success gave the code of success. -/
theorem ModelM.code_of_call {operation : String} {act : EngineM σ Int32} {next : Unit → ModelM σ β}
    {b : β} {m m' : Model} {h h' : Host σ}
    (hrun : (ModelM.call operation act >>= next).run m h = ((.ok b, m'), h')) :
    (act.run m.engine h).1.1 = ResultCode.okay.code := by
  by_contra hcode
  rw [run_bind, run_call] at hrun
  by_cases hfreed : m.state = .freed
  · rw [if_pos hfreed] at hrun
    cases hrun
  · rw [if_neg hfreed] at hrun
    obtain ⟨journal, hcheck⟩ := run_checkCode_of_ne operation hcode
      { m with engine := (act.run m.engine h).1.2 } (act.run m.engine h).2
    rw [hcheck] at hrun
    cases hrun

/-- A call that performs an operation and gave the code of success. -/
theorem Engine.Performs.of_code {op : Store.Op} {act : EngineM σ Int32} (hact : Performs op act)
    {e : Engine} {h : Host σ} (hh : h.Honest)
    (hcode : (act.run e h).1.1 = ResultCode.okay.code) {s : Store}
    (hs : op.run e.store = (.ok (), s)) :
    ∃ h', act.run e h = ((ResultCode.okay.code, { e with store := s }), h') := by
  obtain ⟨hne, -⟩ | ⟨-, s', hs', he⟩ := (hact e h hh).2
  · exact absurd hcode hne
  · obtain rfl : s' = s := congrArg Prod.snd (hs'.symm.trans hs)
    exact ⟨_, Prod.ext (Prod.ext hcode he) rfl⟩

/-- Handles that are accepted are of the model and of its present generation. -/
theorem Model.over_of_accepted {m : Model} {ts : Terms l Float} {is : List ℕ}
    (h : (ts.map (·.1)).mapM m.accept = .ok is) :
    ts.Over m.id (m.generation l) ∧ is = ts.map (·.1.index) := by
  obtain ⟨haccept, rfl⟩ := mapM_accept_eq_ok_iff.1 h
  refine ⟨fun t ht => ?_, List.map_map⟩
  obtain ⟨hid, hgen, -⟩ := accept_eq_ok_iff.1 (haccept t.1 (List.mem_map.2 ⟨t, ht, rfl⟩))
  exact ⟨hid, hgen⟩

/-- A column that was added is a line that was gained. -/
theorem Model.LineGained.of_addCol {m : Model} {c : ColData} {s : Store} {a : Addition .variable}
    (hm : m.InStep) (hp : m.problem.WellFormed) (hfreed : m.state ≠ .freed)
    (ha : a.passed.Over m.id m.consGen)
    (hs : (Store.Op.addCol c a.indexes a.coefs).run m.engine.store = (.ok (), s)) :
    m.LineGained (m.gainedCol s) ⟨m.id, m.vars.length, m.varGen⟩ a.passed := by
  obtain ⟨p, hadd, rfl⟩ := Store.edit_eq_ok (Store.run_eq_ok rfl hs)
  have hline := Problem.lineAdded_addCol hp hadd
  rw [a.zip_indexes_coefs] at hline
  refine ⟨⟨hfreed, nofun⟩, rfl, fun k => by cases k <;> rfl, rfl, rfl, ?_, ha, hline⟩
  rw [hm.numVars]
  rfl

/-- A row that was added is a line that was gained. -/
theorem Model.LineGained.of_addRow {m : Model} {r : RowData} {s : Store} {a : Addition .constraint}
    (hm : m.InStep) (hp : m.problem.WellFormed) (hfreed : m.state ≠ .freed)
    (ha : a.passed.Over m.id m.varGen)
    (hs : (Store.Op.addRow r a.indexes a.coefs).run m.engine.store = (.ok (), s)) :
    m.LineGained (m.gainedRow s) ⟨m.id, m.conss.length, m.consGen⟩ a.passed := by
  obtain ⟨p, hadd, rfl⟩ := Store.edit_eq_ok (Store.run_eq_ok rfl hs)
  have hline := Problem.lineAdded_addRow hp hadd
  rw [a.zip_indexes_coefs] at hline
  refine ⟨⟨hfreed, nofun⟩, rfl, fun k => by cases k <;> rfl, rfl, rfl, ?_, ha, hline⟩
  rw [hm.numConss]
  rfl

namespace Model

/-- How an addition ends: it fails and the model stays as it is, or the engine is called, the model
gains the line, and its handle is given out. -/
def EndsLine (σ : Type) (m : Model) (a : Addition k) : Except Error (Handle k) → Model → Prop
  | .error _, m' => m' = m
  | .ok x, m' => m'.InStep ∧ m.LineGained m' x a.passed ∧
    ∃ h h' : Host σ, a.call.run m.engine h = ((ResultCode.okay.code, m'.engine), h')

/-- How adding a column ends whose handles are accepted. -/
theorem endsLine_pushCol {m : Model} (hm : m.InStep) (hp : m.problem.WellFormed) {h : Host σ}
    (hh : h.Honest) {a : Addition .variable} {c : ColData}
    (hcall : (a.call : EngineM σ Int32) = Engine.addCol c a.indexes a.coefs)
    (ha : a.passed.Over m.id m.consGen) :
    h.Frame ((pushCol c a.indexes a.coefs).run m h).2 ∧
      m.EndsLine σ a ((pushCol c a.indexes a.coefs).run m h).1.1
        ((pushCol c a.indexes a.coefs).run m h).1.2 := by
  have hact : Engine.Performs (.addCol c a.indexes a.coefs)
      (Engine.addCol c a.indexes a.coefs : EngineM σ Int32) := Engine.performs_edit _ rfl trivial
  obtain ⟨h', hframe, ⟨err, hrun⟩ | ⟨hfreed, s, hs, hrun⟩⟩ := run_pushCol c a.indexes a.coefs m hh
  · rw [hrun]
    exact ⟨hframe, rfl⟩
  · obtain ⟨h₁, hengine⟩ := hact.of_code hh (code_of_call hrun) hs
    rw [hrun]
    refine ⟨hframe, hm.grows (.of_addCol hfreed hs : m.Grows Scope.empty _),
      .of_addCol hm hp hfreed ha hs, h, h₁, ?_⟩
    rw [hcall, hengine]
    rfl

/-- How adding a row ends whose handles are accepted. -/
theorem endsLine_pushRow {m : Model} (hm : m.InStep) (hp : m.problem.WellFormed) {h : Host σ}
    (hh : h.Honest) (row : StatedRow Float) (name : Option String)
    (hparts : m.linearParts row.expr.purge =
      .ok ((Addition.cons row name).indexes, (Addition.cons row name).coefs))
    (ha : row.expr.terms.purge.Over m.id m.varGen) :
    h.Frame ((pushRow row name).run m h).2 ∧
      m.EndsLine σ (.cons row name) ((pushRow row name).run m h).1.1
        ((pushRow row name).run m h).1.2 := by
  have hact : Engine.Performs (.addRow ⟨row.lower, row.upper, name⟩
      (Addition.cons row name).indexes (Addition.cons row name).coefs)
      ((Addition.cons row name).call : EngineM σ Int32) := Engine.performs_edit _ rfl trivial
  obtain ⟨h', hframe, ⟨err, hrun⟩ | ⟨hfreed, s, hs, hrun⟩⟩ := run_pushRow row name hh hparts
  · rw [hrun]
    exact ⟨hframe, rfl⟩
  · have hcall := hrun
    rw [pushRow, run_bind, run_checked, hparts] at hcall
    obtain ⟨h₁, hengine⟩ := hact.of_code hh (code_of_call hcall) hs
    rw [hrun]
    exact ⟨hframe, hm.grows (.of_addRow hfreed hs : m.Grows Scope.empty _),
      .of_addRow hm hp hfreed ha hs, h, h₁, hengine⟩

end Model

/-- How an addition ends. -/
theorem Addition.endsLine (a : Addition k) {m : Model} (hm : m.InStep) (hp : m.problem.WellFormed)
    {h : Host σ} (hh : h.Honest) : h.Frame (a.run.run m h).2 ∧
      m.EndsLine σ a (a.run.run m h).1.1 (a.run.run m h).1.2 := by
  cases a with
  | var c => exact endsLine_pushCol hm hp hh (a := .var c) rfl nofun
  | varWithCol c a =>
    rw [Addition.run, addVarWithCol, run_bind, run_checked]
    cases hindexes : m.consIndexes (a.terms.map (·.1)) with
    | error err => exact ⟨.refl h, rfl⟩
    | ok rows =>
      obtain ⟨hover, rfl⟩ := over_of_accepted hindexes
      exact endsLine_pushCol hm hp hh (a := .varWithCol c a) rfl hover
  | cons row name =>
    cases hparts : m.linearParts row.expr.purge with
    | error err =>
      rw [Addition.run, run_pushRow_of_error row name hparts]
      exact ⟨.refl h, rfl⟩
    | ok parts =>
      obtain ⟨cols, hcols, hpure⟩ := bind_eq_ok.1 hparts
      obtain rfl := Except.ok.inj hpure
      obtain ⟨hover, rfl⟩ := over_of_accepted hcols
      exact endsLine_pushRow hm hp hh row name hparts hover

/-! ## Additions one after the other -/

/-- A model has come from another by additions, for which handles were issued. -/
structure Model.Enters (σ : Type) (m m' : Model) (added : List (Addition k))
    (xs : List (Handle k)) : Prop where
  /-- The engine was called for each addition. -/
  calls : Engine.Passes σ m.engine added m'.engine
  /-- The indexes that were passed for a constraint increase strictly. -/
  ordered : k = .constraint → ∀ a ∈ added, a.indexes.Pairwise (· < ·)
  roster : m'.roster k = m.roster k ++ xs
  /-- The handles read the merged terms of the additions. -/
  reads : List.Forall₂ (fun a x => m'.Reads σ x a.terms.purge.stored) added xs
  /-- Other lines of the kind are read as before. -/
  kept : ∀ y ∈ m.roster k, ∃ ts : Terms k.other Float, m.Reads σ y ts ∧ m'.Reads σ y ts
  /-- Lines that cross those added have gained the terms of these, and are read as before
  otherwise. -/
  crossed : ∀ y ∈ m.roster k.other, ∃ ts : Terms k Float, m.Reads σ y ts ∧
    m'.Reads σ y (ts ++ (added.zip xs).flatMap fun (a, x) => a.terms.purge.stored.crossing x y)

namespace Model.Enters

variable {m m₁ m' : Model} {a : Addition k} {added : List (Addition k)} {x : Handle k}
  {xs : List (Handle k)}

/-- Nothing was added. -/
theorem nil (hm : m.InStep) (hp : m.problem.WellFormed) (hfreed : m.state ≠ .freed) :
    m.Enters σ m ([] : List (Addition k)) [] where
  calls := .nil _
  ordered _ := nofun
  roster := (List.append_nil _).symm
  reads := .nil
  kept y hy := ⟨_, hm.reads_line hp hfreed rfl hy, hm.reads_line hp hfreed rfl hy⟩
  crossed y hy := by
    have hkind : k = k.other.other := by cases k <;> rfl
    have hread := hm.reads_line (σ := σ) hp hfreed hkind hy
    exact ⟨_, hread, by rwa [List.zip_nil_left, List.flatMap_nil, List.append_nil]⟩

/-- A line was added, and then others. -/
theorem cons (hm : m.InStep) (hp : m.problem.WellFormed) (h : Host σ)
    (ha : m.EndsLine σ a (.ok x) m₁) (hrest : m₁.Enters σ m' added xs) :
    m.Enters σ m' (a :: added) (x :: xs) := by
  obtain ⟨hm₁, hline, h₁, h₂, hcall⟩ := ha
  have hx : x ∈ m₁.roster k := by
    rw [hline.roster]
    exact List.mem_append_right _ (List.mem_singleton_self x)
  refine ⟨.cons hcall hrest.calls, fun hk => ?_, ?_, .cons ?_ hrest.reads, fun y hy => ?_,
    fun y hy => ?_⟩
  · refine List.forall_mem_cons.2 ⟨?_, hrest.ordered hk⟩
    cases a with
    | var | varWithCol => cases hk
    | cons row name =>
      -- The terms of a constraint are merged already.
      have hindex := hline.accepted.pairwise_index
      rwa [Addition.purge_passed] at hindex
  · rw [hrest.roster, hline.roster, List.append_assoc]
    rfl
  · -- The rest does not change what is read for the first handle.
    obtain ⟨ts, hts, hts'⟩ := hrest.kept x hx
    have hread := hline.reads (σ := σ) hm₁
    rw [hts.unique hread h, a.purge_passed] at hts'
    exact hts'
  · obtain ⟨ts, hts, hts₁⟩ := hline.kept (σ := σ) hm hm₁ hp hy
    have hy₁ : y ∈ m₁.roster k := by
      rw [hline.roster]
      exact List.mem_append_left _ hy
    obtain ⟨us, hus, hus'⟩ := hrest.kept y hy₁
    rw [hus.unique hts₁ h] at hus'
    exact ⟨ts, hts, hus'⟩
  · obtain ⟨ts, hts, hts₁⟩ := hline.crossed (σ := σ) hm hm₁ hp hy
    obtain ⟨us, hus, hus'⟩ := hrest.crossed y (hline.crossing ▸ hy)
    rw [hus.unique hts₁ h, a.purge_passed, List.append_assoc] at hus'
    exact ⟨ts, hts, hus'⟩

end Model.Enters

/-- Additions one after the other end with those made before the first one that fails. -/
theorem Model.enters_mapM (added : List (Addition k)) {m : Model} (hm : m.InStep)
    (hp : m.problem.WellFormed) (hfreed : m.state ≠ .freed) {h : Host σ} (hh : h.Honest) :
    ∃ done xs, done <+: added ∧
      m.Enters σ ((added.mapM Addition.run).run m h).1.2 done xs ∧
      ∀ ys, ((added.mapM Addition.run).run m h).1.1 = .ok ys → done = added ∧ xs = ys := by
  induction added generalizing m h with
  | nil =>
    refine ⟨[], [], List.nil_prefix, .nil hm hp hfreed, fun ys hys => ⟨rfl, ?_⟩⟩
    exact Except.ok.inj hys
  | cons a added ih =>
    have hfirst := a.endsLine hm hp hh
    rw [List.mapM_cons, run_bind]
    rcases hrun : a.run.run m h with ⟨⟨err | x, m₁⟩, h₁⟩ <;> rw [hrun] at hfirst
    · obtain ⟨-, rfl⟩ := hfirst
      exact ⟨[], [], List.nil_prefix, .nil hm hp hfreed, nofun⟩
    · obtain ⟨hframe, hends⟩ := hfirst
      obtain ⟨done, xs, hdone, hrest, hok⟩ :=
        ih hends.1 hends.2.1.line.wellFormed hends.2.1.usable.2 (hh.frame hframe)
      dsimp only
      rw [run_bind]
      refine ⟨a :: done, x :: xs, List.prefix_cons_inj a |>.2 hdone, ?_, ?_⟩
      · rcases hmap : (added.mapM Addition.run).run m₁ h₁ with ⟨⟨err | ys, m₂⟩, h₂⟩ <;>
          rw [hmap] at hrest <;> exact .cons hm hp h hends hrest
      · rcases hmap : (added.mapM Addition.run).run m₁ h₁ with ⟨⟨err | ys, m₂⟩, h₂⟩ <;>
          rw [hmap] at hok
        · exact nofun
        · obtain ⟨rfl, rfl⟩ := hok ys rfl
          rintro zs hzs
          exact ⟨rfl, Except.ok.inj hzs⟩

/-- An addition that succeeds. -/
theorem Addition.enters (a : Addition k) {m m' : Model} (hm : m.InStep) (hp : m.problem.WellFormed)
    {h h' : Host σ} (hh : h.Honest) {x : Handle k} (hrun : a.run.run m h = ((.ok x, m'), h')) :
    m.Enters σ m' [a] [x] := by
  obtain ⟨-, hends⟩ := a.endsLine hm hp hh
  rw [hrun] at hends
  obtain ⟨hm', hline, -⟩ := id hends
  exact .cons hm hp h hends (.nil hm' hline.line.wellFormed hline.usable.2)

/-! ## Main theorem -/

namespace Model

/-- Expressions and columns survive the way through the engine. The rosters of a model are in step
with its engine, to whose store operations on a new one led. If a constraint or a range is added, or
a variable with its column, then the engine is called with strictly increasing indexes for a
constraint, and with the column as it is for a variable, and the handle that is given out reads the
merged terms in order. All other handles read what they read before, but for the new terms in the
lines that cross the new one. The same holds of a batch, for the additions made before the first one
that fails, if one does. A coefficient that is read is a merged one with a zero in front: the two
are equal, and they are the same unless the merged one is a negative zero. -/
theorem added_lines_read_back {m : Model} (hm : m.InStep) (hs : m.engine.store.Reachable)
    {h : Host σ} (hh : h.Honest) :
    (∀ (e : LinearExpr Float) (sense : Sense) (b : Float) (name : Option String) (c : Cons)
      (m' : Model) (h' : Host σ),
      (addCons (.expr e) sense (.const b) name).run m h = ((.ok c, m'), h') →
        m.Enters σ m' [.cons (rowAgainst e sense b) name] [c]) ∧
    (∀ (e : LinearExpr Float) (lower upper : Float) (name : Option String) (c : Cons) (m' : Model)
      (h' : Host σ), (addRange e lower upper name).run m h = ((.ok c, m'), h') →
        m.Enters σ m' [.cons (rowBetween e lower upper) name] [c]) ∧
    (∀ (d : ColData) (a : Column Float) (x : Var) (m' : Model) (h' : Host σ),
      (addVarWithCol d a).run m h = ((.ok x, m'), h') → m.Enters σ m' [.varWithCol d a] [x]) ∧
    (∀ (k : Kind) (b : Batch k) (added : List (Addition k)), m.state ≠ .freed →
      b.additions = .ok added → ∃ done xs, done <+: added ∧
        m.Enters σ (b.run.run m h).1.2 done xs ∧
        ∀ ys, (b.run.run m h).1.1 = .ok ys → done = added ∧ xs = ys) ∧
    ∀ (k : Kind) (ts : Terms k Float), ts.stored.Agrees ts ∧
      ((∀ t ∈ ts, 0 + t.2 = t.2) → ts.stored = ts) := by
  have hp : m.problem.WellFormed := hs.sound.problem
  refine ⟨fun e sense b name c m' h' hrun => ?_, fun e lower upper name c m' h' hrun => ?_,
    fun d a x m' h' hrun => ?_, fun k b added hfreed hadded => ?_, fun k ts => ?_⟩
  · exact (Addition.cons (rowAgainst e sense b) name).enters hm hp hh hrun
  · exact (Addition.cons (rowBetween e lower upper) name).enters hm hp hh hrun
  · exact (Addition.varWithCol d a).enters hm hp hh hrun
  · rw [b.run_eq, run_bind, run_check, hadded]
    exact enters_mapM added hm hp hfreed hh
  · exact ⟨ts.stored_agrees, Terms.stored_of_settled⟩

/-- A model of three variables and a constraint. -/
def threeByOne : Model where
  id := 0
  engine := {
    backend := .plain
    store := .afterOps none (List.replicate 3 (.addCol (defaultCol false) [] []) ++
      [.addRow ⟨0, 1, none⟩ [0] [1]]) }
  vars := Handle.allOf 0 1 3
  conss := Handle.allOf 0 1 1
  varGen := 1
  consGen := 1
  state := .populated

/-- An expression with two terms for the last variable, around one for the first. -/
def repeatedTerms : LinearExpr Float := ⟨[(⟨0, 2, 1⟩, 2), (⟨0, 0, 1⟩, 1), (⟨0, 2, 1⟩, 1.5)], 7⟩

/-- A range is added for an expression with repeated terms, and the merged terms are read back. -/
theorem added_lines_read_back_range : ∃ (c : Cons) (m' : Model) (h' : Host ScriptedSolver),
    (addRange repeatedTerms 0 1 none).run threeByOne { solver := {} } = ((.ok c, m'), h') ∧
      threeByOne.Enters ScriptedSolver m' [.cons (rowBetween repeatedTerms 0 1) none] [c] ∧
      m'.Reads ScriptedSolver c [((⟨0, 0, 1⟩ : Var), 1), (⟨0, 2, 1⟩, 3.5)] := by
  have hsort : repeatedTerms.terms.mergeSort Terms.keyLe =
      [(⟨0, 0, 1⟩, 1), (⟨0, 2, 1⟩, 2), (⟨0, 2, 1⟩, 1.5)] := by
    simp [List.mergeSort, List.MergeSort.Internal.splitInTwo, repeatedTerms, Terms.keyLe]
  have hpurge : repeatedTerms.purge = ⟨[(⟨0, 0, 1⟩, 1), (⟨0, 2, 1⟩, 2 + 1.5)], 7⟩ := by
    rw [LinearExpr.purge, Terms.purge, hsort]
    rfl
  have hhonest : ({ solver := {} } : Host ScriptedSolver).Honest := by
    intro c n hfault
    cases hfault
  have hm : threeByOne.InStep := inStep_iff.2 fun k => by cases k <;> rfl
  obtain ⟨⟨⟨r, m'⟩, h'⟩, hrun⟩ : ∃ r, (addRange repeatedTerms 0 1 none).run threeByOne
      ({ solver := {} } : Host ScriptedSolver) = r := ⟨_, rfl⟩
  have hok : ((addRange repeatedTerms 0 1 none).run threeByOne
      ({ solver := {} } : Host ScriptedSolver)).1.1 = .ok ⟨0, 1, 1⟩ := by
    have hexpr : (rowBetween repeatedTerms 0 1).expr.purge = repeatedTerms.purge := rfl
    rw [addRange, pushRow, hexpr, hpurge]
    rfl
  obtain rfl : r = .ok ⟨0, 1, 1⟩ := (congrArg (·.1.1) hrun).symm.trans hok
  have henters := (added_lines_read_back hm ⟨none, _, rfl⟩ hhonest).2.1 _ _ _ _ _ _ _ hrun
  refine ⟨_, m', h', hrun, henters, ?_⟩
  obtain ⟨hreads, -⟩ := List.forall₂_cons.1 henters.reads
  have hterms : repeatedTerms.purge.terms.stored = [(⟨0, 0, 1⟩, 1), (⟨0, 2, 1⟩, 3.5)] := by
    rw [hpurge]
    decide
  exact hterms ▸ hreads

end Model

end MathProgram

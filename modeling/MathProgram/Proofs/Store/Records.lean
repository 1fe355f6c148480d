import MathProgram.Proofs.Store.Operations

/-!
# What becomes of the columns and rows of a store

A column or a row is described by a few fields, and each of them is written as an attribute of a
name. The `scope` of an operation are the fields that it may write and the indexes at which it may
write them; what is `Within` a scope writes nothing else. Operations that change a problem in place
leave all other fields as they are (`Op.InPlace.amends`), and so do those that add columns and rows,
for the ones that were there (`datum?_after`). A deletion leaves the records of what is not deleted
(`run_deletion`).
-/

namespace MathProgram

/-- What a column or a row is described by. -/
inductive Field : Kind → Type where
  | lb : Field .variable
  | ub : Field .variable
  | obj : Field .variable
  | isInteger : Field .variable
  | colName : Field .variable
  | lhs : Field .constraint
  | rhs : Field .constraint
  | rowName : Field .constraint

/-- Fields of columns and rows, with the indexes at which they may be written. -/
abbrev Scope := ∀ k : Kind, Field k → ℕ → Prop

/-- Nothing may be written. -/
def Scope.empty : Scope := fun _ _ _ => False

namespace Store

variable {k : Kind}

/-- The data of a column or of a row. -/
def Record : Kind → Type
  | .variable => ColData
  | .constraint => RowData

/-- The columns or the rows, in order. -/
def records (s : Store) : (k : Kind) → List (Record k)
  | .variable => s.problem.cols
  | .constraint => s.problem.rows

end Store

namespace Field

variable {k : Kind}

/-- The type of the values of a field. -/
def Value : Field k → Type
  | lb | ub | obj | lhs | rhs => Float
  | isInteger => Bool
  | colName | rowName => Option String

/-- The value of a field in the data of a column or of a row. -/
def get : (f : Field k) → Store.Record k → f.Value
  | lb, c => ColData.lb c
  | ub, c => ColData.ub c
  | obj, c => ColData.obj c
  | isInteger, c => ColData.isInteger c
  | colName, c => ColData.name c
  | lhs, r => RowData.lhs r
  | rhs, r => RowData.rhs r
  | rowName, r => RowData.name r

/-- The type and the name of the attribute that a field is written as. -/
def attr : Field k → ValueType × String
  | lb => (.real, "LB")
  | ub => (.real, "UB")
  | obj => (.real, "Obj")
  | isInteger => (.int, "IsInteger")
  | colName => (.str, "ColName")
  | lhs => (.real, "LHS")
  | rhs => (.real, "RHS")
  | rowName => (.str, "RowName")

end Field

/-- The field that a real attribute of columns is. -/
def ColReal.field? : ColReal → Option (Field .variable)
  | lb => some .lb
  | ub => some .ub
  | obj => some .obj
  | primal | reducedCost => none

/-- The field that a real attribute of rows is. -/
def RowReal.field? : RowReal → Option (Field .constraint)
  | lhs => some .lhs
  | rhs => some .rhs
  | dual | activity => none

/-- A real attribute of columns has the name under which its field is written. -/
theorem Field.attr_of_colReal {name : String} {a : ColReal} {f : Field .variable}
    (h : RealAttr.ofName? name = some (.ofCol a)) (hf : a.field? = some f) :
    f.attr = (.real, name) := by
  unfold RealAttr.ofName? at h
  split at h <;> cases h <;> cases hf <;> rfl

/-- A real attribute of rows has the name under which its field is written. -/
theorem Field.attr_of_rowReal {name : String} {a : RowReal} {f : Field .constraint}
    (h : RealAttr.ofName? name = some (.ofRow a)) (hf : a.field? = some f) :
    f.attr = (.real, name) := by
  unfold RealAttr.ofName? at h
  split at h <;> cases h <;> cases hf <;> rfl

/-- Integrality is written under its name only. -/
theorem Field.attr_isInteger {name : String}
    (h : IntAttr.ofName? name = some (.ofCol .isInteger)) :
    isInteger.attr = (.int, name) := by
  unfold IntAttr.ofName? at h
  split at h <;> cases h
  rfl

/-- The name of a column is written under its name only. -/
theorem Field.attr_colName {name : String} (h : StrAttr.ofName? name = some .colName) :
    colName.attr = (.str, name) := by
  unfold StrAttr.ofName? at h
  split_ifs at h with _ hname <;> cases h
  rw [hname]
  rfl

/-- The name of a row is written under its name only. -/
theorem Field.attr_rowName {name : String} (h : StrAttr.ofName? name = some .rowName) :
    rowName.attr = (.str, name) := by
  unfold StrAttr.ofName? at h
  split_ifs at h with _ _ hname <;> cases h
  rw [hname]
  rfl

namespace Store

variable {s s' : Store} {op : Op} {ops : List Op} {k : Kind} {W : Scope}

/-- The value of a field at an index. -/
def datum? (s : Store) (f : Field k) (j : ℕ) : Option f.Value := (s.records k)[j]?.map f.get

/-- There are as many records as the store has columns or rows. -/
theorem length_records (s : Store) (k : Kind) : (s.records k).length = s.count k := by
  cases k <;> rfl

/-- Where the records are the same the fields are. -/
theorem datum?_congr {j j' : ℕ} (h : (s'.records k)[j']? = (s.records k)[j]?) (f : Field k) :
    s'.datum? f j' = s.datum? f j := congrArg (Option.map f.get) h

/-! ## What operations write -/

/-- The fields that an operation may write of the columns and rows that are there. -/
def Op.scope : Op → Scope
  | .setIntAttr name index _, _, f, j => f.attr = (.int, name) ∧ index = some j
  | .setRealAttr name index _, _, f, j => f.attr = (.real, name) ∧ index = some j
  | .setStrAttr name index _, _, f, j => f.attr = (.str, name) ∧ index = some j
  | _, _, _, _ => False

/-- An operation writes nothing that is not in a scope. -/
def Op.Within (op : Op) (W : Scope) : Prop := ∀ k f j, op.scope k f j → W k f j

/-- What has nothing to do with the problem writes nothing of it. -/
theorem Op.Quiet.within (h : op.Quiet) : op.Within W := by
  cases op with
  | setIntAttr | setRealAttr | setStrAttr => cases h
  | _ => exact fun _ _ _ hop => hop.elim

/-- A store has the columns and rows of another one in their places. Their fields are the same but
for those in a scope. -/
structure Amends (W : Scope) (s s' : Store) : Prop where
  count : ∀ k, s'.count k = s.count k
  datum? : ∀ k (f : Field k) j, ¬W k f j → s'.datum? f j = s.datum? f j

/-- The same columns and rows are in their places. -/
theorem Amends.of_eq (hcols : s'.problem.cols = s.problem.cols)
    (hrows : s'.problem.rows = s.problem.rows) : Amends W s s' := by
  have hrecords (k : Kind) : s'.records k = s.records k := by
    cases k
    · exact hcols
    · exact hrows
  exact ⟨fun k => by rw [← length_records, hrecords, length_records],
    fun k f j _ => datum?_congr (by rw [hrecords]) f⟩

/-- The same problem has the same columns and rows. -/
theorem Amends.of_problem (h : s'.problem = s.problem) : Amends W s s' :=
  .of_eq (by rw [h]) (by rw [h])

/-- Changing one item of a list leaves what is said of all items but for it, and of it what the
change leaves. -/
theorem map_getElem?_modify {α β : Type} {xs : List α} {j l : ℕ} {g : α → α} {get : α → β}
    (h : l = j → ∀ a, get (g a) = get a) : (xs.modify j g)[l]?.map get = xs[l]?.map get := by
  rw [List.getElem?_modify, Option.map_eq_map, Option.map_map]
  refine congrArg (Option.map · xs[l]?) (funext fun a => ?_)
  by_cases hl : j = l
  · exact (congrArg get (if_pos hl)).trans (h hl.symm a)
  · exact congrArg get (if_neg hl)

/-- Changing one field of a column leaves everything else. -/
theorem Amends.of_modifyCol {j : ℕ} {g : ColData → ColData} (field : Field .variable)
    (hscope : W .variable field j)
    (hg : ∀ f : Field .variable, f ≠ field → ∀ c, f.get (g c) = f.get c)
    (hcols : s'.problem.cols = s.problem.cols.modify j g)
    (hrows : s'.problem.rows = s.problem.rows) : Amends W s s' where
  count
    | .variable => (congrArg List.length hcols).trans (List.length_modify ..)
    | .constraint => congrArg List.length hrows
  datum?
    | .variable, f, l, hl => by
      refine (congrArg (fun cs : List ColData => cs[l]?.map f.get) hcols).trans ?_
      refine map_getElem?_modify fun hj => hg f ?_
      rintro rfl
      exact hl (hj ▸ hscope)
    | .constraint, f, l, _ => congrArg (fun rs : List RowData => rs[l]?.map f.get) hrows

/-- Changing one field of a row leaves everything else. -/
theorem Amends.of_modifyRow {i : ℕ} {g : RowData → RowData} (field : Field .constraint)
    (hscope : W .constraint field i)
    (hg : ∀ f : Field .constraint, f ≠ field → ∀ r, f.get (g r) = f.get r)
    (hcols : s'.problem.cols = s.problem.cols)
    (hrows : s'.problem.rows = s.problem.rows.modify i g) : Amends W s s' where
  count
    | .variable => congrArg List.length hcols
    | .constraint => (congrArg List.length hrows).trans (List.length_modify ..)
  datum?
    | .variable, f, l, _ => congrArg (fun cs : List ColData => cs[l]?.map f.get) hcols
    | .constraint, f, l, hl => by
      refine (congrArg (fun rs : List RowData => rs[l]?.map f.get) hrows).trans ?_
      refine map_getElem?_modify fun hi => hg f ?_
      rintro rfl
      exact hl (hi ▸ hscope)

/-- Writing a whole-number attribute writes the field of its name at the index. -/
theorem amends_setIntAttr {name : String} {index : Option ℕ} {v : Int32}
    (h : s.setIntAttr name index v = .ok s') :
    Amends (Op.setIntAttr name index v).scope s s' := by
  unfold setIntAttr at h
  split at h
  · split at h <;> cases h
    exact .of_eq rfl rfl
  case h_2 a j hname =>
    split at h
    · cases h
    · cases a with
      | isInteger =>
        cases h
        refine .of_modifyCol .isInteger ⟨Field.attr_isInteger hname, rfl⟩ (fun f hf c => ?_) rfl rfl
        cases f <;> first | rfl | exact absurd rfl hf
      | basis =>
        obtain ⟨basis, -, h⟩ := bind_eq_ok.1 h
        cases h
        exact .of_eq rfl rfl
      | iis => cases h
  · split at h
    · cases h
    · split at h
      · obtain ⟨basis, -, h⟩ := bind_eq_ok.1 h
        cases h
        exact .of_eq rfl rfl
      · cases h
  · cases h

/-- Writing a real attribute writes the field of its name at the index. -/
theorem amends_setRealAttr {name : String} {index : Option ℕ} {v : Float}
    (h : s.setRealAttr name index v = .ok s') :
    Amends (Op.setRealAttr name index v).scope s s' := by
  unfold setRealAttr at h
  split at h
  · split at h <;> cases h
    exact .of_eq rfl rfl
  case h_2 a j hname =>
    have hattr {f : Field .variable} (hf : a.field? = some f) := Field.attr_of_colReal hname hf
    split at h
    · cases h
    · split at h <;> cases h <;>
        refine .of_modifyCol _ ⟨hattr rfl, rfl⟩ (fun f hf c => ?_) rfl rfl <;>
        cases f <;> first | rfl | exact absurd rfl hf
  case h_3 a i hname =>
    have hattr {f : Field .constraint} (hf : a.field? = some f) := Field.attr_of_rowReal hname hf
    split at h
    · cases h
    · split at h <;> cases h <;>
        refine .of_modifyRow _ ⟨hattr rfl, rfl⟩ (fun f hf r => ?_) rfl rfl <;>
        cases f <;> first | rfl | exact absurd rfl hf
  · cases h

/-- Writing a text attribute writes the field of its name at the index. -/
theorem amends_setStrAttr {name v : String} {index : Option ℕ}
    (h : s.setStrAttr name index v = .ok s') :
    Amends (Op.setStrAttr name index v).scope s s' := by
  unfold setStrAttr at h
  split at h
  · cases h; exact .of_eq rfl rfl
  · cases h; exact .of_eq rfl rfl
  case h_3 j hname =>
    split at h <;> cases h
    refine .of_modifyCol .colName ⟨Field.attr_colName hname, rfl⟩ (fun f hf c => ?_) rfl rfl
    cases f <;> first | rfl | exact absurd rfl hf
  case h_4 i hname =>
    split at h <;> cases h
    refine .of_modifyRow .rowName ⟨Field.attr_rowName hname, rfl⟩ (fun f hf r => ?_) rfl rfl
    cases f <;> first | rfl | exact absurd rfl hf
  · cases h

/-- What is attempted without success amends nothing. -/
theorem amends_attempt {f : Store → Except ResultCode Store}
    (hf : ∀ s', f s = .ok s' → Amends W s s') : Amends W s (TaskFile.attempt f s).2 :=
  TaskFile.attempt_invariant (P := fun s' => Amends W s s') (.of_eq rfl rfl) hf

/-- An operation on the problem that keeps its columns and rows. -/
theorem amends_edit {f : Problem → Except ResultCode Problem}
    (hf : ∀ p, f s.problem = .ok p → p.cols = s.problem.cols ∧ p.rows = s.problem.rows) :
    Amends W s (TaskFile.attempt (·.edit f) s).2 := by
  refine amends_attempt fun s' hs' => ?_
  obtain ⟨p, hp, rfl⟩ := edit_eq_ok hs'
  obtain ⟨hcols, hrows⟩ := hf p hp
  exact .of_eq hcols hrows

/-- What changes a problem in place writes within its scope. -/
theorem Op.InPlace.amends (h : op.InPlace) (s : Store) : Amends op.scope s (op.run s).2 := by
  cases op with
  | addCol | addRow | deleteCols | deleteRows | replaceProblem => cases h
  | setElements rows cols vals =>
    refine amends_edit fun p hp => ?_
    obtain ⟨-, -, hp⟩ := bind_eq_ok.1 hp
    obtain ⟨-, -, hp⟩ := bind_eq_ok.1 hp
    cases hp
    exact ⟨rfl, rfl⟩
  | deleteElements rows cols =>
    refine amends_edit fun p hp => ?_
    obtain ⟨-, -, hp⟩ := bind_eq_ok.1 hp
    cases hp
    exact ⟨rfl, rfl⟩
  | setQuadElements cols₁ cols₂ vals =>
    refine amends_edit fun p hp => ?_
    obtain ⟨-, -, hp⟩ := bind_eq_ok.1 hp
    obtain ⟨-, -, hp⟩ := bind_eq_ok.1 hp
    cases hp
    exact ⟨rfl, rfl⟩
  | deleteQuadElements cols₁ cols₂ =>
    refine amends_edit fun p hp => ?_
    obtain ⟨-, -, hp⟩ := bind_eq_ok.1 hp
    cases hp
    exact ⟨rfl, rfl⟩
  | setIntAttr name index v => exact amends_attempt fun _ => amends_setIntAttr
  | setRealAttr name index v => exact amends_attempt fun _ => amends_setRealAttr
  | setStrAttr name index v => exact amends_attempt fun _ => amends_setStrAttr
  | setParam name v => exact amends_attempt fun _ hs' => .of_problem (problem_setParam hs')
  | readTask bytes parts => exact .of_problem (problem_loadBytes bytes h s)
  | deleteAllElements | deleteAllQuadElements | setName | setMinSense | setObjConst | setSolution
  | setIis | invalidate | recordJob | setLog => exact .of_eq rfl rfl

/-- The numbers depend on the problem only. -/
theorem count_of_problem (h : s'.problem = s.problem) : s'.count k = s.count k :=
  (show Amends Scope.empty s s' from .of_problem h).count k

/-- Operations that change a problem in place keep the numbers. -/
theorem count_after (h : ∀ op ∈ ops, op.InPlace) : (s.after ops).count k = s.count k :=
  foldl_invariant (P := fun s' : Store => s'.count k = s.count k) rfl
    fun _ hs op hop => (((h op hop).amends _).count k).trans hs

/-- What has nothing to do with the problem changes it in place. -/
theorem Op.Quiet.inPlace (h : op.Quiet) : op.InPlace := by
  cases op with
  | readTask => exact h
  | setParam | setSolution | setIis | invalidate | recordJob | setLog => trivial
  | _ => cases h

/-! ## Adding columns and rows -/

/-- A column that is added comes last, and the rows stay. -/
theorem run_addCol {c : ColData} {rows : List ℕ} {vals : List Float}
    (h : (Op.addCol c rows vals).run s = (.ok (), s')) :
    s'.problem.cols = s.problem.cols ++ [c] ∧ s'.problem.rows = s.problem.rows := by
  obtain ⟨p, hp, rfl⟩ := edit_eq_ok (run_eq_ok rfl h)
  unfold Problem.addCol at hp
  split_ifs at hp
  cases hp
  exact ⟨rfl, rfl⟩

/-- A row that is added comes last, and the columns stay. -/
theorem run_addRow {r : RowData} {cols : List ℕ} {vals : List Float}
    (h : (Op.addRow r cols vals).run s = (.ok (), s')) :
    s'.problem.cols = s.problem.cols ∧ s'.problem.rows = s.problem.rows ++ [r] := by
  obtain ⟨p, hp, rfl⟩ := edit_eq_ok (run_eq_ok rfl h)
  unfold Problem.addRow at hp
  split_ifs at hp
  cases hp
  exact ⟨rfl, rfl⟩

/-- Columns that are deleted leave the others, and the rows stay. -/
theorem run_deleteCols {removed : List ℕ} (h : (Op.deleteCols removed).run s = (.ok (), s')) :
    s'.problem.cols = Problem.survivors removed s.problem.cols ∧
      s'.problem.rows = s.problem.rows := by
  obtain ⟨p, hp, rfl⟩ := edit_eq_ok (run_eq_ok rfl h)
  unfold Problem.deleteCols at hp
  split_ifs at hp
  cases hp
  exact ⟨rfl, rfl⟩

/-- Rows that are deleted leave the others, and the columns stay. -/
theorem run_deleteRows {removed : List ℕ} (h : (Op.deleteRows removed).run s = (.ok (), s')) :
    s'.problem.cols = s.problem.cols ∧
      s'.problem.rows = Problem.survivors removed s.problem.rows := by
  obtain ⟨p, hp, rfl⟩ := edit_eq_ok (run_eq_ok rfl h)
  unfold Problem.deleteRows at hp
  split_ifs at hp
  cases hp
  exact ⟨rfl, rfl⟩

/-- What is deleted leaves the others, and those of the other kind stay. -/
theorem run_deletion {removed : List ℕ} (h : (Op.deletion k removed).run s = (.ok (), s')) :
    s'.records k = Problem.survivors removed (s.records k) ∧
      ∀ k', k' ≠ k → s'.records k' = s.records k' := by
  cases k
  · obtain ⟨hcols, hrows⟩ := run_deleteCols h
    exact ⟨hcols, fun | .variable, hk => absurd rfl hk | .constraint, _ => hrows⟩
  · obtain ⟨hcols, hrows⟩ := run_deleteRows h
    exact ⟨hrows, fun | .variable, _ => hcols | .constraint, hk => absurd rfl hk⟩

/-- What changes a problem in place adds nothing to it. -/
theorem Op.InPlace.additive (h : op.InPlace) : op.Additive := by
  cases op <;> first | exact h | cases h

/-- An operation that may add a column or a row adds one, or changes the problem in place. -/
theorem Op.Additive.cases (h : op.Additive) : (∃ c rows vals, op = .addCol c rows vals) ∨
    (∃ r cols vals, op = .addRow r cols vals) ∨ op.InPlace := by
  cases op with
  | addCol c rows vals => exact .inl ⟨c, rows, vals, rfl⟩
  | addRow r cols vals => exact .inr (.inl ⟨r, cols, vals, rfl⟩)
  | _ => exact .inr (.inr h)

/-- What adds a column or a row leaves the others in their places, and writes only what it may of
them. -/
theorem Op.Additive.datum? (h : op.Additive) (s : Store) (k : Kind) :
    s.count k ≤ (op.run s).2.count k ∧ ∀ j < s.count k, ∀ f : Field k, ¬op.scope k f j →
      (op.run s).2.datum? f j = s.datum? f j := by
  have happend {s' : Store} {new : List (Record k)} (hs' : s'.records k = s.records k ++ new) :
      s.count k ≤ s'.count k ∧ ∀ j < s.count k, ∀ f : Field k, ¬op.scope k f j →
        s'.datum? f j = s.datum? f j := by
    rw [← length_records, ← length_records, hs', List.length_append]
    refine ⟨Nat.le_add_right _ _, fun j hj f _ => datum?_congr ?_ f⟩
    rw [hs', List.getElem?_append_left hj]
  have hfailed {e : ResultCode} {s' : Store} (hop : op.Direct)
      (hrun : op.run s = (.error e, s')) : s'.records k = s.records k ++ [] := by
    rw [hop.run_error hrun, List.append_nil]
  obtain ⟨c, rows, vals, rfl⟩ | ⟨r, cols, vals, rfl⟩ | hinPlace := h.cases
  · rcases hrun : (Op.addCol c rows vals).run s with ⟨_ | _, s'⟩
    · exact happend (hfailed trivial hrun)
    · obtain ⟨hcols, hrows⟩ := run_addCol hrun
      cases k
      · exact happend hcols
      · exact happend (hrows.trans (List.append_nil _).symm)
  · rcases hrun : (Op.addRow r cols vals).run s with ⟨_ | _, s'⟩
    · exact happend (hfailed trivial hrun)
    · obtain ⟨hcols, hrows⟩ := run_addRow hrun
      cases k
      · exact happend (hcols.trans (List.append_nil _).symm)
      · exact happend hrows
  · have hamends := hinPlace.amends s
    exact ⟨(hamends.count k).ge, fun j _ f hf => hamends.datum? k f j hf⟩

/-- Operations within a scope that add columns and rows leave the others in their places, and write
of them nothing that is not in the scope. -/
theorem datum?_after (h : ∀ op ∈ ops, op.Additive ∧ op.Within W) (s : Store) (k : Kind) :
    s.count k ≤ (s.after ops).count k ∧ ∀ j < s.count k, ∀ f : Field k, ¬W k f j →
      (s.after ops).datum? f j = s.datum? f j := by
  induction ops generalizing s with
  | nil => exact ⟨le_rfl, fun _ _ _ _ => rfl⟩
  | cons op ops ih =>
    obtain ⟨⟨hop, hwithin⟩, hops⟩ := List.forall_mem_cons.1 h
    obtain ⟨hle, hfirst⟩ := hop.datum? s k
    obtain ⟨hle', hrest⟩ := ih hops (op.run s).2
    refine ⟨hle.trans hle', fun j hj f hf => ?_⟩
    exact (hrest j (hj.trans_le hle) f hf).trans (hfirst j hj f (mt (hwithin k f j) hf))

end Store

end MathProgram

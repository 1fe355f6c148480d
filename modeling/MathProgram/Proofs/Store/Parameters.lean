import MathProgram.Model.Attributes
import MathProgram.Proofs.Engine.Operations
import MathProgram.Proofs.Model.Run
import MathProgram.Proofs.TaskFile.Failure

/-!
# What the parameters of a store hold

Parameters are written in four ways: one by one, as text attributes, by the options of a
configuration, and by the parameter section of a task file. All of them come down to writes of a
value under a name, and `ParamTable.takes` says, from the defaults alone, which writes are taken.
The table after any writes is the table of defaults with each value replaced by the last one taken
under its name, where a whole number written to a real parameter has become that real number
(`ParamTable.foldl_put`).

`Access` lists what can be done with a store, and `Access.writes` the writes that it makes. One step
puts its writes into the table (`Access.params_run`), so a run leaves the last write taken under
every name (`params_afterAccesses`), and whatever reads or writes a parameter of a store that a run
leads to finds the table so (`parameters_hold_writes`).
-/

namespace MathProgram

namespace ParamTable

/-! ## Writes -/

/-- A value written under a name. -/
abbrev Write := String × ParamValue

/-- The type of a known parameter. -/
def typeOf? (name : String) : Option ValueType := (defaults.get? name).map ParamValue.type

/-- A value can be written to a parameter of a type: it has this type, or is a whole number where a
real one is wanted. -/
def suits (type : ValueType) (v : ParamValue) : Bool :=
  v.type = type || (type = .real && v.type = .int)

/-- A write is taken: its name is known, and its value suits the type of the parameter. -/
def takes (w : Write) : Bool := (typeOf? w.1).any fun type => suits type w.2

/-- The value of the last write under a name that is taken. -/
def lastTaken? (ws : List Write) (name : String) : Option ParamValue :=
  (ws.filter fun w => w.1 == name && takes w).getLast?.map Prod.snd

/-- What a parameter with a default holds after writes. -/
def held (ws : List Write) (name : String) (default : ParamValue) : ParamValue :=
  ((lastTaken? ws name).map (coerced default.type)).getD default

/-- The table after writes. -/
def afterWrites (ws : List Write) : ParamTable := defaults.map fun p => (p.1, held ws p.1 p.2)

/-- Writes a value, if it is taken. -/
def put (t : ParamTable) (w : Write) : ParamTable :=
  match t.set w.1 w.2 with
  | .ok t' => t'
  | .error _ => t

variable {ws : List Write} {w : Write} {name : String} {v default : ParamValue}

/-- A value suits a type if it has the type once it is coerced. -/
theorem type_coerced_iff (type : ValueType) (v : ParamValue) :
    (coerced type v).type = type ↔ suits type v = true := by
  cases type <;> cases v <;> simp [coerced, suits, ParamValue.type]

/-- A value of the type itself is left as it is. -/
theorem coerced_of_type (v : ParamValue) : coerced v.type v = v := by
  cases v <;> rfl

/-- A default is found under its name. -/
theorem get?_default (h : (name, default) ∈ defaults) : defaults.get? name = some default :=
  get?_of_mem (by rw [← shape_map_fst]; exact nodup_names_defaults) h

/-- Only names of the defaults are known. -/
theorem exists_default (h : defaults.get? name = some default) : (name, default) ∈ defaults := by
  obtain ⟨l, r, hsplit, -⟩ := List.lookup_eq_some_iff.1 h
  rw [hsplit]
  simp

/-- A write to a known parameter is taken if its value suits the default. -/
theorem takes_default (h : (name, default) ∈ defaults) :
    takes (name, v) = suits default.type v := by
  simp [takes, typeOf?, get?_default h]

/-- What was written last under a name is a value that suits its default. -/
theorem suits_of_lastTaken? (h : (name, default) ∈ defaults) (hv : lastTaken? ws name = some v) :
    suits default.type v = true := by
  obtain ⟨w, hw, rfl⟩ := Option.map_eq_some_iff.1 hv
  have htaken := List.of_mem_filter (List.mem_of_getLast? hw)
  obtain ⟨hname, htakes⟩ := Bool.and_eq_true_iff.1 htaken
  obtain rfl := eq_of_beq hname
  rwa [← takes_default h]

/-- What a parameter holds has the type of its default. -/
theorem type_held (ws : List Write) (h : (name, default) ∈ defaults) :
    (held ws name default).type = default.type := by
  unfold held
  cases hv : lastTaken? ws name with
  | none => rfl
  | some v => exact (type_coerced_iff _ _).2 (suits_of_lastTaken? h hv)

/-- Looking up a name in the table after writes. -/
theorem get?_afterWrites (ws : List Write) (name : String) :
    (afterWrites ws).get? name = (defaults.get? name).map (held ws name) := by
  unfold afterWrites get?
  induction defaults with
  | nil => rfl
  | cons p t ih =>
    rw [List.map_cons, List.lookup_cons, List.lookup_cons, ih]
    by_cases hp : name = p.1
    · subst hp
      simp
    · simp [beq_eq_false_iff_ne.2 hp]

/-- The names and the types of the table after writes are those of the defaults. -/
theorem shape_afterWrites (ws : List Write) : (afterWrites ws).shape = defaults.shape := by
  rw [shape, afterWrites, List.map_map]
  exact List.map_congr_left fun p hp => Prod.ext rfl (type_held ws hp)

/-- A write that is not taken does not count. -/
theorem lastTaken?_concat_of_not (h : takes w = false) (name : String) :
    lastTaken? (ws ++ [w]) name = lastTaken? ws name := by
  simp [lastTaken?, List.filter_append, h]

/-- A write that is taken is the last one under its name. -/
theorem lastTaken?_concat (h : takes w = true) (name : String) :
    lastTaken? (ws ++ [w]) name = if w.1 = name then some w.2 else lastTaken? ws name := by
  by_cases hname : w.1 = name
  · simp [lastTaken?, List.filter_append, h, hname]
  · simp [lastTaken?, List.filter_append, hname]

/-- Setting a parameter in the table after writes. -/
theorem set_afterWrites (ws : List Write) (w : Write) : (afterWrites ws).set w.1 w.2 =
    if takes w then .ok (afterWrites (ws ++ [w])) else .error .paramSetError := by
  unfold set
  rw [get?_afterWrites]
  cases hdefault : defaults.get? w.1 with
  | none =>
    have htakes : takes w = false := by simp [takes, typeOf?, hdefault]
    rw [htakes]
    rfl
  | some d =>
    have hmem := exists_default hdefault
    dsimp only [Option.map_some]
    rw [type_held ws hmem]
    have hiff : (coerced d.type w.2).type = d.type ↔ takes w = true := by
      rw [type_coerced_iff, ← takes_default hmem]
    refine if_ctx_congr hiff (fun htakes => congrArg Except.ok ?_) fun _ => rfl
    -- Under the name of the write stands its value now, under all others what stood there before.
    rw [afterWrites, afterWrites, replace, List.map_map]
    refine List.map_congr_left fun p hp => ?_
    have hheld : held (ws ++ [w]) p.1 p.2 =
        if p.1 = w.1 then coerced p.2.type w.2 else held ws p.1 p.2 := by
      unfold held
      rw [lastTaken?_concat htakes]
      by_cases hname : p.1 = w.1
      · rw [if_pos hname.symm, if_pos hname, Option.map_some, Option.getD_some]
      · rw [if_neg (Ne.symm hname), if_neg hname]
    rw [hheld]
    by_cases hname : p.1 = w.1
    · -- The name has one default only.
      have hd : d = p.2 := Option.some.inj (hdefault.symm.trans (hname ▸ get?_default hp))
      simp [hname, hd]
    · simp [hname]

/-- One more write. -/
theorem put_afterWrites (ws : List Write) (w : Write) :
    (afterWrites ws).put w = afterWrites (ws ++ [w]) := by
  rw [put, set_afterWrites]
  cases htakes : takes w with
  | true => rfl
  | false =>
    simp only [afterWrites, held, lastTaken?_concat_of_not htakes]
    rfl

/-- Without writes the table is that of the defaults. -/
theorem afterWrites_nil : afterWrites [] = defaults :=
  List.map_id _

/-- Writes, one after another, leave the last one taken under each name. -/
theorem foldl_put (ws ws' : List Write) :
    ws'.foldl put (afterWrites ws) = afterWrites (ws ++ ws') := by
  induction ws' generalizing ws with
  | nil => rw [List.append_nil, List.foldl_nil]
  | cons w ws' ih => rw [List.foldl_cons, put_afterWrites, ih, List.append_assoc]; rfl

end ParamTable

/-- Every option of a configuration is taken. -/
theorem Config.takes_params (c : Config) : ∀ w ∈ c.params, ParamTable.takes w = true := by
  intro w hw
  simp only [params, List.mem_filterMap, List.mem_cons, List.not_mem_nil, or_false, id_eq,
    exists_eq_right] at hw
  obtain h | h | h | h | h | h := hw <;>
    obtain ⟨_, -, rfl⟩ := Option.map_eq_some_iff.1 h.symm <;> rfl

namespace Store

open ParamTable (Write put takes afterWrites held lastTaken? foldl_put)
open TaskFile (Readable paramValues setParams paramValue?)

variable {s s' : Store}

/-! ## Accesses -/

/-- Sets parameters one after another, up to the first that the store does not take. -/
def setEach : List Write → Store → Except ResultCode Unit × Store
  | [], s => (.ok (), s)
  | w :: ws, s =>
    match s.setParam w.1 w.2 with
    | .ok s => setEach ws s
    | .error e => (.error e, s)

/-- Shows the log on the console or not, if that is an option given. -/
def showLog (on : Option Bool) (s : Store) : Store :=
  match on with
  | some on => { s with log := { s.log with toConsole := on } }
  | none => s

/-- What can be done with a store: an operation, or setting the options of a configuration. -/
inductive Access where
  | op (op : Op)
  | applyConfig (c : Config)

namespace Access

/-- Runs an access. -/
def run : Access → Store → Except ResultCode Unit × Store
  | op o, s => o.run s
  | applyConfig c, s =>
    match setEach c.params s with
    | (.ok (), s) => (.ok (), showLog c.logToConsole s)
    | (.error e, s) => (.error e, s)

/-- The writes of the parameter section of a file: those of its members up to the first whose value
no parameter can have, if the file can be read and its problem put in place. -/
def fileWrites (bytes : List UInt8) (parts : Sections) (s : Store) : List Write :=
  match Json.read bytes with
  | .error _ => []
  | .ok doc =>
    match TaskFile.parse doc parts with
    | .error _ => []
    | .ok d =>
      match TaskFile.placeModel d.model s with
      | .error _ => []
      | .ok _ =>
        paramValues ((d.params.getD []).takeWhile fun p => (paramValue? p.2).isSome)

/-- The writes that an access makes, taken or not, in their order. -/
def writes : Access → Store → List Write
  | op (.setParam name v), _ => [(name, v)]
  | op (.setStrAttr name none v), _ => if name ∈ sharedParams then [(name, .str v)] else []
  | op (.readTask bytes parts), s => fileWrites bytes parts s
  | applyConfig c, _ => c.params
  | _, _ => []

end Access

/-- The store after accesses to a new store, each of which may succeed or fail. -/
def afterAccesses (name : Option String) (as : List Access) : Store :=
  as.foldl (fun s a => (a.run s).2) (.empty name)

/-- The writes that accesses make, one after another. -/
def writesOf : List Access → Store → List Write
  | [], _ => []
  | a :: as, s => a.writes s ++ writesOf as (a.run s).2

/-! ## One access -/

/-- Setting a parameter puts it into the table, if it is taken. -/
theorem params_attempt_setParam (name : String) (v : ParamValue) (s : Store) :
    (TaskFile.attempt (·.setParam name v) s).2.params = s.params.put (name, v) := by
  rw [put, TaskFile.attempt, setParam]
  cases s.params.set name v <;> rfl

/-- Setting parameters puts all of them into the table that are taken. -/
theorem params_setParams (ws : List Write) (s : Store) :
    (setParams ws s).params = ws.foldl put s.params := by
  induction ws generalizing s with
  | nil => rfl
  | cons w ws ih =>
    rw [setParams, List.foldl_cons, List.foldl_cons, ← params_attempt_setParam]
    exact ih _

/-- Setting the options of a configuration puts all of them into the table. -/
theorem setEach_eq_ok {ws : List Write} (h : ∀ w ∈ ws, takes w = true) (done : List Write)
    (hs : s.params = afterWrites done) :
    setEach ws s = (.ok (), { s with params := afterWrites (done ++ ws) }) := by
  induction ws generalizing s done with
  | nil =>
    rw [List.append_nil, ← hs]
    rfl
  | cons w ws ih =>
    obtain ⟨hw, hws⟩ := List.forall_mem_cons.1 h
    have hset : s.setParam w.1 w.2 = .ok { s with params := afterWrites (done ++ [w]) } := by
      rw [setParam, hs, ParamTable.set_afterWrites, if_pos hw]
      rfl
    rw [setEach, hset]
    dsimp only
    rw [ih hws (done ++ [w]) rfl, List.append_assoc]
    rfl

/-- The members of the parameter section are set up to the first whose value no parameter can
have. -/
theorem params_placeParams (ps : Option (List (String × Json))) (s : Store) :
    (TaskFile.placeParams ps s).2.params =
      (paramValues ((ps.getD []).takeWhile fun p => (paramValue? p.2).isSome)).foldl put
        s.params := by
  have hall {pre : List (String × Json)} (hpre : Readable pre) :
      ∀ p ∈ pre, (paramValue? p.2).isSome = true := fun p hp =>
    Option.isSome_iff_ne_none.2 (hpre p hp)
  rw [TaskFile.placeParams_eq, ← params_setParams]
  obtain hps | ⟨pre, name, v, post, hps, hpre, hv⟩ := TaskFile.readable_or_fault (ps.getD [])
  · have happly := TaskFile.applyParams_append hps [] s
    rw [List.append_nil] at happly
    rw [happly, List.takeWhile_eq_self_iff.2 (hall hps)]
    rfl
  · have hstop : ((name, v) :: post).takeWhile (fun p => (paramValue? p.2).isSome) = [] := by
      simp [hv]
    rw [hps, TaskFile.applyParams_append hpre, List.takeWhile_append_of_pos (hall hpre), hstop,
      List.append_nil, TaskFile.applyParams, hv]

/-- Putting the problem of a file in place keeps the parameters. -/
theorem params_placeModel {m : Option TaskFile.ModelData} (h : TaskFile.placeModel m s = .ok s') :
    s'.params = s.params := by
  refine TaskFile.placeModel_invariant (P := fun s' => s'.params = s.params) rfl
    (fun s₁ s₂ m hs h => ?_) h
  obtain ⟨s₃, hedit, h⟩ := bind_eq_ok.1 h
  obtain ⟨p, -, rfl⟩ := edit_eq_ok hedit
  cases h
  exact hs

/-- Loading a file makes the writes of its parameter section. -/
theorem params_loadBytes (bytes : List UInt8) (parts : Sections) (s : Store) :
    (TaskFile.loadBytes bytes parts s).2.params =
      (Access.fileWrites bytes parts s).foldl put s.params := by
  unfold TaskFile.loadBytes Access.fileWrites
  cases Json.read bytes with
  | error e => rfl
  | ok doc =>
    dsimp only [TaskFile.load]
    cases TaskFile.parse doc parts with
    | error e => rfl
    | ok d =>
      dsimp only
      rw [TaskFile.run_apply]
      cases hm : TaskFile.placeModel d.model s with
      | error e => rfl
      | ok s₁ =>
        have hparams := params_placeParams d.params s₁
        rw [params_placeModel hm] at hparams
        dsimp only [TaskFile.placeRest]
        rw [← hparams]
        -- The solution comes last and has nothing to do with the parameters.
        rcases TaskFile.placeParams d.params s₁ with ⟨_ | _, s₂⟩
        · rfl
        · exact TaskFile.attempt_invariant (P := fun s' => s'.params = s₂.params) rfl fun s' h =>
            TaskFile.placeSolution_invariant (P := fun s' => s'.params = s₂.params) rfl
              (fun _ _ hs => hs) h

/-- Writing a whole-number attribute keeps the parameters. -/
theorem params_setIntAttr {name : String} {index : Option ℕ} {v : Int32}
    (h : s.setIntAttr name index v = .ok s') : s'.params = s.params := by
  unfold setIntAttr at h
  split at h
  · split at h <;> cases h
    rfl
  · split_ifs at h
    split at h
    · cases h; rfl
    · obtain ⟨basis, -, h⟩ := bind_eq_ok.1 h
      cases h
      rfl
    · cases h
  · split_ifs at h
    split at h
    · obtain ⟨basis, -, h⟩ := bind_eq_ok.1 h
      cases h
      rfl
    · cases h
  · cases h

/-- Writing a real attribute keeps the parameters. -/
theorem params_setRealAttr {name : String} {index : Option ℕ} {v : Float}
    (h : s.setRealAttr name index v = .ok s') : s'.params = s.params := by
  unfold setRealAttr at h
  split at h
  · split at h <;> cases h
    rfl
  · split at h
    · cases h
    · split at h <;> cases h <;> rfl
  · split at h
    · cases h
    · split at h <;> cases h <;> rfl
  · cases h

/-- A text attribute shares its value with the parameter of the same name, or with none. -/
theorem ofName?_eq_param {name p : String} (h : StrAttr.ofName? name = some (.param p)) :
    p = name ∧ name ∈ sharedParams := by
  unfold StrAttr.ofName? at h
  split_ifs at h with _ _ _ hmem <;> cases h
  exact ⟨rfl, hmem⟩

/-- The name of a shared parameter is that of a text attribute. -/
theorem ofName?_of_mem {name : String} (h : name ∈ sharedParams) :
    StrAttr.ofName? name = some (.param name) := by
  have hother : ∀ p ∈ sharedParams, p ≠ "ProbName" ∧ p ≠ "ColName" ∧ p ≠ "RowName" := by decide
  obtain ⟨hproblem, hcol, hrow⟩ := hother name h
  rw [StrAttr.ofName?, if_neg hproblem, if_neg hcol, if_neg hrow, if_pos h]

/-- Every shared parameter is a text by default. -/
theorem default_of_mem_sharedParams {name : String} (h : name ∈ sharedParams) :
    (name, .str "") ∈ ParamTable.defaults := by
  simp only [sharedParams, List.mem_cons, List.not_mem_nil, or_false] at h
  rcases h with rfl | rfl | rfl | rfl | rfl | rfl | rfl <;>
    simp [ParamTable.defaults, Param.remoteToken]

/-- Writing a text attribute that is shared is setting the parameter. -/
theorem setStrAttr_of_mem {ws : List Write} {name : String} (h : name ∈ sharedParams) (v : String)
    (hs : s.params = afterWrites ws) : s.setStrAttr name none v = s.setParam name (.str v) := by
  have hdefault := default_of_mem_sharedParams h
  have hold : s.params.get? name = some (held ws name (.str "")) := by
    rw [hs, ParamTable.get?_afterWrites, ParamTable.get?_default hdefault]
    rfl
  have hset := ParamTable.set_of_type (v := .str v) hold (ParamTable.type_held ws hdefault).symm
  unfold setStrAttr
  rw [ofName?_of_mem h, setParam, hset]
  rfl

/-- Writing any other text attribute keeps the parameters. -/
theorem params_setStrAttr {name v : String} {index : Option ℕ}
    (hother : index = none → name ∉ sharedParams) (h : s.setStrAttr name index v = .ok s') :
    s'.params = s.params := by
  unfold setStrAttr at h
  split at h
  · cases h; rfl
  · rename_i hname
    exact absurd (ofName?_eq_param hname).2 (hother rfl)
  · split_ifs at h; cases h; rfl
  · split_ifs at h; cases h; rfl
  · cases h

/-- An access makes its writes, and changes no parameter otherwise. -/
theorem Access.params_run {ws : List Write} (hs : s.params = afterWrites ws) (a : Access) :
    (a.run s).2.params = afterWrites (ws ++ a.writes s) := by
  have hkeeps {f : Store → Except ResultCode Store}
      (hf : ∀ s', f s = .ok s' → s'.params = s.params) :
      (TaskFile.attempt f s).2.params = afterWrites (ws ++ []) := by
    rw [List.append_nil, ← hs]
    exact TaskFile.attempt_invariant (P := fun s' => s'.params = s.params) rfl hf
  have hedit {f : Problem → Except ResultCode Problem} :
      (TaskFile.attempt (·.edit f) s).2.params = afterWrites (ws ++ []) := hkeeps fun s' h => by
    obtain ⟨p, -, rfl⟩ := edit_eq_ok h
    rfl
  cases a with
  | applyConfig c =>
    have heach := setEach_eq_ok c.takes_params ws hs
    rw [run, heach]
    cases c.logToConsole <;> rfl
  | op o =>
    cases o with
    | setParam name v =>
      show (TaskFile.attempt (·.setParam name v) s).2.params = _
      rw [params_attempt_setParam, hs, ParamTable.put_afterWrites]
      rfl
    | setStrAttr name index v =>
      show (TaskFile.attempt (·.setStrAttr name index v) s).2.params = _
      by_cases hshared : index = none ∧ name ∈ sharedParams
      · obtain ⟨rfl, hmem⟩ := hshared
        have hsame : TaskFile.attempt (·.setStrAttr name none v) s =
            TaskFile.attempt (·.setParam name (.str v)) s := by
          rw [TaskFile.attempt, TaskFile.attempt, setStrAttr_of_mem hmem v hs]
        rw [hsame, params_attempt_setParam, hs, ParamTable.put_afterWrites, writes, if_pos hmem]
      · have hnone : (op (.setStrAttr name index v)).writes s = [] := by
          cases index with
          | none => exact if_neg fun hmem => hshared ⟨rfl, hmem⟩
          | some k => rfl
        rw [hnone]
        exact hkeeps fun _ => params_setStrAttr fun hindex hmem => hshared ⟨hindex, hmem⟩
    | readTask bytes parts =>
      show (TaskFile.loadBytes bytes parts s).2.params = _
      rw [params_loadBytes, hs, foldl_put]
      rfl
    | setIntAttr name index v => exact hkeeps fun _ => params_setIntAttr
    | setRealAttr name index v => exact hkeeps fun _ => params_setRealAttr
    | addCol | addRow | deleteCols | deleteRows | setElements | deleteElements | deleteAllElements
    | setQuadElements | deleteQuadElements | deleteAllQuadElements | replaceProblem =>
      exact hedit
    | setName | setMinSense | setObjConst | setSolution | setIis | invalidate | recordJob
    | setLog =>
      exact hs.trans (congrArg afterWrites (List.append_nil ws).symm)

/-! ## Runs -/

/-- After accesses the table of parameters is that after their writes. -/
theorem params_foldl (ws : List Write) (hs : s.params = afterWrites ws) (as : List Access) :
    (as.foldl (fun s a => (a.run s).2) s).params = afterWrites (ws ++ writesOf as s) := by
  induction as generalizing s ws with
  | nil => rwa [writesOf, List.append_nil]
  | cons a as ih =>
    rw [List.foldl_cons, ih _ (a.params_run hs), writesOf, List.append_assoc]

/-- Accesses to a new store leave the table of parameters after their writes. -/
theorem params_afterAccesses (name : Option String) (as : List Access) :
    (afterAccesses name as).params = afterWrites (writesOf as (.empty name)) :=
  params_foldl [] ParamTable.afterWrites_nil.symm as

/-! ## Configurations of models -/

section Models

variable {σ : Type} {m : Model}

/-- A model sets a parameter in the store of its engine. -/
theorem run_modelSetParam {name : String} {v : ParamValue} (hfreed : m.state ≠ .freed)
    (hplain : m.engine.scripted = false) (hset : m.engine.store.setParam name v = .ok s)
    (h : Host σ) : (Model.setParam name v).run m h =
      ((.ok (), { m with engine := { m.engine with store := s } }), h) := by
  have hrun : (Engine.setParam name v).run m.engine h =
      ((ResultCode.okay.code, { m.engine with store := s }), h) := by
    rw [Engine.setParam, Engine.edit, Engine.run_guardedCode_of_plain _ _ hplain,
      Engine.run_changeStore, TaskFile.attempt, hset]
    rfl
  rw [Model.setParam, ModelM.run_call, if_neg hfreed, hrun]
  rfl

/-- A model sets parameters one after another in the store of its engine. -/
theorem run_modelSetParams {ws : List Write} (hfreed : m.state ≠ .freed)
    (hplain : m.engine.scripted = false) (hset : setEach ws m.engine.store = (.ok (), s))
    (h : Host σ) : (ws.forM fun (name, v) => Model.setParam name v).run m h =
      ((.ok (), { m with engine := { m.engine with store := s } }), h) := by
  induction ws generalizing m with
  | nil =>
    obtain rfl : m.engine.store = s := congrArg Prod.snd hset
    rfl
  | cons w ws ih =>
    rw [setEach] at hset
    cases hw : m.engine.store.setParam w.1 w.2 with
    | error e => rw [hw] at hset; cases hset
    | ok s₁ =>
      rw [hw] at hset
      show (Model.setParam w.1 w.2 >>= fun _ => ws.forM _).run m h = _
      rw [ModelM.run_bind, run_modelSetParam hfreed hplain hw]
      exact ih (m := { m with engine := { m.engine with store := s₁ } }) hfreed hplain hset

/-- A model applies a configuration to the store of its engine. -/
theorem run_modelApplyConfig {c : Config} (hfreed : m.state ≠ .freed)
    (hplain : m.engine.scripted = false)
    (hc : (Access.applyConfig c).run m.engine.store = (.ok (), s)) (h : Host σ) :
    (Model.applyConfig c).run m h =
      ((.ok (), { m with engine := { m.engine with store := s } }), h) := by
  rw [Access.run] at hc
  cases heach : setEach c.params m.engine.store with
  | mk r s₁ =>
    rw [heach] at hc
    cases r with
    | error e => cases hc
    | ok u =>
      obtain rfl : showLog c.logToConsole s₁ = s := congrArg Prod.snd hc
      rw [Model.applyConfig, ModelM.run_bind, run_modelSetParams hfreed hplain heach]
      cases c.logToConsole with
      | none => rfl
      | some on =>
        dsimp only
        rw [Model.setLogToConsole, ModelM.run_withEngine, if_neg hfreed]
        rfl

end Models

/-! ## Reading and writing the parameters -/

/-- The parameters of a store are those that writes to a new one left, to whoever reads or writes
them. -/
structure HoldsWrites (s : Store) (ws : List Write) : Prop where
  /-- The names, and the types of the values, are those of the defaults. -/
  shape : s.params.shape = ParamTable.defaults.shape
  /-- A parameter has its first value until a write is taken. -/
  read_default : ∀ name v, (name, v) ∈ ParamTable.defaults → lastTaken? ws name = none →
    s.params.getTyped name v.type = .ok v
  /-- A value of the type of the parameter is read back as it was written last. -/
  read_last : ∀ name default v, (name, default) ∈ ParamTable.defaults →
    lastTaken? ws name = some v → v.type = default.type →
    s.params.getTyped name default.type = .ok v
  /-- A whole number that was written to a real parameter is read back as that real number. -/
  read_whole : ∀ name x i, (name, .real x) ∈ ParamTable.defaults →
    lastTaken? ws name = some (.int i) → s.params.getTyped name .real = .ok (.real i.toFloat)
  /-- There is nothing to read under other names, nor as a value of another type. -/
  read_other : ∀ name type, (name, type) ∉ ParamTable.defaults.shape →
    s.params.getTyped name type = .error .paramGetError
  /-- A text attribute that is shared has the text of the parameter. -/
  read_text : ∀ name ∈ sharedParams, ∃ text,
    s.params.getTyped name .str = .ok (.str text) ∧ s.strAttr name none = .ok text
  /-- The writes that count are those that succeed. -/
  write_taken : ∀ w, takes w = true → ((Op.setParam w.1 w.2).run s).1 = .ok ()
  /-- Any other write fails and changes nothing. -/
  write_refused : ∀ w, takes w = false →
    (Op.setParam w.1 w.2).run s = (.error .paramSetError, s)
  /-- Writing a text attribute that is shared is writing the parameter, and succeeds. -/
  write_text : ∀ name ∈ sharedParams, ∀ v, takes (name, .str v) = true ∧
    (Op.setStrAttr name none v).run s = (Op.setParam name (.str v)).run s
  /-- A configuration succeeds in writing all of its options, on any model with this store. -/
  write_config : ∀ (c : Config) (σ : Type) (m : Model) (h : Host σ), m.state ≠ .freed →
    m.engine.scripted = false → m.engine.store = s → (∀ w ∈ c.params, takes w = true) ∧
      (Model.applyConfig c).run m h = ((.ok (),
        { m with engine := { m.engine with store := ((Access.applyConfig c).run s).2 } }), h)

/-- Reading a parameter with a default, as a value of its type. -/
theorem getTyped_default {ws : List Write} (hs : s.params = afterWrites ws) {name : String}
    {default : ParamValue} (h : (name, default) ∈ ParamTable.defaults) :
    s.params.getTyped name default.type = .ok (held ws name default) := by
  rw [ParamTable.getTyped, hs, ParamTable.get?_afterWrites, ParamTable.get?_default h]
  exact if_pos (ParamTable.type_held ws h)

/-- There is nothing to read under a name and a type that no default has. -/
theorem getTyped_of_notMem {ws : List Write} (hs : s.params = afterWrites ws) {name : String}
    {type : ValueType} (h : (name, type) ∉ ParamTable.defaults.shape) :
    s.params.getTyped name type = .error .paramGetError := by
  rw [ParamTable.getTyped, hs, ParamTable.get?_afterWrites]
  cases hdefault : ParamTable.defaults.get? name with
  | none => rfl
  | some d =>
    have hmem := ParamTable.exists_default hdefault
    refine if_neg fun htype => h (List.mem_map.2 ⟨(name, d), hmem, Prod.ext rfl ?_⟩)
    rw [← htype, ParamTable.type_held ws hmem]

/-- Setting a parameter succeeds if the write is taken, and changes nothing otherwise. -/
theorem run_setParam {ws : List Write} (hs : s.params = afterWrites ws) (w : Write) :
    (Op.setParam w.1 w.2).run s =
      if takes w then (.ok (), { s with params := afterWrites (ws ++ [w]) })
      else (.error .paramSetError, s) := by
  show TaskFile.attempt (·.setParam w.1 w.2) s = _
  rw [TaskFile.attempt, setParam, hs, ParamTable.set_afterWrites]
  cases takes w <;> rfl

/-- The parameters of a store are what any accesses to a new one wrote to them. Its table has the
names of the defaults, and under each name a value of the type of the default: the last one that was
written there successfully, as a parameter, as a text attribute, by a configuration or by the
parameter section of a task file, with a whole number for a real parameter read back as that real
number. A write under an unknown name, or of another type, fails and changes nothing. -/
theorem parameters_hold_writes (name : Option String) (as : List Access) :
    HoldsWrites (afterAccesses name as) (writesOf as (.empty name)) := by
  have hs := params_afterAccesses name as
  generalize afterAccesses name as = s at hs
  generalize writesOf as (.empty name) = ws at hs
  have hread {name : String} {default : ParamValue} (h : (name, default) ∈ ParamTable.defaults) :=
    getTyped_default hs h
  constructor
  case shape => rw [hs, ParamTable.shape_afterWrites]
  case read_default =>
    intro name v h hnone
    rw [hread h, held, hnone]
    rfl
  case read_last =>
    intro name default v h hlast htype
    rw [hread h, held, hlast, Option.map_some, ← htype, ParamTable.coerced_of_type]
    rfl
  case read_whole =>
    intro name x i h hlast
    have hx := hread h
    rwa [held, hlast] at hx
  case read_other => exact fun name type => getTyped_of_notMem hs
  case read_text =>
    intro name h
    have hdefault := default_of_mem_sharedParams h
    have htype := ParamTable.type_held ws hdefault
    have hx := hread hdefault
    cases hheld : held ws name (.str "") with
    | int i => rw [hheld] at htype; cases htype
    | real x => rw [hheld] at htype; cases htype
    | str text =>
      refine ⟨text, hheld ▸ hx, ?_⟩
      have hget : s.params.get? name = some (.str text) := by
        rw [hs, ParamTable.get?_afterWrites, ParamTable.get?_default hdefault, Option.map_some,
          hheld]
      unfold strAttr
      rw [ofName?_of_mem h]
      dsimp only
      rw [hget]
  case write_taken =>
    intro w hw
    rw [run_setParam hs, if_pos hw]
  case write_refused =>
    intro w hw
    rw [run_setParam hs, hw]
    rfl
  case write_text =>
    intro name h v
    refine ⟨ParamTable.takes_default (default_of_mem_sharedParams h), ?_⟩
    show TaskFile.attempt (·.setStrAttr name none v) s =
      TaskFile.attempt (·.setParam name (.str v)) s
    rw [TaskFile.attempt, TaskFile.attempt, setStrAttr_of_mem h v hs]
  case write_config =>
    rintro c σ m h hfreed hplain rfl
    refine ⟨c.takes_params, run_modelApplyConfig hfreed hplain ?_ h⟩
    rw [Access.run, setEach_eq_ok c.takes_params ws hs]

end Store

end MathProgram

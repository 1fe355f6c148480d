import MathProgram.Environment
import MathProgram.Proofs.Model.Identity
import MathProgram.Proofs.Solver.Run

/-!
# The models of an environment

Environments and models are made, copied, freed and dropped, in any order. A `Registry` holds all of
them, and notes of each model which environment made it. What a deed makes of a registry is said by
`Registry.Becomes`. `Registry.Valid` says that the host counts for each environment the models in
use that were made there; every deed keeps it (`Valid.of_becomes`, `Valid.run`). So the count that
an environment reports is right, no model is taken off a count of zero, and freeing an environment
succeeds exactly when no model of it is left (`environments_account_for_their_models`).
-/

namespace MathProgram

variable {σ : Type}

/-! ## What is done to the count -/

namespace Environment

/-- A new engine is made without looking at any count. -/
theorem run_newEngine (env : Environment) (name : Option String) (h : Host σ) :
    ∃ engine script, (env.newEngine name).run h = (engine, { h with script }) := by
  cases hthreads : env.threads with
  | none =>
    have hrun : (env.newEngine name).run h = (.empty env.backend env.scripted name, h) := by
      rw [newEngine, hthreads]
      rfl
    exact ⟨_, h.script, hrun⟩
  | some n =>
    let engine := Engine.empty env.backend env.scripted name
    let f (s : Store) := s.setParam Param.numThreads (.int n)
    have hrun : (env.newEngine name).run h =
        (((Engine.edit .setParam f).run engine h).1.2,
          ((Engine.edit .setParam f).run engine h).2) := by
      rw [newEngine, hthreads]
      rfl
    obtain ⟨script, ⟨code, hfault⟩ | hedit⟩ :=
      Engine.run_guardedCode .setParam (Engine.changeStore f) engine h
    · rw [hrun, Engine.edit, hfault]
      exact ⟨_, script, rfl⟩
    · rw [hrun, Engine.edit, hedit, Engine.run_changeStore]
      exact ⟨_, script, rfl⟩

/-- Creating a model: a freed environment refuses, and any other one counts the model. -/
theorem run_createModel (env : Environment) (name : Option String) (h : Host σ) :
    if env.freed then (env.createModel name).run h = (.error .freed, h)
    else ∃ m h', (env.createModel name).run h = (.ok m, h') ∧ m.state ≠ .freed ∧
      m.env = some env.id ∧ h'.live = h.live.modify env.id (· + 1) := by
  split_ifs with hfreed
  · rw [createModel, if_pos hfreed]
    rfl
  · obtain ⟨engine, script, hengine⟩ := run_newEngine env name h
    obtain ⟨state, journal, hstate, hm⟩ := Model.run_ofEngine engine { h with script }
    have hrun : (env.createModel name).run h = (do
        let m ← Model.ofEngine (← env.newEngine name)
        return .ok (← env.adopt m) : HostM σ (Except Error Model)).run h := by
      rw [createModel, if_neg hfreed]
    rw [HostM.run_bind, hengine, HostM.run_bind, hm] at hrun
    refine ⟨_, _, hrun, ?_, rfl, rfl⟩
    obtain rfl | rfl := hstate <;> exact nofun

/-- Copying a model: a freed environment refuses, and so it is if the model has been freed; any
other copy is counted. -/
theorem run_copyModel (env : Environment) (m : Model) (h : Host σ) :
    if env.freed ∨ m.state = .freed then (env.copyModel m).run h = (.error .freed, h)
    else ∃ copy h', (env.copyModel m).run h = (.ok copy, h') ∧ copy.state ≠ .freed ∧
      copy.env = some env.id ∧ h'.live = h.live.modify env.id (· + 1) := by
  have hduplicate : (Model.duplicate.run.run m : HostM σ _).run h = _ := World.run_duplicate m h
  by_cases hfreed : env.freed = true
  · rw [if_pos (.inl hfreed), copyModel, if_pos hfreed]
    rfl
  · rw [copyModel, if_neg hfreed, HostM.run_bind, hduplicate]
    by_cases hm : m.state = .freed
    · rw [if_pos (.inr hm), if_pos hm]
      rfl
    · obtain ⟨state, journal, hstate, hcopy⟩ := Model.run_ofEngine m.engine.duplicate h
      rw [if_neg (not_or.2 ⟨hfreed, hm⟩), if_neg hm, hcopy]
      refine ⟨_, _, rfl, ?_, rfl, rfl⟩
      obtain rfl | rfl := hstate <;> exact nofun

/-- Freeing an environment: it succeeds if the environment is freed already or has no models. -/
theorem run_free (env : Environment) (h : Host σ) : ∃ journal, (env.free).run h =
    (if env.freed then .ok env
      else if h.live.getD env.id 0 = 0 then .ok { env with freed := true }
      else .error (.envInUse (h.live.getD env.id 0)), { h with journal }) := by
  by_cases hfreed : env.freed = true
  · rw [free, if_pos hfreed, if_pos hfreed]
    exact ⟨h.journal, rfl⟩
  · have hbind (next : ℕ → HostM σ (Except Error Environment)) :
        (env.live >>= next).run h = (next (h.live.getD env.id 0)).run h := rfl
    rw [free, if_neg hfreed, if_neg hfreed, hbind]
    by_cases hnone : h.live.getD env.id 0 = 0
    · rw [if_pos hnone, hnone, if_neg (lt_irrefl 0)]
      exact ⟨_, rfl⟩
    · rw [if_neg hnone, if_pos (Nat.pos_of_ne_zero hnone)]
      exact ⟨h.journal, rfl⟩

end Environment

/-- Freeing a model: it is taken off the count of its environment, once. -/
theorem Model.run_free [Solver σ] (m : Model) (h : Host σ) :
    if m.state = .freed then m.free.run h = (m, h)
    else (m.free.run h).1.state = .freed ∧ (m.free.run h).1.env = none ∧
      (m.free.run h).2.live = match m.env with
        | none => h.live
        | some e => h.live.modify e (· - 1) := by
  split_ifs with hfreed
  · rw [free, if_pos hfreed]
    rfl
  · have hkeeper : (Engine.free.run m.engine h).2.live = h.live := by
      have hget (next : Engine → EngineM σ Unit) :
          (get >>= next).run m.engine h = (next m.engine).run m.engine h := rfl
      rw [Engine.free, Engine.releaseKeeper, hget]
      cases m.engine.keeper <;> rfl
    rw [free, if_neg hfreed]
    cases henv : m.env with
    | none => exact ⟨rfl, rfl, hkeeper⟩
    | some e => exact ⟨rfl, rfl, congrArg (List.modify · e (· - 1)) hkeeper⟩

/-- A count after one more was counted. -/
theorem getD_modify_succ {live : List ℕ} {e : ℕ} (he : e < live.length) (e' : ℕ) :
    (live.modify e (· + 1)).getD e' 0 = live.getD e' 0 + if e = e' then 1 else 0 := by
  rw [List.getD_eq_getElem?_getD, List.getD_eq_getElem?_getD, List.getElem?_modify]
  split_ifs with h
  · subst h
    simp [he]
  · simp

/-- A count after one less was counted. -/
theorem getD_modify_pred (live : List ℕ) (e e' : ℕ) :
    (live.modify e (· - 1)).getD e' 0 = live.getD e' 0 - if e = e' then 1 else 0 := by
  rw [List.getD_eq_getElem?_getD, List.getD_eq_getElem?_getD, List.getElem?_modify]
  split_ifs with h
  · cases live[e']? <;> simp
  · simp

/-! ## Environments and models -/

/-- A model with the environment that made it, if one did. It can be dropped, and is out of reach
then. -/
structure Entry where
  model : Model
  home : Option ℕ
  dropped : Bool := false

namespace Entry

/-- The model was neither freed nor dropped. -/
def InUse (t : Entry) : Prop := t.model.state ≠ .freed ∧ t.dropped = false

instance (t : Entry) : Decidable t.InUse := inferInstanceAs (Decidable (_ ∧ _))

/-- A model in use belongs to the environment that made it, and any other one to none; a model is
freed before it is dropped. -/
structure Sound (t : Entry) : Prop where
  env : t.model.env = if t.InUse then t.home else none
  dropped : t.dropped = true → t.model.state = .freed

end Entry

/-- All environments and models that were made, and the counts that the host keeps. -/
structure Registry where
  envs : List Environment
  entries : List Entry
  live : List ℕ

namespace Registry

/-- What can be done with environments and models. -/
inductive Deed where
  | makeEnv (scripted : Bool) (backend : Backend) (threads : Option Int32)
  /-- An environment creates a model. -/
  | create (e : ℕ) (name : Option String)
  /-- An environment copies a model. -/
  | copy (e i : ℕ)
  /-- A model is built around an engine, for no environment. -/
  | build (engine : Engine)
  /-- A model is worked with, which makes another engine of its engine. -/
  | work (i : ℕ) (engine : Engine)
  /-- A model is freed, or goes out of use and is freed by that. -/
  | free (i : ℕ) (drop : Bool)
  | freeEnv (e : ℕ)

/-- A deed, with the host on which it is done. The counts on the host are those of the registry. -/
structure Move (σ : Type) where
  deed : Deed
  host : Host σ

/-- Nothing was made. -/
def empty : Registry := ⟨[], [], []⟩

/-- A host with the counts of the registry. -/
def on (w : Registry) (h : Host σ) : Host σ := { h with live := w.live }

/-- There is one more model. -/
def push (w : Registry) (t : Entry) (live : List ℕ) : Registry := ⟨w.envs, w.entries ++ [t], live⟩

/-- A model takes the place of another. -/
def replace (w : Registry) (i : ℕ) (t : Entry) (live : List ℕ) : Registry :=
  ⟨w.envs, w.entries.set i t, live⟩

/-- What an environment made is there, unless it made nothing. -/
def enroll (w : Registry) (e : ℕ) : Except Error Model × Host σ → Registry
  | (.ok m, h) => w.push { model := m, home := some e } h.live
  | (.error _, h) => { w with live := h.live }

/-- The model that can be reached at an index. -/
def entry? (w : Registry) (i : ℕ) : Option Entry := w.entries[i]?.filter (!·.dropped)

/-- The number of models in use that an environment made. -/
def residents (w : Registry) (e : ℕ) : ℕ :=
  w.entries.countP fun t => t.home = some e ∧ t.InUse

section

variable [Solver σ]

/-- The registry after a deed. -/
def after (w : Registry) (s : Move σ) : Registry :=
  match s.deed with
  | .makeEnv scripted backend threads =>
    let (env, h) := (Environment.create scripted backend threads).run (w.on s.host)
    { w with envs := w.envs ++ [env], live := h.live }
  | .create e name =>
    match w.envs[e]? with
    | none => w
    | some env => w.enroll e ((env.createModel name).run (w.on s.host))
  | .copy e i =>
    match w.envs[e]?, w.entry? i with
    | some env, some t => w.enroll e ((env.copyModel t.model).run (w.on s.host))
    | _, _ => w
  | .build engine =>
    let (m, h) := (Model.ofEngine engine).run (w.on s.host)
    w.push { model := m, home := none } h.live
  | .work i engine =>
    match w.entry? i with
    | none => w
    | some t => w.replace i { t with model := { t.model with engine } } w.live
  | .free i drop =>
    match w.entry? i with
    | none => w
    | some t =>
      let (m, h) := t.model.free.run (w.on s.host)
      w.replace i { t with model := m, dropped := drop } h.live
  | .freeEnv e =>
    match w.envs[e]? with
    | none => w
    | some env =>
      match env.free.run (w.on s.host) with
      | (.ok env, h) => { w with envs := w.envs.set e env, live := h.live }
      | (.error _, h) => { w with live := h.live }

/-- The registry after deeds. -/
def run (w : Registry) (ss : List (Move σ)) : Registry := ss.foldl after w

@[simp] theorem run_nil (w : Registry) : w.run ([] : List (Move σ)) = w := rfl

@[simp] theorem run_cons (w : Registry) (s : Move σ) (ss : List (Move σ)) :
    w.run (s :: ss) = (w.after s).run ss := rfl

@[simp] theorem run_append (w : Registry) (ss ss' : List (Move σ)) :
    w.run (ss ++ ss') = (w.run ss).run ss' := List.foldl_append ..

end

/-! ## What a deed does -/

section

variable [Solver σ] {w : Registry} {e i : ℕ} {env : Environment}

/-- What a deed makes of a registry. -/
inductive Becomes (σ : Type) [Solver σ] (w : Registry) : Registry → Prop
  /-- The deed is refused, or there is nothing to do it with. -/
  | same : Becomes σ w w
  | makeEnv {env : Environment} (hid : env.id = w.live.length) (hfreed : env.freed = false) :
      Becomes σ w ⟨w.envs ++ [env], w.entries, w.live ++ [0]⟩
  /-- An environment has created or copied a model. -/
  | made {e : ℕ} {env : Environment} {m : Model} (he : w.envs[e]? = some env)
      (hfreed : env.freed = false) (hm : m.state ≠ .freed) (henv : m.env = some env.id) :
      Becomes σ w (w.push { model := m, home := some e } (w.live.modify env.id (· + 1)))
  | built {m : Model} (henv : m.env = none) :
      Becomes σ w (w.push { model := m, home := none } w.live)
  | worked {i : ℕ} {t : Entry} (hi : w.entry? i = some t) (engine : Engine) :
      Becomes σ w (w.replace i { t with model := { t.model with engine } } w.live)
  | freed {i : ℕ} {t : Entry} (hi : w.entry? i = some t) (drop : Bool) (h : Host σ) :
      Becomes σ w
        (w.replace i { t with model := (t.model.free.run (w.on h)).1, dropped := drop }
          (t.model.free.run (w.on h)).2.live)
  | freeEnv {e : ℕ} {env : Environment} (he : w.envs[e]? = some env) (hfreed : env.freed = false)
      (hnone : w.live.getD env.id 0 = 0) :
      Becomes σ w ⟨w.envs.set e { env with freed := true }, w.entries, w.live⟩

/-- An environment makes a model, or it is refused. -/
theorem becomes_enroll (he : w.envs[e]? = some env) {c : Prop} [Decidable c]
    (hc : env.freed = true → c) {r : Except Error Model × Host σ} {h : Host σ}
    (hr : if c then r = (.error .freed, w.on h) else ∃ m h', r = (.ok m, h') ∧ m.state ≠ .freed ∧
      m.env = some env.id ∧ h'.live = (w.on h).live.modify env.id (· + 1)) :
    Becomes σ w (w.enroll e r) := by
  split_ifs at hr with hrefused
  · rw [hr]
    exact .same
  · obtain ⟨m, h', rfl, hm, henv, hlive⟩ := hr
    rw [enroll, hlive]
    exact .made he (Bool.eq_false_iff.2 fun hfreed => hrefused (hc hfreed)) hm henv

/-- An environment is freed now or was freed before, or that is refused. -/
theorem becomes_freeEnv (he : w.envs[e]? = some env) (h : Host σ) :
    Becomes σ w (w.after ⟨.freeEnv e, h⟩) := by
  obtain ⟨journal, hrun⟩ := env.run_free (w.on h)
  rw [after]
  dsimp only
  rw [he]
  dsimp only
  rw [hrun]
  split_ifs with hfreed hnone
  · have hset : w.envs.set e env = w.envs := by
      obtain ⟨hlt, rfl⟩ := List.getElem?_eq_some_iff.1 he
      exact List.set_getElem_self hlt
    dsimp only
    rw [hset]
    exact .same
  · exact .freeEnv he (Bool.eq_false_iff.2 hfreed) hnone
  · exact .same

/-- Whatever the deed and the host, this is what becomes of the registry. -/
theorem becomes_after (w : Registry) (s : Move σ) : Becomes σ w (w.after s) := by
  obtain ⟨deed, host⟩ := s
  cases deed with
  | makeEnv scripted backend threads => exact .makeEnv rfl rfl
  | create e name =>
    rw [after]
    dsimp only
    cases he : w.envs[e]? with
    | none => exact .same
    | some env => exact becomes_enroll he id (env.run_createModel name (w.on host))
  | copy e i =>
    rw [after]
    dsimp only
    cases he : w.envs[e]? with
    | none => exact .same
    | some env =>
      cases w.entry? i with
      | none => exact .same
      | some t => exact becomes_enroll he .inl (env.run_copyModel t.model (w.on host))
  | build engine =>
    obtain ⟨state, journal, -, hrun⟩ := Model.run_ofEngine engine (w.on host)
    rw [after]
    dsimp only
    rw [hrun]
    exact .built rfl
  | work i engine =>
    rw [after]
    dsimp only
    cases hi : w.entry? i with
    | none => exact .same
    | some t => exact .worked hi engine
  | free i drop =>
    rw [after]
    dsimp only
    cases hi : w.entry? i with
    | none => exact .same
    | some t => exact .freed hi drop host
  | freeEnv e =>
    cases he : w.envs[e]? with
    | none =>
      rw [after]
      dsimp only
      rw [he]
      exact .same
    | some env => exact becomes_freeEnv he host

end

/-! ## What every deed keeps -/

/-- The counts are those of the models in use, and a freed environment has none. -/
structure Valid (w : Registry) : Prop where
  id : ∀ (e : ℕ) (env : Environment), w.envs[e]? = some env → env.id = e
  length : w.live.length = w.envs.length
  live : ∀ e, w.live.getD e 0 = w.residents e
  sound : ∀ t ∈ w.entries, t.Sound
  freed : ∀ (e : ℕ) (env : Environment), w.envs[e]? = some env → env.freed = true →
    w.residents e = 0

variable {w : Registry} {t t' : Entry} {e i : ℕ} {env : Environment} {live : List ℕ}

/-- There are no counts to begin with. -/
theorem valid_empty : empty.Valid where
  id _ _ h := nomatch List.getElem?_nil.symm.trans h
  length := rfl
  live _ := rfl
  sound _ h := nomatch h
  freed _ _ h := nomatch List.getElem?_nil.symm.trans h

/-- One more model in use is counted. -/
theorem residents_push (w : Registry) (t : Entry) (live : List ℕ) (e : ℕ) :
    (w.push t live).residents e =
      w.residents e + if t.home = some e ∧ t.InUse then 1 else 0 := by
  rw [residents, push, List.countP_append, List.countP_singleton, residents]
  simp only [decide_eq_true_eq]

/-- A model that stays in use, or goes out of use, stays or goes for the environment that made it.
-/
theorem residents_replace (hi : w.entries[i]? = some t) (hhome : t'.home = t.home)
    (huse : t'.InUse → t.InUse) (live : List ℕ) (e : ℕ) :
    (w.replace i t' live).residents e =
      w.residents e - if t.home = some e ∧ t.InUse ∧ ¬t'.InUse then 1 else 0 := by
  obtain ⟨hlt, hget⟩ := List.getElem?_eq_some_iff.1 hi
  have hpos : (t.home = some e ∧ t.InUse) → 0 < w.residents e := fun h =>
    List.countP_pos_iff.2 ⟨t, List.mem_of_getElem? hi, decide_eq_true h⟩
  rw [residents, replace, List.countP_set hlt, hget, hhome, ← residents]
  simp only [decide_eq_true_eq]
  by_cases hboth : t.home = some e ∧ t.InUse
  · have := hpos hboth
    by_cases huse' : t'.InUse
    · simp [hboth, huse']
      omega
    · simp [hboth.1, hboth.2, huse']
  · have hnot' : ¬(t.home = some e ∧ t'.InUse) := fun h => hboth ⟨h.1, huse h.2⟩
    have hnot : ¬(t.home = some e ∧ t.InUse ∧ ¬t'.InUse) := fun h => hboth ⟨h.1, h.2.1⟩
    rw [if_neg hboth, if_neg hnot', if_neg hnot]
    rfl

/-- A model that an environment made is counted there. -/
theorem Valid.push_made (hw : w.Valid) (he : w.envs[e]? = some env) (hfreed : env.freed = false)
    {m : Model} (hm : m.state ≠ .freed) (henv : m.env = some env.id) :
    (w.push { model := m, home := some e } (w.live.modify env.id (· + 1))).Valid := by
  have hid := hw.id e env he
  have hlt : e < w.live.length := hw.length ▸ (List.getElem?_eq_some_iff.1 he).1
  have huse : Entry.InUse { model := m, home := some e } := ⟨hm, rfl⟩
  refine ⟨hw.id, (List.length_modify ..).trans hw.length, fun e' => ?_, fun t ht => ?_,
    fun e' env' he' hfreed' => ?_⟩
  · rw [residents_push, push, hid, getD_modify_succ hlt, hw.live]
    simp [huse]
  · obtain ht | ht := List.mem_append.1 ht
    · exact hw.sound t ht
    · obtain rfl := List.mem_singleton.1 ht
      exact ⟨by rw [henv, hid, if_pos huse], nofun⟩
  · -- A freed environment has made no model now.
    rw [residents_push, hw.freed e' env' he' hfreed', if_neg]
    rintro ⟨hhome, -⟩
    obtain rfl := Option.some.inj hhome
    obtain rfl := Option.some.inj (he.symm.trans he')
    cases hfreed.symm.trans hfreed'

/-- A model for no environment is not counted. -/
theorem Valid.push_built (hw : w.Valid) {m : Model} (henv : m.env = none) :
    (w.push { model := m, home := none } w.live).Valid := by
  have hsame (e : ℕ) :
      (w.push { model := m, home := none } w.live).residents e = w.residents e := by
    rw [residents_push]
    simp
  refine ⟨hw.id, hw.length, fun e => (hw.live e).trans (hsame e).symm, fun t ht => ?_,
    fun e env he hfreed => (hsame e).trans (hw.freed e env he hfreed)⟩
  obtain ht | ht := List.mem_append.1 ht
  · exact hw.sound t ht
  · obtain rfl := List.mem_singleton.1 ht
    exact ⟨by rw [henv, ite_self], nofun⟩

/-- A model takes its own place, and the count of its environment follows. -/
theorem Valid.replace (hw : w.Valid) (hi : w.entries[i]? = some t) (ht' : t'.Sound)
    (hhome : t'.home = t.home) (huse : t'.InUse → t.InUse) (hlength : live.length = w.live.length)
    (hlive : ∀ e, live.getD e 0 =
      w.live.getD e 0 - if t.home = some e ∧ t.InUse ∧ ¬t'.InUse then 1 else 0) :
    (w.replace i t' live).Valid := by
  have hresidents := residents_replace hi hhome huse live
  refine ⟨hw.id, hlength.trans hw.length, fun e => ?_, fun u hu => ?_, fun e env he hfreed => ?_⟩
  · rw [hresidents, ← hw.live]
    exact hlive e
  · obtain hu | rfl := List.mem_or_eq_of_mem_set hu
    · exact hw.sound u hu
    · exact ht'
  · rw [hresidents, hw.freed e env he hfreed, Nat.zero_sub]

/-- A model that can be reached is there, and was not dropped. -/
theorem entry?_eq_some (hi : w.entry? i = some t) :
    w.entries[i]? = some t ∧ t.dropped = false := by
  obtain ⟨hget, hdropped⟩ := Option.filter_eq_some_iff.1 hi
  exact ⟨hget, by simpa using hdropped⟩

/-- A new environment has made no models. -/
theorem Valid.makeEnv (hw : w.Valid) {env : Environment} (hid : env.id = w.live.length)
    (hfreed : env.freed = false) : Valid ⟨w.envs ++ [env], w.entries, w.live ++ [0]⟩ := by
  have hget (e : ℕ) (env' : Environment) (he : (w.envs ++ [env])[e]? = some env') :
      w.envs[e]? = some env' ∨ e = w.envs.length ∧ env' = env := by
    rw [List.getElem?_append] at he
    split_ifs at he with hlt
    · exact .inl he
    · rw [List.getElem?_singleton] at he
      split_ifs at he with hzero
      exact .inr ⟨by omega, (Option.some.inj he).symm⟩
  refine ⟨fun e env' he => ?_, by simp [hw.length], fun e => ?_, hw.sound,
    fun e env' he hfreed' => ?_⟩
  · obtain he | ⟨rfl, rfl⟩ := hget e env' he
    · exact hw.id e env' he
    · exact hid.trans hw.length
  · have hlive : (w.live ++ [0]).getD e 0 = w.live.getD e 0 := by
      rw [List.getD_eq_getElem?_getD, List.getD_eq_getElem?_getD, List.getElem?_append]
      split_ifs with hlt
      · rfl
      · rw [List.getElem?_eq_none (Nat.le_of_not_lt hlt), List.getElem?_singleton]
        split_ifs <;> rfl
    exact hlive.trans (hw.live e)
  · obtain he | ⟨rfl, rfl⟩ := hget e env' he
    · exact hw.freed e env' he hfreed'
    · exact absurd hfreed' (by simp [hfreed])

/-- An environment without models in use may be freed. -/
theorem Valid.freeEnv (hw : w.Valid) (he : w.envs[e]? = some env) (hnone : w.residents e = 0) :
    Valid ⟨w.envs.set e { env with freed := true }, w.entries, w.live⟩ := by
  have hget (e' : ℕ) (env' : Environment)
      (he' : (w.envs.set e { env with freed := true })[e']? = some env') :
      e' = e ∧ env' = { env with freed := true } ∨ w.envs[e']? = some env' := by
    rw [List.getElem?_set] at he'
    split_ifs at he' with hsame
    · exact .inl ⟨hsame.symm, (Option.some.inj he').symm⟩
    · exact .inr he'
  refine ⟨fun e' env' he' => ?_, hw.length.trans (List.length_set ..).symm, hw.live, hw.sound,
    fun e' env' he' hfreed => ?_⟩
  · obtain ⟨rfl, rfl⟩ | he' := hget e' env' he'
    · exact hw.id e' env he
    · exact hw.id e' env' he'
  · obtain ⟨rfl, rfl⟩ | he' := hget e' env' he'
    · exact hnone
    · exact hw.freed e' env' he' hfreed

/-- What freeing an environment does to the registry. -/
theorem Valid.run_free (hw : w.Valid) (he : w.envs[e]? = some env) (h : Host σ) :
    ∃ journal, env.free.run (w.on h) =
      (if env.freed then .ok env
        else if w.residents e = 0 then .ok { env with freed := true }
        else .error (.envInUse (w.residents e)), { w.on h with journal }) := by
  obtain ⟨journal, hrun⟩ := env.run_free (w.on h)
  have hlive : (w.on h).live.getD env.id 0 = w.residents e := by
    rw [hw.id e env he]
    exact hw.live e
  rw [hlive] at hrun
  exact ⟨journal, hrun⟩

variable [Solver σ]

/-- Freeing a model, or dropping it, takes it off the count if it was in use. -/
theorem Valid.free (hw : w.Valid) (hi : w.entry? i = some t) (drop : Bool) (h : Host σ) :
    (w.replace i { t with model := (t.model.free.run (w.on h)).1, dropped := drop }
      (t.model.free.run (w.on h)).2.live).Valid := by
  obtain ⟨hget, hdropped⟩ := entry?_eq_some hi
  obtain ⟨henv, -⟩ := hw.sound t (List.mem_of_getElem? hget)
  have hrun := t.model.run_free (w.on h)
  by_cases hfreed : t.model.state = .freed
  · -- It was freed before, and was taken off then.
    rw [if_pos hfreed] at hrun
    rw [hrun]
    have hnot : ¬t.InUse := fun huse => huse.1 hfreed
    rw [if_neg hnot] at henv
    have hnot' : ¬Entry.InUse { t with dropped := drop } := fun huse => huse.1 hfreed
    refine hw.replace hget ⟨?_, fun _ => hfreed⟩ rfl (fun huse => absurd huse hnot') rfl fun e => ?_
    · rw [if_neg hnot']
      exact henv
    · rw [if_neg fun h => hnot h.2.1]
      rfl
  · rw [if_neg hfreed] at hrun
    obtain ⟨hstate, henv', hlive⟩ := hrun
    have huse : t.InUse := ⟨hfreed, hdropped⟩
    have hnot' (m : Model) (hm : m.state = .freed) :
        ¬Entry.InUse { t with model := m, dropped := drop } := fun huse => huse.1 hm
    rw [if_pos huse] at henv
    rw [hlive, henv]
    refine hw.replace hget ⟨?_, fun _ => hstate⟩ rfl (fun _ => huse) ?_ fun e => ?_
    · rw [if_neg (hnot' _ hstate)]
      exact henv'
    · cases t.home with
      | none => rfl
      | some e => exact List.length_modify ..
    · simp only [huse, hnot' _ hstate, not_false_eq_true, and_true]
      cases t.home with
      | none => simp [on]
      | some e' =>
        dsimp only
        rw [getD_modify_pred]
        simp [on]

/-- Working with a model does not change whether it is in use. -/
theorem Valid.work (hw : w.Valid) (hi : w.entry? i = some t) (engine : Engine) :
    (w.replace i { t with model := { t.model with engine } } w.live).Valid := by
  obtain ⟨hget, -⟩ := entry?_eq_some hi
  obtain ⟨henv, hdropped⟩ := hw.sound t (List.mem_of_getElem? hget)
  refine hw.replace hget ⟨henv, hdropped⟩ rfl (fun huse => huse) rfl fun e => ?_
  rw [if_neg fun h => h.2.2 h.2.1]
  rfl

/-- Whatever a deed makes of a registry has right counts, too. -/
theorem Valid.of_becomes {w' : Registry} (hw : w.Valid) (h : Becomes σ w w') : w'.Valid := by
  cases h with
  | same => exact hw
  | makeEnv hid hfreed => exact hw.makeEnv hid hfreed
  | made he hfreed hm henv => exact hw.push_made he hfreed hm henv
  | built henv => exact hw.push_built henv
  | worked hi engine => exact hw.work hi engine
  | freed hi drop h => exact hw.free hi drop h
  | freeEnv he hfreed hnone =>
    refine hw.freeEnv he ?_
    rw [← hw.live, ← hw.id _ _ he]
    exact hnone

/-- Every deed keeps the counts right. -/
theorem Valid.after (hw : w.Valid) (s : Move σ) : (w.after s).Valid :=
  hw.of_becomes (w.becomes_after s)

/-- Any number of deeds keeps the counts right. -/
theorem Valid.run (hw : w.Valid) (ss : List (Move σ)) : (w.run ss).Valid := by
  induction ss generalizing w with
  | nil => exact hw
  | cons s ss ih => exact ih (hw.after s)

/-- A freed environment stays as it is. -/
theorem Becomes.envs {w' : Registry} (h : Becomes σ w w') (he : w.envs[e]? = some env)
    (hfreed : env.freed = true) : w'.envs[e]? = some env := by
  cases h with
  | makeEnv =>
    exact (List.getElem?_append_left (List.getElem?_eq_some_iff.1 he).1).trans he
  | freeEnv he' hfreed' =>
    -- The one that is freed now is another one.
    refine (List.getElem?_set_ne ?_).trans he
    rintro rfl
    obtain rfl := Option.some.inj (he.symm.trans he')
    cases hfreed.symm.trans hfreed'
  | same | made | built | worked | freed => exact he

/-- A freed environment stays as it is through any deeds. -/
theorem envs_run (he : w.envs[e]? = some env) (hfreed : env.freed = true) (ss : List (Move σ)) :
    (w.run ss).envs[e]? = some env := by
  induction ss generalizing w with
  | nil => exact he
  | cons s ss ih => exact ih ((w.becomes_after s).envs he hfreed)

/-! ## Main theorem -/

/-- An environment accounts for its models on a host: what it reports, and what becomes of the
models it makes and of those that are freed. -/
structure Accounts (w : Registry) (e : ℕ) (env : Environment) (h : Host σ) : Prop where
  /-- The count that the environment reports. -/
  live : (env.live).run h = (w.residents e, h)
  /-- Freeing it succeeds if it is freed or has no models, and fails with their number otherwise. -/
  free : ∃ journal, env.free.run h =
    (if env.freed then .ok env
      else if w.residents e = 0 then .ok { env with freed := true }
      else .error (.envInUse (w.residents e)), { h with journal })
  /-- Freeing it in vain changes nothing. -/
  inUse : env.freed = false → w.residents e ≠ 0 → ∀ host : Host σ, w.after ⟨.freeEnv e, host⟩ = w
  /-- It creates a model and counts it, unless it is freed. -/
  create : ∀ name, if env.freed then (env.createModel name).run h = (.error .freed, h)
    else ∃ m h', (env.createModel name).run h = (.ok m, h') ∧
      h'.live.getD e 0 = w.residents e + 1
  /-- It copies a model and counts the copy, unless one of the two is freed. -/
  copy : ∀ m, if env.freed ∨ m.state = .freed then (env.copyModel m).run h = (.error .freed, h)
    else ∃ copy h', (env.copyModel m).run h = (.ok copy, h') ∧
      h'.live.getD e 0 = w.residents e + 1
  /-- Freeing a model in use takes one off the count, which is not zero. -/
  leave : ∀ t ∈ w.entries, t.InUse → t.home = some e →
    (t.model.free.run h).2.live.getD e 0 + 1 = w.residents e
  /-- Freeing any other model takes nothing off. -/
  stay : ∀ t ∈ w.entries, ¬(t.InUse ∧ t.home = some e) →
    (t.model.free.run h).2.live.getD e 0 = w.residents e
  /-- A freed environment has no model. -/
  freed : env.freed = true → w.residents e = 0

/-- In a registry with right counts every environment accounts for its models. -/
theorem Valid.accounts (hw : w.Valid) (he : w.envs[e]? = some env) (h : Host σ) :
    w.Accounts e env (w.on h) := by
  have hid := hw.id e env he
  have hlt : e < w.live.length := hw.length ▸ (List.getElem?_eq_some_iff.1 he).1
  have hcounted {live : List ℕ} (hlive : live = (w.on h).live.modify env.id (· + 1)) :
      live.getD e 0 = w.residents e + 1 := by
    rw [hlive, hid, on, getD_modify_succ hlt, if_pos rfl, hw.live]
  refine ⟨?_, hw.run_free he h, fun hfreed hsome host => ?_, fun name => ?_, fun m => ?_,
    fun t ht huse hhome => ?_, fun t ht hother => ?_, hw.freed e env he⟩
  · have hlive : (env.live).run (w.on h) = (w.live.getD env.id 0, w.on h) := rfl
    rw [hlive, hid, hw.live]
  · obtain ⟨journal, hrun⟩ := hw.run_free he host
    rw [Registry.after]
    dsimp only
    rw [he]
    dsimp only
    rw [hrun, if_neg (by simp [hfreed]), if_neg hsome]
    rfl
  · have hrun := env.run_createModel name (w.on h)
    split_ifs at hrun ⊢
    · exact hrun
    · obtain ⟨m, h', hrun, -, -, hlive⟩ := hrun
      exact ⟨m, h', hrun, hcounted hlive⟩
  · have hrun := env.run_copyModel m (w.on h)
    split_ifs at hrun ⊢
    · exact hrun
    · obtain ⟨copy, h', hrun, -, -, hlive⟩ := hrun
      exact ⟨copy, h', hrun, hcounted hlive⟩
  · have hrun := t.model.run_free (w.on h)
    have henv := (hw.sound t ht).env
    rw [if_pos huse, hhome] at henv
    rw [if_neg huse.1, henv] at hrun
    have hpos : 0 < w.residents e := List.countP_pos_iff.2 ⟨t, ht, decide_eq_true ⟨hhome, huse⟩⟩
    rw [hrun.2.2, getD_modify_pred, if_pos rfl, on, hw.live]
    omega
  · have hrun := t.model.run_free (w.on h)
    have henv := (hw.sound t ht).env
    by_cases hfreed : t.model.state = .freed
    · rw [if_pos hfreed] at hrun
      rw [hrun]
      exact hw.live e
    · -- It is in use then, as it was not dropped, and belongs to another environment or to none.
      have hdropped : t.dropped = false :=
        Bool.eq_false_iff.2 fun hdropped => hfreed ((hw.sound t ht).dropped hdropped)
      rw [if_pos ⟨hfreed, hdropped⟩] at henv
      rw [if_neg hfreed, henv] at hrun
      rw [hrun.2.2]
      cases hhome : t.home with
      | none => exact hw.live e
      | some e' =>
        have hne : e' ≠ e := by
          rintro rfl
          exact hother ⟨⟨hfreed, hdropped⟩, hhome⟩
        dsimp only
        rw [getD_modify_pred, if_neg hne]
        exact hw.live e

/-- Whatever was made, copied, worked with, freed and dropped before, every environment accounts for
its models: the count it reports is the number of models created by it or copied into it that were
neither freed nor dropped, freeing a model takes off one exactly if it is one of these, and the
environment can be freed if there are none of them, or it was freed before. Otherwise the attempt
fails with their number and changes nothing. A freed environment stays freed. -/
theorem environments_account_for_their_models (ss : List (Move σ)) (e : ℕ) (env : Environment)
    (he : (empty.run ss).envs[e]? = some env) :
    (∀ h : Host σ, (empty.run ss).Accounts e env ((empty.run ss).on h)) ∧
      (env.freed = true →
        ∀ more : List (Move σ), (empty.run (ss ++ more)).envs[e]? = some env) := by
  refine ⟨fun h => (valid_empty.run ss).accounts he h, fun hfreed more => ?_⟩
  rw [run_append]
  exact envs_run he hfreed more

/-- Two environments; the first one creates two models, the second one copies the first of these.
Both models of the first environment are given up, one by freeing it twice and one by dropping it,
and then the environment is freed, after an attempt in between. -/
def twoTenancies : List (Move ScriptedSolver) :=
  [.makeEnv false .plain none, .makeEnv false .plain (some 2), .create 0 (some "a"), .create 0 none,
    .copy 1 0, .free 0 false, .freeEnv 0, .free 0 false, .free 1 true, .freeEnv 0].map
      fun deed => ⟨deed, { solver := {} }⟩

/-- The first environment is freed in the end, and the second one has the copy. -/
theorem environments_account_for_their_models_of_two :
    let w := empty.run twoTenancies
    ∃ env env', (w.envs[0]? = some env ∧ env.freed = true ∧ w.residents 0 = 0) ∧
      (w.envs[1]? = some env' ∧ env'.freed = false ∧ w.residents 1 = 1) ∧
      (∀ h : Host ScriptedSolver, w.Accounts 0 env (w.on h) ∧ w.Accounts 1 env' (w.on h)) ∧
      (empty.run (twoTenancies ++ [⟨.create 0 none, { solver := {} }⟩])).envs[0]? = some env := by
  intro w
  have hget (e : ℕ) (freed : Bool) (hfreed : w.envs[e]?.map (·.freed) = some freed) :
      ∃ env, w.envs[e]? = some env ∧ env.freed = freed := Option.map_eq_some_iff.1 hfreed
  obtain ⟨env, he, hfreed⟩ := hget 0 true (by decide)
  obtain ⟨env', he', hfreed'⟩ := hget 1 false (by decide)
  obtain ⟨hfirst, hlater⟩ := environments_account_for_their_models twoTenancies 0 env he
  obtain ⟨hsecond, -⟩ := environments_account_for_their_models twoTenancies 1 env' he'
  exact ⟨env, env', ⟨he, hfreed, by decide⟩, ⟨he', hfreed', by decide⟩,
    fun h => ⟨hfirst h, hsecond h⟩, hlater hfreed _⟩

end Registry

end MathProgram

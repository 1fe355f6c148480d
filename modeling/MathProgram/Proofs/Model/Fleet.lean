import MathProgram.Proofs.Model.Freed
import MathProgram.Proofs.Model.Instances

/-!
# Instances are accounted for

A `Fleet` is a number of engines, each by itself or in a model, that share a host. Engines are made,
worked with, copied and dropped, models are built around them, called, copied, freed and dropped, in
any order; and meanwhile anything may happen to the host that leaves the record of requests alone,
so the library may answer whatever it likes. Every event concerns one member at most, and exchanges
the instance of its engine (`Fleet.Step`). So at any time the instances that are alive are those
that the members keep, each kept by one of them (`Fleet.Tidy`), and what a member keeps was created
for it and comes from its last solve that ran to completion (`instances_are_accounted_for`).
-/

namespace MathProgram

variable {σ : Type}

/-! ## Members -/

/-- An engine, by itself or in a model. -/
inductive Member where
  | engine (e : Engine)
  | model (m : Model)

namespace Member

/-- What is done with a member. -/
inductive Deed where
  /-- A call of an engine. -/
  | method (c : Engine.Method)
  /-- A model is built around an engine, for an environment or for none. -/
  | build (env : Option ℕ)
  /-- A call of a model. -/
  | call (c : Call)

/-- The engine of a member. -/
def core : Member → Engine
  | engine e => e
  | model m => m.engine

/-- A model that was freed. -/
def Freed : Member → Prop
  | engine _ => False
  | model m => m.state = .freed

/-- A deed that frees a member. -/
def Deed.Frees (d : Deed) (x : Member) : Prop :=
  match d, x with
  | .method c, engine _ => c = .free
  | .call c, model _ => c = .free
  | _, _ => False

/-- A copy, for an environment or for none. A model that was freed has no copy. -/
def duplicate (env : Option ℕ) : Member → HostM σ (Option Member)
  | engine e => return some (.engine e.duplicate)
  | model m => do
    match ← Model.duplicate.run m with
    | (.ok m, _) => return some (.model { m with env })
    | (.error _, _) => return none

/-- A copy keeps nothing and was not freed, and nothing is asked for it. -/
theorem run_duplicate (x : Member) (env : Option ℕ) (h : Host σ) :
    h.Quiet ((x.duplicate env).run h).2 ∧ ∀ x' ∈ ((x.duplicate env).run h).1,
      x'.core.keeper = none ∧ ¬x'.Freed := by
  cases x with
  | engine e => exact ⟨.refl h, fun x' hx' => by cases hx'; exact ⟨rfl, not_false⟩⟩
  | model m =>
    have hcopy : (Model.duplicate.run m : HostM σ _).run h = _ := World.run_duplicate m h
    rw [duplicate, HostM.run_bind, hcopy]
    by_cases hm : m.state = .freed
    · rw [if_pos hm]
      exact ⟨.refl h, fun x' hx' => nomatch hx'⟩
    · obtain ⟨state, journal, hstate, hbuilt⟩ := Model.run_ofEngine m.engine.duplicate h
      rw [if_neg hm, hbuilt]
      refine ⟨⟨rfl, rfl⟩, fun x' hx' => ?_⟩
      cases hx'
      refine ⟨rfl, fun hfreed => ?_⟩
      obtain rfl | rfl := hstate <;> cases hfreed

variable [Solver σ] {d : Deed} {x : Member} {h : Host σ} {k : InstanceId}

/-- Does a deed. One that is not for such a member has no effect. -/
def after (d : Deed) : Member → HostM σ Member
  | engine e =>
    match d with
    | .method c => do return .engine (← c.run.run e).2
    | .build env => do return .model { ← Model.ofEngine e with env }
    | .call _ => return .engine e
  | model m =>
    match d with
    | .call c => do return .model (← c.run.run.run m).2
    | .method _ | .build _ => return .model m

/-- A member goes out of use: a model is freed, and then the engine gives up its instance. -/
def drop : Member → HostM σ Unit
  | engine e => discard (Engine.free.run e)
  | model m => do discard (Engine.free.run (← m.free).engine)

/-- A deed is a solve that runs to completion, with an instance. -/
def Deed.Completes (d : Deed) (x : Member) (h : Host σ) (k : InstanceId) : Prop :=
  match d, x with
  | .method c, engine e => c.Completes e h k
  | .call c, model m => c.Completes m h k
  | _, _ => False

/-- A member is in order on a host: what it keeps is alive, and if it is freed it keeps nothing. -/
structure Orderly (x : Member) (h : Host σ) : Prop where
  alive : ∀ k, x.core.keeper = some k → h.Alive k
  freed : x.Freed → x.core.keeper = none

/-- The model that is built around an engine has this engine, and was not freed. -/
theorem after_build (e : Engine) (env : Option ℕ) (h : Host σ) : ∃ m, m.engine = e ∧
    m.state ≠ .freed ∧ (((engine e).after (.build env)).run h).1 = model m ∧
      h.Quiet (((engine e).after (.build env)).run h).2 := by
  obtain ⟨state, journal, hstate, hbuilt⟩ := Model.run_ofEngine e h
  have hrun : ((engine e).after (.build env)).run h =
      (.model { ((Model.ofEngine e).run h).1 with env }, ((Model.ofEngine e).run h).2) := rfl
  rw [hrun, hbuilt]
  refine ⟨_, rfl, fun hfreed => ?_, rfl, ⟨rfl, rfl⟩⟩
  obtain rfl | rfl := hstate <;> cases hfreed

/-- A model that was freed is left as it is. -/
theorem after_freed {m : Model} (hm : m.state = .freed) (c : Call) (h : Host σ) :
    (((model m).after (.call c)).run h).1 = model m := by
  obtain ⟨journal, hrun, -⟩ := Model.run_of_freed hm c h
  have hafter : (((model m).after (.call c)).run h).1 = model (c.run.run m h).1.2 := rfl
  rw [hafter, hrun]

/-- A deed exchanges the instance of a member. -/
theorem exchange_after (d : Deed) (hx : x.Orderly h) (hh : h.Orderly) :
    Exchange x.core.keeper ((x.after d).run h).1.core.keeper h ((x.after d).run h).2 := by
  cases x with
  | engine e =>
    cases d with
    | method c => exact c.exchanges e h hh hx.alive
    | build env =>
      obtain ⟨m, rfl, -, hbuilt, hquiet⟩ := after_build e env h
      rw [hbuilt]
      exact .of_quiet hh hx.alive hquiet
    | call c => exact .of_quiet hh hx.alive (.refl h)
  | model m =>
    cases d with
    | method c => exact .of_quiet hh hx.alive (.refl h)
    | build env => exact .of_quiet hh hx.alive (.refl h)
    | call c =>
      by_cases hc : c = .free
      · subst hc
        exact m.exchange_free hh hx.alive
      · exact (Call.exchanges hc m h hh hx.alive).exchange

/-- A deed leaves a member in order. -/
theorem Orderly.after (d : Deed) (hx : x.Orderly h) (hh : h.Orderly) :
    ((x.after d).run h).1.Orderly ((x.after d).run h).2 := by
  refine ⟨fun k hk => (exchange_after d hx hh).new_alive hk, fun hfreed => ?_⟩
  cases x with
  | engine e =>
    cases d with
    | method c => exact hfreed.elim
    | build env =>
      obtain ⟨m, rfl, hm, hbuilt, -⟩ := after_build e env h
      rw [hbuilt] at hfreed
      exact absurd hfreed hm
    | call c => exact hfreed.elim
  | model m =>
    cases d with
    | method c => exact hx.freed hfreed
    | build env => exact hx.freed hfreed
    | call c =>
      by_cases hm : m.state = .freed
      · rw [after_freed hm]
        exact hx.freed hm
      by_cases hc : c = .free
      · subst hc
        exact congrArg Engine.keeper (Model.free_gives_up hm h).1
      · exact absurd ((Call.exchanges hc m h hh hx.alive).freed hfreed) hm

/-- What a member keeps after a deed is the instance of a solve that has run to completion; or the
deed was no such solve, and the member kept the instance before. -/
theorem kept_after (hk : ((x.after d).run h).1.core.keeper = some k) :
    d.Completes x h k ∨ x.core.keeper = some k ∧ ∀ j, ¬d.Completes x h j := by
  cases x with
  | engine e =>
    cases d with
    | method c => exact Engine.Method.kept hk
    | build env =>
      obtain ⟨m, rfl, -, hbuilt, -⟩ := after_build e env h
      rw [hbuilt] at hk
      exact .inr ⟨hk, fun _ => not_false⟩
    | call c => exact .inr ⟨hk, fun _ => not_false⟩
  | model m =>
    cases d with
    | call c => exact Call.kept hk
    | method c => exact .inr ⟨hk, fun _ => not_false⟩
    | build env => exact .inr ⟨hk, fun _ => not_false⟩

/-- A member that is freed keeps nothing. -/
theorem keeper_of_frees (hx : x.Orderly h) (hd : d.Frees x) :
    ((x.after d).run h).1.core.keeper = none := by
  cases x with
  | engine e =>
    cases d with
    | method c =>
      obtain rfl : c = .free := hd
      exact Engine.Method.keeper_free e h
    | build env => exact hd.elim
    | call c => exact hd.elim
  | model m =>
    cases d with
    | call c =>
      obtain rfl : c = .free := hd
      by_cases hm : m.state = .freed
      · rw [after_freed hm]
        exact hx.freed hm
      · exact congrArg Engine.keeper (Model.free_gives_up hm h).1
    | method c => exact hd.elim
    | build env => exact hd.elim

/-- A member that is dropped leaves no instance. -/
theorem exchange_drop (hx : x.Orderly h) (hh : h.Orderly) :
    Exchange x.core.keeper none h (x.drop.run h).2 := by
  have hrelease (e : Engine) {h : Host σ} (hh : h.Orderly)
      (hold : ∀ k, e.keeper = some k → h.Alive k) :
      Exchange e.keeper none h (Engine.free.run e h).2 := by
    have hx := Engine.exchanges_releaseKeeper e h hh hold
    rw [Engine.run_releaseKeeper] at hx
    rw [Engine.free, Engine.run_releaseKeeper]
    exact hx
  cases x with
  | engine e => exact hrelease e hh hx.alive
  | model m =>
    have hfree := m.exchange_free hh hx.alive
    exact hfree.trans hh (hrelease _ hfree.orderly fun _ => hfree.new_alive)

end Member

/-! ## Fleets -/

/-- Members, or nothing in the places of those that were dropped, and the host that they share. -/
structure Fleet (σ : Type) where
  members : List (Option Member)
  host : Host σ

namespace Fleet

/-- What happens to a fleet. -/
inductive Event (σ : Type) where
  /-- An engine is made, with any store and without an instance. -/
  | make (e : Engine)
  /-- Something is done with a member. -/
  | work (i : ℕ) (d : Member.Deed)
  /-- A member is copied, for an environment or for none. -/
  | copy (i : ℕ) (env : Option ℕ)
  /-- A member goes out of use. -/
  | drop (i : ℕ)
  /-- The host becomes another one, but for the instances that were created and the record of what
  was asked. -/
  | meanwhile (h : Host σ)

/-- The member that an event works with. -/
def Event.subject? : Event σ → Option ℕ
  | work i _ | drop i => some i
  | make _ | copy .. | meanwhile _ => none

/-- The member at an index, unless it was dropped. -/
def member? (w : Fleet σ) (i : ℕ) : Option Member := w.members[i]?.join

/-- The instance that a member keeps. -/
def keeper? (w : Fleet σ) (i : ℕ) : Option InstanceId := (w.member? i).bind (·.core.keeper)

/-- Another member comes in, with what becomes of the host by that. -/
def push (w : Fleet σ) (x? : Option Member) (host : Host σ) : Fleet σ :=
  ⟨w.members ++ [x?], host⟩

/-- A member is replaced, with what becomes of the host by that. -/
def replace (w : Fleet σ) (i : ℕ) (x? : Option Member) (host : Host σ) : Fleet σ :=
  ⟨w.members.set i x?, host⟩

/-- There are no members, and nothing was asked. -/
def start (h : Host σ) : Fleet σ := ⟨[], { h with requests := #[] }⟩

variable [Solver σ] {w w' : Fleet σ} {h : Host σ} {i j : ℕ} {k : InstanceId}

/-- The fleet after an event. One about a member that is not there has no effect, and the copy that
a model refuses is as good as dropped. -/
def after (w : Fleet σ) : Event σ → Fleet σ
  | .make e => w.push (some (.engine { e with keeper := none })) w.host
  | .work i d =>
    match w.member? i with
    | none => w
    | some x => w.replace i (some ((x.after d).run w.host).1) ((x.after d).run w.host).2
  | .copy i env =>
    match w.member? i with
    | none => w
    | some x => w.push ((x.duplicate env).run w.host).1 ((x.duplicate env).run w.host).2
  | .drop i =>
    match w.member? i with
    | none => w
    | some x => w.replace i none (x.drop.run w.host).2
  | .meanwhile h =>
    { w with host := { h with instances := w.host.instances, requests := w.host.requests } }

/-- The fleet that events have made on a host. -/
def of (h : Host σ) (events : List (Event σ)) : Fleet σ := events.foldl after (start h)

@[simp] theorem of_concat (h : Host σ) (events : List (Event σ)) (e : Event σ) :
    of h (events ++ [e]) = (of h events).after e := List.foldl_concat ..

/-- An event creates an instance. -/
def Creates (w : Fleet σ) (e : Event σ) (k : InstanceId) : Prop :=
  .create k ∈ (w.after e).host.log ∧ .create k ∉ w.host.log

/-- An event is a solve of a member that runs to completion, with an instance. -/
def Completes (w : Fleet σ) (e : Event σ) (i : ℕ) (k : InstanceId) : Prop :=
  ∃ d x, e = .work i d ∧ w.member? i = some x ∧ d.Completes x w.host k

/-- An event frees or drops a member. -/
def Frees (w : Fleet σ) (e : Event σ) (i : ℕ) : Prop :=
  e = .drop i ∨ ∃ d x, e = .work i d ∧ w.member? i = some x ∧ d.Frees x

section

variable {d : Member.Deed} {x : Member} (hi : w.member? i = some x)

include hi

/-- A deed is a solve of a member that runs to completion. -/
theorem completes_work : w.Completes (.work i d) i k ↔ d.Completes x w.host k := by
  constructor
  · rintro ⟨d', x', hd, hx, hcompletes⟩
    cases hd
    cases hi.symm.trans hx
    exact hcompletes
  · exact fun h => ⟨d, x, rfl, hi, h⟩

end

/-! ## What one event does -/

omit [Solver σ] in
/-- The members after another has come in. -/
theorem member?_push (w : Fleet σ) (x? : Option Member) (h : Host σ) (j : ℕ) :
    (w.push x? h).member? j = if j = w.members.length then x? else w.member? j := by
  rw [member?, push, List.getElem?_append, member?]
  obtain hlt | rfl | hgt := Nat.lt_trichotomy j w.members.length
  · rw [if_pos hlt, if_neg (Nat.ne_of_lt hlt)]
  · simp
  · rw [if_neg (Nat.not_lt.2 hgt.le), if_neg (Nat.ne_of_gt hgt), List.getElem?_eq_none hgt.le,
      List.getElem?_eq_none (by simp; omega)]

omit [Solver σ] in
/-- The members after one was replaced. -/
theorem member?_replace {x : Member} (hi : w.member? i = some x) (x? : Option Member) (h : Host σ)
    (j : ℕ) : (w.replace i x? h).member? j = if j = i then x? else w.member? j := by
  obtain ⟨hlt, -⟩ := List.getElem?_eq_some_iff.1 (Option.join_eq_some_iff.1 hi)
  rw [member?, replace, List.getElem?_set, member?]
  by_cases hj : j = i
  · simp [hj, hlt]
  · rw [if_neg (Ne.symm hj), if_neg hj]

omit [Solver σ] in
/-- There is no member yet in the next place. -/
theorem member?_length (w : Fleet σ) : w.member? w.members.length = none := by
  rw [member?, List.getElem?_eq_none le_rfl]
  rfl

/-- One member exchanges its instance, and the others stay as they are. -/
structure Step (w w' : Fleet σ) (i : ℕ) : Prop where
  exchange : Exchange (w.keeper? i) (w'.keeper? i) w.host w'.host
  freed : ∀ x, w'.member? i = some x → x.Freed → x.core.keeper = none
  others : ∀ j, j ≠ i → w'.member? j = w.member? j

/-- The instances that are alive are those that members keep, each kept by one, and a member that is
freed keeps none. -/
structure Tidy (w : Fleet σ) : Prop where
  host : w.host.Orderly
  alive : ∀ k, w.host.Alive k ↔ ∃ i, w.keeper? i = some k
  unique : ∀ i j k, w.keeper? i = some k → w.keeper? j = some k → i = j
  freed : ∀ i x, w.member? i = some x → x.Freed → x.core.keeper = none

omit [Solver σ] in
/-- There is nothing to keep to begin with. -/
theorem tidy_start (h : Host σ) : (start h).Tidy where
  host := ⟨Request.sound_nil, fun _ hr => nomatch hr⟩
  alive _ := ⟨fun hk => (nomatch hk.1), fun ⟨_, hi⟩ => (nomatch hi)⟩
  unique _ _ _ hi := nomatch hi
  freed _ _ hi := nomatch hi

omit [Solver σ] in
/-- The keepers of the members that stay as they are. -/
theorem Step.keeper?_eq (hs : Step w w' i) (hj : j ≠ i) : w'.keeper? j = w.keeper? j := by
  rw [keeper?, hs.others j hj, keeper?]

omit [Solver σ] in
/-- An exchange of one member leaves a tidy fleet. -/
theorem Tidy.step (hw : w.Tidy) (hs : Step w w' i) : w'.Tidy := by
  -- What the member keeps newly was not there before, so no other one keeps it.
  have hnew (j : ℕ) (k : InstanceId) (hj : j ≠ i) (hi : w'.keeper? i = some k) :
      w.keeper? j ≠ some k := fun hk => by
    obtain hold | hlate := hs.exchange.fresh k hi
    · exact hj (hw.unique j i k hk hold)
    · exact Nat.not_lt.2 hlate (hw.host.lt ((hw.alive k).2 ⟨j, hk⟩))
  refine ⟨hs.exchange.orderly, fun k => ?_, fun a b k ha hb => ?_, fun j x hx hfreed => ?_⟩
  · rw [hs.exchange.alive, hw.alive]
    constructor
    · rintro (⟨⟨j, hj⟩, hne⟩ | hi)
      · have hji : j ≠ i := by
          rintro rfl
          exact hne hj
        exact ⟨j, (hs.keeper?_eq hji).trans hj⟩
      · exact ⟨i, hi⟩
    · rintro ⟨j, hj⟩
      by_cases hji : j = i
      · exact .inr (hji ▸ hj)
      · rw [hs.keeper?_eq hji] at hj
        exact .inl ⟨⟨j, hj⟩, fun hi => hji (hw.unique j i k hj hi)⟩
  · by_cases hai : a = i <;> by_cases hbi : b = i
    · rw [hai, hbi]
    · subst hai
      exact absurd ((hs.keeper?_eq hbi).symm.trans hb) (hnew b k hbi ha)
    · subst hbi
      exact absurd ((hs.keeper?_eq hai).symm.trans ha) (hnew a k hai hb)
    · rw [hs.keeper?_eq hai] at ha
      rw [hs.keeper?_eq hbi] at hb
      exact hw.unique a b k ha hb
  · by_cases hji : j = i
    · exact hs.freed x (hji ▸ hx) hfreed
    · exact hw.freed j x ((hs.others j hji).symm.trans hx) hfreed

omit [Solver σ] in
/-- The members of a tidy fleet are in order. -/
theorem Tidy.member (hw : w.Tidy) {x : Member} (hi : w.member? i = some x) :
    x.Orderly w.host where
  alive k hk := (hw.alive k).2 ⟨i, by rw [keeper?, hi]; exact hk⟩
  freed := hw.freed i x hi

omit [Solver σ] in
/-- The host changes, or nothing does, and nothing is asked. -/
theorem Tidy.step_host (hw : w.Tidy) {h : Host σ} (hquiet : w.host.Quiet h) (i : ℕ) :
    Step w { w with host := h } i where
  exchange := .of_quiet hw.host (fun k hk => (hw.alive k).2 ⟨i, hk⟩) hquiet
  freed := hw.freed i
  others _ _ := rfl

omit [Solver σ] in
/-- A member comes in that keeps nothing. -/
theorem Tidy.step_push (hw : w.Tidy) {x? : Option Member} {h : Host σ}
    (hquiet : w.host.Quiet h) (hx : ∀ x, x? = some x → x.core.keeper = none) :
    Step w (w.push x? h) w.members.length ∧
      (w.push x? h).keeper? w.members.length = none := by
  have hnew : (w.push x? h).member? w.members.length = x? := by rw [member?_push, if_pos rfl]
  have hnone : (w.push x? h).keeper? w.members.length = none := by
    rw [keeper?, hnew]
    exact Option.bind_eq_none_iff.2 hx
  refine ⟨⟨?_, fun x hi _ => hx x (hnew.symm.trans hi), fun j hj => ?_⟩, hnone⟩
  · rw [hnone, keeper?, member?_length]
    exact .of_quiet hw.host nofun hquiet
  · rw [member?_push, if_neg hj]

omit [Solver σ] in
/-- A member is replaced by what has exchanged its instance. -/
theorem step_replace {x : Member} (hi : w.member? i = some x) (x? : Option Member) {h : Host σ}
    (hx : Exchange x.core.keeper (x?.bind (·.core.keeper)) w.host h)
    (hfreed : ∀ x', x? = some x' → x'.Freed → x'.core.keeper = none) :
    Step w (w.replace i x? h) i := by
  have hnew : (w.replace i x? h).member? i = x? := by rw [member?_replace hi, if_pos rfl]
  refine ⟨?_, fun x' hx' => hfreed x' (hnew.symm.trans hx'), fun j hj => ?_⟩
  · rw [keeper?, hi, keeper?, hnew]
    exact hx
  · rw [member?_replace hi, if_neg hj]

/-- Every event is an exchange of one member: the one that it works with, or one that keeps nothing
then. -/
theorem step_after (hw : w.Tidy) (e : Event σ) : ∃ i, Step w (w.after e) i ∧
    (e.subject? = some i ∨ (w.after e).keeper? i = none) := by
  cases e with
  | make e =>
    have hnew (x : Member) (hx : some (.engine { e with keeper := none }) = some x) :
        x.core.keeper = none := by cases hx; rfl
    obtain ⟨hs, hkeeper⟩ := hw.step_push (.refl _) hnew
    exact ⟨_, hs, .inr hkeeper⟩
  | work i d =>
    rw [after]
    cases hi : w.member? i with
    | none => exact ⟨i, hw.step_host (.refl _) i, .inl rfl⟩
    | some x =>
      refine ⟨i, step_replace hi _ (Member.exchange_after d (hw.member hi) hw.host) ?_, .inl rfl⟩
      rintro x' ⟨⟩
      exact ((hw.member hi).after d hw.host).freed
  | copy i env =>
    rw [after]
    cases hi : w.member? i with
    | none =>
      have hnone : w.keeper? i = none := by rw [keeper?, hi]; rfl
      exact ⟨i, hw.step_host (.refl _) i, .inr hnone⟩
    | some x =>
      obtain ⟨hquiet, hcopy⟩ := x.run_duplicate env w.host
      obtain ⟨hs, hkeeper⟩ := hw.step_push hquiet fun x' hx' => (hcopy x' hx').1
      exact ⟨_, hs, .inr hkeeper⟩
  | drop i =>
    rw [after]
    cases hi : w.member? i with
    | none => exact ⟨i, hw.step_host (.refl _) i, .inl rfl⟩
    | some x =>
      have hx := Member.exchange_drop (hw.member hi) hw.host
      exact ⟨i, step_replace hi none hx fun _ hnone => (nomatch hnone), .inl rfl⟩
  | meanwhile h =>
    have hnone : w.keeper? w.members.length = none := by rw [keeper?, member?_length]; rfl
    let h' : Host σ := { h with instances := w.host.instances, requests := w.host.requests }
    have hquiet : w.host.Quiet h' := ⟨rfl, rfl⟩
    exact ⟨w.members.length, hw.step_host hquiet _, .inr hnone⟩

/-- Every event leaves a tidy fleet. -/
theorem Tidy.after (hw : w.Tidy) (e : Event σ) : (w.after e).Tidy := by
  obtain ⟨i, hs, -⟩ := step_after hw e
  exact hw.step hs

/-- An event leaves the record as it is, or goes on with it. -/
theorem log_after (hw : w.Tidy) (e : Event σ) : w.host.log <+: (w.after e).host.log := by
  obtain ⟨i, hs, -⟩ := step_after hw e
  exact hs.exchange.log

/-- What a member keeps it has kept before, or the event has worked with it and created that. -/
theorem created_after (hw : w.Tidy) {e : Event σ} (hk : (w.after e).keeper? i = some k) :
    w.keeper? i = some k ∨ e.subject? = some i ∧ w.Creates e k := by
  obtain ⟨j, hs, hsubject⟩ := step_after hw e
  by_cases hij : i = j
  · subst hij
    obtain hsubject | hnone := hsubject
    · obtain hold | hlate := hs.exchange.fresh k hk
      · exact .inl hold
      · have hnever : .create k ∉ w.host.log := fun hmem =>
          Nat.not_lt.2 hlate (hw.host.target _ hmem)
        exact .inr ⟨hsubject, (hs.exchange.new_alive hk).1, hnever⟩
    · cases hnone.symm.trans hk
  · rw [hs.keeper?_eq hij] at hk
    exact .inl hk

/-- A member that is freed or dropped keeps nothing. -/
theorem keeper?_of_frees (hw : w.Tidy) {e : Event σ} (he : w.Frees e i) :
    (w.after e).keeper? i = none := by
  obtain rfl | ⟨d, x, rfl, hi, hd⟩ := he
  · rw [after]
    cases hi : w.member? i with
    | none => rw [keeper?, hi]; rfl
    | some x => rw [keeper?, member?_replace hi, if_pos rfl]; rfl
  · rw [after, hi]
    dsimp only
    rw [keeper?, member?_replace hi, if_pos rfl]
    exact Member.keeper_of_frees (hw.member hi) hd

/-- What a member keeps is the instance of its solve that has run to completion; or the event was no
such solve, and the member kept the instance before. -/
theorem kept_after (hw : w.Tidy) {e : Event σ} (hk : (w.after e).keeper? i = some k) :
    w.Completes e i k ∨ w.keeper? i = some k ∧ ∀ j, ¬w.Completes e i j := by
  by_cases hsubject : ∃ d, e = .work i d
  · obtain ⟨d, rfl⟩ := hsubject
    rw [after] at hk
    cases hi : w.member? i with
    | none =>
      rw [hi] at hk
      dsimp only at hk
      rw [keeper?, hi] at hk
      cases hk
    | some x =>
      rw [hi] at hk
      dsimp only at hk
      rw [keeper?, member?_replace hi, if_pos rfl] at hk
      simp only [completes_work hi, keeper?, hi]
      exact Member.kept_after hk
  · -- Nothing is done with the member, unless it is dropped.
    obtain hold | ⟨hdrop, -⟩ := created_after hw hk
    · exact .inr ⟨hold, fun j ⟨d, _, he, _⟩ => hsubject ⟨d, he⟩⟩
    · cases e with
      | work j d =>
        cases hdrop
        exact absurd ⟨d, rfl⟩ hsubject
      | drop j =>
        cases hdrop
        cases (keeper?_of_frees hw (.inl rfl)).symm.trans hk
      | make | copy | meanwhile => cases hdrop

/-! ## Runs of events -/

/-- Events leave a tidy fleet. -/
theorem tidy_of (h : Host σ) (events : List (Event σ)) : (of h events).Tidy := by
  induction events using List.reverseRecOn with
  | nil => exact tidy_start h
  | append_singleton events e ih =>
    rw [of_concat]
    exact ih.after e

/-- What was asked in the course of events was asked before those that follow. -/
theorem log_of_append (h : Host σ) (events rest : List (Event σ)) :
    (of h events).host.log <+: (of h (events ++ rest)).host.log := by
  induction rest using List.reverseRecOn with
  | nil => rw [List.append_nil]
  | append_singleton rest e ih =>
    rw [← List.append_assoc, of_concat]
    exact ih.trans (log_after (tidy_of h _) e)

/-- An instance was created by one of several events, and for a member. -/
def CreatedFor (h : Host σ) (events : List (Event σ)) (i : ℕ) (k : InstanceId) : Prop :=
  ∃ done e rest, events = done ++ e :: rest ∧ e.subject? = some i ∧ (of h done).Creates e k

/-- An instance is left by the last one of several events that was a solve of a member and ran to
completion, and the member was not freed since. -/
def LeftBySolve (h : Host σ) (events : List (Event σ)) (i : ℕ) (k : InstanceId) : Prop :=
  ∃ done e rest, events = done ++ e :: rest ∧ (of h done).Completes e i k ∧
    ∀ mid e' rest', rest = mid ++ e' :: rest' → (∀ j, ¬(of h (done ++ e :: mid)).Completes e' i j) ∧
      ¬(of h (done ++ e :: mid)).Frees e' i

/-- An instance is created once, and so for one member. -/
theorem CreatedFor.unique {events : List (Event σ)} (hi : CreatedFor h events i k)
    (hj : CreatedFor h events j k) : i = j := by
  obtain ⟨done, e, rest, hsplit, hsubject, hcreates⟩ := hi
  obtain ⟨done', e', rest', hsplit', hsubject', hcreates'⟩ := hj
  -- What one event creates is there already when a later one comes.
  have hlater {done done' : List (Event σ)} {e e' : Event σ} {mid : List (Event σ)}
      (hdone : done' = done ++ e :: mid) (h₁ : (of h done).Creates e k)
      (h₂ : (of h done').Creates e' k) : False := by
    rw [hdone] at h₂
    have hmem := h₁.1
    rw [← of_concat] at hmem
    have hlog := log_of_append h (done ++ [e]) mid
    rw [List.append_assoc] at hlog
    exact h₂.2 (hlog.subset hmem)
  obtain ⟨mid, hmid, hrest⟩ | ⟨mid, hmid, hrest⟩ :=
    List.append_eq_append_iff.1 (hsplit.symm.trans hsplit')
  · cases mid with
    | nil =>
      cases hrest
      exact Option.some.inj (hsubject.symm.trans hsubject')
    | cons e₁ mid =>
      cases hrest
      exact (hlater hmid hcreates hcreates').elim
  · cases mid with
    | nil =>
      cases hrest
      exact Option.some.inj (hsubject.symm.trans hsubject')
    | cons e₁ mid =>
      cases hrest
      exact (hlater hmid hcreates' hcreates).elim

/-- What a member keeps was created for it. -/
theorem createdFor_of_keeper {events : List (Event σ)} (hk : (of h events).keeper? i = some k) :
    CreatedFor h events i k := by
  induction events using List.reverseRecOn with
  | nil => cases hk
  | append_singleton events e ih =>
    rw [of_concat] at hk
    obtain hold | ⟨hsubject, hcreates⟩ := created_after (tidy_of h events) hk
    · obtain ⟨done, e', rest, rfl, hcreated⟩ := ih hold
      exact ⟨done, e', rest ++ [e], by simp, hcreated⟩
    · exact ⟨events, e, [], rfl, hsubject, hcreates⟩

/-- What a member keeps was left by its last solve. -/
theorem leftBySolve_of_keeper {events : List (Event σ)} (hk : (of h events).keeper? i = some k) :
    LeftBySolve h events i k := by
  induction events using List.reverseRecOn with
  | nil => cases hk
  | append_singleton events e ih =>
    rw [of_concat] at hk
    obtain hnew | ⟨hold, hnever⟩ := kept_after (tidy_of h events) hk
    · exact ⟨events, e, [], rfl, hnew, fun mid e' rest' hsplit => by simp at hsplit⟩
    · have hfrees : ¬(of h events).Frees e i := fun he =>
        nomatch (keeper?_of_frees (tidy_of h events) he).symm.trans hk
      obtain ⟨done, e', rest, rfl, hcompletes, hsince⟩ := ih hold
      refine ⟨done, e', rest ++ [e], by simp, hcompletes, fun mid e'' rest' hsplit => ?_⟩
      obtain rfl | ⟨rest', last, rfl⟩ := List.eq_nil_or_concat rest'
      · obtain ⟨rfl, hlast⟩ := List.append_inj' hsplit rfl
        cases hlast
        exact ⟨hnever, hfrees⟩
      · rw [List.concat_eq_append, ← List.cons_append, ← List.append_assoc] at hsplit
        exact hsince mid e'' rest' (List.append_inj' hsplit rfl).1

/-! ## Main theorem -/

/-- The instances that events have created are accounted for. -/
structure AccountsFor (h : Host σ) (events : List (Event σ)) : Prop where
  /-- Every instance is created once, and whatever else is asked is asked of an instance that was
  created before and not destroyed. -/
  sound : Request.Sound (of h events).host.log
  /-- An instance is destroyed once, and nothing is asked of it afterwards. -/
  destroyed : ∀ before k rest, (of h events).host.log = before ++ .destroy k :: rest →
    ∀ r ∈ rest, r.target ≠ k
  /-- An instance that is alive was created for a member. -/
  owned : ∀ k, (of h events).host.Alive k → ∃ i, CreatedFor h events i k
  /-- There is at most one for each member. -/
  one : ∀ i j k, CreatedFor h events i j → CreatedFor h events i k →
    (of h events).host.Alive j → (of h events).host.Alive k → j = k
  /-- It is the one that the member keeps. It was left by the last solve of the member that ran to
  completion, and the member was not freed since. -/
  kept : ∀ i k, CreatedFor h events i k → (of h events).host.Alive k →
    (of h events).keeper? i = some k ∧ LeftBySolve h events i k
  /-- No instance of a member is alive that was dropped, or that is a model and was freed. -/
  gone : ∀ i k, CreatedFor h events i k →
    (∀ x, (of h events).member? i = some x → x.Freed) → ¬(of h events).host.Alive k
  /-- No instance of a member is alive once it was freed or dropped by the last event. -/
  freed : ∀ done e i k, events = done ++ [e] → (of h done).Frees e i →
    CreatedFor h events i k → ¬(of h events).host.Alive k

/-- Whatever is done with any number of engines and models, on any host and whatever the library
answers, no instance is leaked, used when it is not there, or destroyed twice. -/
theorem instances_are_accounted_for (h : Host σ) (events : List (Event σ)) :
    AccountsFor h events := by
  have hw := tidy_of h events
  -- What is alive is kept by some member, and by the one for which it was created.
  have hkept (i : ℕ) (k : InstanceId) (hi : CreatedFor h events i k)
      (hk : (of h events).host.Alive k) : (of h events).keeper? i = some k := by
    obtain ⟨j, hj⟩ := (hw.alive k).1 hk
    rw [hi.unique (createdFor_of_keeper hj)]
    exact hj
  refine ⟨hw.host.sound, fun before k rest hsplit r hr => hw.host.sound.target_ne hsplit hr,
    fun k hk => ?_, fun i j k hi hi' hj hk => ?_,
    fun i k hi hk => ⟨hkept i k hi hk, leftBySolve_of_keeper (hkept i k hi hk)⟩,
    fun i k hi hgone hk => ?_, fun done e i k hlast hfrees hi hk => ?_⟩
  · obtain ⟨i, hi⟩ := (hw.alive k).1 hk
    exact ⟨i, createdFor_of_keeper hi⟩
  · exact Option.some.inj ((hkept i j hi hj).symm.trans (hkept i k hi' hk))
  · obtain ⟨x, hx, hkeeper⟩ := Option.bind_eq_some_iff.1 (hkept i k hi hk)
    cases (hw.freed i x hx (hgone x hx)).symm.trans hkeeper
  · have hkeeper := hkept i k hi hk
    rw [hlast, of_concat, keeper?_of_frees (tidy_of h done) hfrees] at hkeeper
    cases hkeeper

/-- An engine solves, and a model is built around it and copied. Then both models solve and the copy
is dropped: of three instances the last one of the first model is left. -/
example :
    let w := of { solver := {} } ([.make (.empty .solver false none), .work 0 (.method .solveProb),
      .work 0 (.build none), .copy 0 none, .work 1 (.call .solveProb), .work 0 (.call .solveProb),
      .drop 1] : List (Event ScriptedSolver))
    w.host.instances = 3 ∧ w.keeper? 0 = some 2 ∧ w.keeper? 1 = none := by
  decide +kernel

end Fleet

end MathProgram

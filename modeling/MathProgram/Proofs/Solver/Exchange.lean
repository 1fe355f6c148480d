import Mathlib.Data.Nat.Notation
import Mathlib.Tactic.Tauto
import MathProgram.Proofs.Basic
import MathProgram.Proofs.Solver.Run

/-!
# Exchanging instances

The host records what is asked of the library. The record is `Request.Sound` if every instance is
created once and everything else is asked of an instance that is alive, which is one that was
created and not destroyed. What a computation does to instances is said by `Exchange old new`: it
takes over the instance `old` if there is one, leaves `new`, and whatever else is alive then was
alive before.
`HostM.Trades` says this of a computation on the host, whose result may be the instance it leaves,
and `SolverM.Trades` of one that may fail.
-/

namespace MathProgram

variable {σ α β : Type}

/-! ## The record of requests -/

namespace Request

/-- The instance that is created, destroyed or asked. -/
def target : Request → InstanceId
  | create h | destroy h | setOption h _ _ | passProgram h _ | passHessian h _ | passColName h _ _
  | passRowName h _ _ | run h | modelStatus h | objective h | runTime h | intInfo h _
  | realInfo h _ | solution h | basis h | readModel h _ | writeModel h _ | writeSolution h _
  | numCols h | numRows h | numNonzeros h | program h | colName h _ | rowName h _ => h

/-- An instance is asked that is there. -/
def Asks (k : InstanceId) : Request → Prop
  | create _ | destroy _ => False
  | r => r.target = k

/-- An instance was created and not destroyed. -/
def Alive (rs : List Request) (k : InstanceId) : Prop := create k ∈ rs ∧ destroy k ∉ rs

/-- What may be asked after other requests: an instance is created once, and anything else is asked
of one that is alive. -/
def Proper (rs : List Request) : Request → Prop
  | create k => create k ∉ rs
  | r => Alive rs r.target

/-- Every request may be made after those before it. -/
def Sound (rs : List Request) : Prop :=
  ∀ before r rest, rs = before ++ r :: rest → Proper before r

variable {rs : List Request} {r : Request} {j k : InstanceId}

/-- Nothing was asked. -/
theorem sound_nil : Sound [] := fun before r rest h => by simp at h

/-- One more request. -/
theorem sound_concat (h : Sound rs) (hr : Proper rs r) : Sound (rs ++ [r]) := by
  intro before r' rest hsplit
  obtain rfl | ⟨rest, r'', rfl⟩ := List.eq_nil_or_concat rest
  · obtain ⟨rfl, hlast⟩ := List.append_inj' hsplit rfl
    cases hlast
    exact hr
  · rw [List.concat_eq_append, ← List.cons_append, ← List.append_assoc] at hsplit
    exact h before r' rest (List.append_inj' hsplit rfl).1

/-- Once an instance is destroyed it is the target of no request. -/
theorem Sound.target_ne (h : Sound rs) {before rest : List Request}
    (hsplit : rs = before ++ destroy k :: rest) (hr : r ∈ rest) : r.target ≠ k := by
  rintro rfl
  obtain ⟨mid, rest, rfl⟩ := List.append_of_mem hr
  have hcreated : create r.target ∈ before := (h before _ _ hsplit).1
  have hproper : Proper (before ++ destroy r.target :: mid) r := h _ r rest (by simp [hsplit])
  cases r with
  | create k => exact hproper (List.mem_append_left _ hcreated)
  | _ => exact hproper.2 (List.mem_append_right _ List.mem_cons_self)

/-- A request to an instance that is there may be made if it is alive. -/
theorem Asks.proper (hr : r.Asks k) (hk : Alive rs k) : Proper rs r := by
  cases r <;> first | exact hr.elim | (obtain rfl := hr; exact hk)

/-- A request to an instance that is there is about it. -/
theorem Asks.target_eq (hr : r.Asks k) : r.target = k := by
  cases r <;> first | exact hr.elim | exact hr

/-- A request to an instance that is there changes nothing about what is alive. -/
theorem Asks.alive_concat (hr : r.Asks k) : Alive (rs ++ [r]) j ↔ Alive rs j := by
  have hcreate : create j ≠ r := by rintro rfl; exact hr
  have hdestroy : destroy j ≠ r := by rintro rfl; exact hr
  simp [Alive, hcreate, hdestroy]

/-- Creating an instance that was never asked for. -/
theorem alive_concat_create (hk : ∀ r ∈ rs, r.target ≠ k) :
    Alive (rs ++ [create k]) j ↔ Alive rs j ∨ j = k := by
  have hnever : destroy k ∉ rs := fun hmem => hk _ hmem rfl
  simp only [Alive, List.mem_append, List.mem_singleton, create.injEq, reduceCtorEq, or_false]
  constructor
  · rintro ⟨hold | rfl, hdestroy⟩
    · exact .inl ⟨hold, hdestroy⟩
    · exact .inr rfl
  · rintro (⟨hold, hdestroy⟩ | rfl)
    · exact ⟨.inl hold, hdestroy⟩
    · exact ⟨.inr rfl, hnever⟩

/-- Destroying an instance. -/
theorem alive_concat_destroy : Alive (rs ++ [destroy k]) j ↔ Alive rs j ∧ j ≠ k := by
  simp only [Alive, List.mem_append, List.mem_singleton, destroy.injEq, reduceCtorEq, or_false,
    not_or, and_assoc]

end Request

namespace Host

/-- What was asked of the library, in order. -/
def log (h : Host σ) : List Request := h.requests.toList

/-- An instance is alive on a host. -/
def Alive (h : Host σ) (k : InstanceId) : Prop := Request.Alive h.log k

/-- The record is sound, and is about instances that were created. -/
structure Orderly (h : Host σ) : Prop where
  sound : Request.Sound h.log
  target : ∀ r ∈ h.log, r.target < h.instances

/-- What is alive was created. -/
theorem Orderly.lt {h : Host σ} (hh : h.Orderly) {k : InstanceId} (hk : h.Alive k) :
    k < h.instances := hh.target _ hk.1

/-- Nothing was asked of the library between two hosts. -/
structure Quiet (h h' : Host σ) : Prop where
  requests : h'.requests = h.requests
  instances : h'.instances = h.instances

namespace Quiet

variable {h h' h'' : Host σ}

/-- Nothing was done. -/
theorem refl (h : Host σ) : Quiet h h := ⟨rfl, rfl⟩

/-- One thing after another. -/
theorem trans (h₁ : Quiet h h') (h₂ : Quiet h' h'') : Quiet h h'' :=
  ⟨h₂.requests.trans h₁.requests, h₂.instances.trans h₁.instances⟩

end Quiet

end Host

/-! ## Computations that ask nothing -/

namespace HostM

/-- A computation asks nothing of the library. -/
def Quiet (act : HostM σ α) : Prop := ∀ h, Host.Quiet h (act.run h).2

namespace Quiet

/-- Giving a value. -/
theorem pure (a : α) : Quiet (Pure.pure a : HostM σ α) := fun h => .refl h

/-- Looking at the host. -/
theorem get : Quiet (MonadState.get : HostM σ (Host σ)) := fun h => .refl h

/-- One computation after another. -/
theorem bind {act : HostM σ α} {next : α → HostM σ β} (hact : Quiet act)
    (hnext : ∀ a, Quiet (next a)) : Quiet (act >>= next) := fun h =>
  (hact h).trans (hnext (act.run h).1 (act.run h).2)

/-- Recording an event. -/
theorem record {level : Level} {origin : Origin} {component operation message : String}
    {fields : List (String × FieldValue)} :
    Quiet (Host.record level origin component operation message fields : HostM σ Unit) :=
  fun _ => ⟨rfl, rfl⟩

/-- Changing the journal. -/
theorem writeJournal {f : Journal → Journal} : Quiet (Host.writeJournal f : HostM σ Unit) :=
  fun _ => ⟨rfl, rfl⟩

/-- Changing the files. -/
theorem modifyDisk {f : Disk → α × Disk} : Quiet (Host.modifyDisk f : HostM σ α) :=
  fun _ => ⟨rfl, rfl⟩

/-- Counting a call of an engine. -/
theorem fault? {c : EngineCall} : Quiet (Host.fault? c : HostM σ (Option Int32)) :=
  fun _ => ⟨rfl, rfl⟩

/-- Taking a prescribed outcome of a solve. -/
theorem nextSolve? : Quiet (Host.nextSolve? : HostM σ (Option SolveOutcome)) := fun h => by
  obtain ⟨solver, disk, journal, instances, requests, script, models, live⟩ := h
  obtain ⟨_ | _, _⟩ := script <;> exact ⟨rfl, rfl⟩

/-- Taking a prescribed outcome of a conflict search. -/
theorem nextConflict? : Quiet (Host.nextConflict? : HostM σ (Option IisOutcome)) := fun h => by
  obtain ⟨solver, disk, journal, instances, requests, script, models, live⟩ := h
  obtain ⟨_, _ | _, _⟩ := script <;> exact ⟨rfl, rfl⟩

/-- Writing to a log. -/
theorem log {log : LogSink} {message : String} : Quiet (log.write message : HostM σ Unit) := by
  unfold LogSink.write
  dsimp only
  cases log.file <;> cases log.callback
  -- There is neither a file nor a callback, a callback, a file, or both.
  · exact ite_of (writeJournal.bind fun _ => pure _) (pure _)
  · exact ite_of (writeJournal.bind fun _ => writeJournal) writeJournal
  · exact ite_of (writeJournal.bind fun _ => modifyDisk.bind fun _ => pure _)
      (modifyDisk.bind fun _ => pure _)
  · exact ite_of (writeJournal.bind fun _ => modifyDisk.bind fun _ => writeJournal)
      (modifyDisk.bind fun _ => writeJournal)

/-- Changing the file of a log. -/
theorem withFile {log : LogSink} {file : Option String} :
    Quiet (log.withFile file : HostM σ (Except ResultCode LogSink)) := by
  cases file with
  | none => exact pure _
  | some name => exact modifyDisk.bind fun _ => ite_of (pure _) (pure _)

end Quiet

end HostM

/-! ## Exchanging an instance -/

variable {old mid new : Option InstanceId} {h h' h'' : Host σ}

/-- The instance `old`, if there is one, has been exchanged for `new`, which is the old one or was
created since. Apart from these the same instances are alive. -/
structure Exchange (old new : Option InstanceId) (h h' : Host σ) : Prop where
  orderly : h'.Orderly
  instances : h.instances ≤ h'.instances
  log : h.log <+: h'.log
  fresh : ∀ k, new = some k → old = some k ∨ h.instances ≤ k
  alive : ∀ k, h'.Alive k ↔ (h.Alive k ∧ old ≠ some k) ∨ new = some k

namespace Exchange

/-- The instance that is left is alive. -/
theorem new_alive (hx : Exchange old new h h') {k : InstanceId} (hk : new = some k) : h'.Alive k :=
  (hx.alive k).2 (.inr hk)

/-- Where nothing is asked, nothing is exchanged. -/
theorem of_quiet (hh : h.Orderly) (hold : ∀ k, old = some k → h.Alive k) (hquiet : h.Quiet h') :
    Exchange old old h h' where
  orderly := by
    refine ⟨?_, ?_⟩
    · rw [Host.log, hquiet.requests]
      exact hh.sound
    · rw [Host.log, hquiet.requests, hquiet.instances]
      exact hh.target
  instances := Nat.le_of_eq hquiet.instances.symm
  log := by
    have hlog : h'.log = h.log := congrArg Array.toList hquiet.requests
    exact hlog ▸ List.prefix_rfl
  fresh _ hk := .inl hk
  alive k := by
    have hlog : h'.Alive k ↔ h.Alive k := by
      rw [Host.Alive, Host.log, hquiet.requests]
      rfl
    rw [hlog]
    by_cases hk : old = some k
    · simp [hk, hold k hk]
    · simp [hk]

/-- One exchange after another. -/
theorem trans (hh : h.Orderly) (hx : Exchange old mid h h') (hx' : Exchange mid new h' h'') :
    Exchange old new h h'' where
  orderly := hx'.orderly
  instances := Nat.le_trans hx.instances hx'.instances
  log := hx.log.trans hx'.log
  fresh k hk := by
    obtain hmid | hlate := hx'.fresh k hk
    · exact hx.fresh k hmid
    · exact .inr (Nat.le_trans hx.instances hlate)
  alive k := by
    rw [hx'.alive, hx.alive]
    -- What was alive and is not given up was not taken over in between.
    have hmid : h.Alive k → mid = some k → old = some k := fun hk hmid =>
      (hx.fresh k hmid).resolve_right (Nat.not_le.2 (hh.lt hk))
    tauto

/-- An exchange that leaves nothing does not affect an instance besides. -/
theorem frame (hold : ∀ k, old = some k → h.Alive k)
    (hx : Exchange none none h h') : Exchange old old h h' where
  orderly := hx.orderly
  instances := hx.instances
  log := hx.log
  fresh _ hk := .inl hk
  alive k := by
    rw [hx.alive]
    by_cases hk : old = some k
    · simp [hk, hold k hk]
    · simp [hk]

/-- An exchange while another instance is there, which was created before and is destroyed after.
-/
theorem around (hh : h.Orderly) (hold : ∀ k, old = some k → h.Alive k) {k : InstanceId}
    {h₁ h₂ h₃ : Host σ} (hopened : Exchange none (some k) h h₁) (hx : Exchange old new h₁ h₂)
    (hclosed : h₂.Alive k → Exchange (some k) none h₂ h₃) : Exchange old new h h₃ := by
  have hbegin : ∀ j, h₁.Alive j ↔ h.Alive j ∨ k = j := by simpa using hopened.alive
  have hk : h.instances ≤ k := (hopened.fresh k rfl).resolve_left nofun
  have hnever : ¬h.Alive k := fun halive => Nat.not_lt.2 hk (hh.lt halive)
  have hbesides : old ≠ some k := fun hk => hnever (hold k hk)
  -- The instance is neither taken over nor left by the exchange.
  have hend := hclosed ((hx.alive k).2 (.inl ⟨hopened.new_alive rfl, hbesides⟩))
  have hleft : new ≠ some k := fun hnew => (hx.fresh k hnew).elim hbesides fun hlate =>
    Nat.not_lt.2 hlate (hopened.orderly.lt (hopened.new_alive rfl))
  refine ⟨hend.orderly, Nat.le_trans hopened.instances (Nat.le_trans hx.instances hend.instances),
    hopened.log.trans (hx.log.trans hend.log), fun j hj => ?_, fun j => ?_⟩
  · exact (hx.fresh j hj).imp_right (Nat.le_trans hopened.instances)
  · rw [hend.alive, hx.alive, hbegin]
    by_cases hj : k = j
    · subst hj
      simp [hnever, hleft]
    · simp [hj]

variable {k : InstanceId} {r : Request}

/-- An instance is asked. -/
theorem of_asks (hr : r.Asks k) (hh : h.Orderly) (hk : h.Alive k) (hlog : h'.log = h.log ++ [r])
    (hinstances : h'.instances = h.instances) : Exchange (some k) (some k) h h' where
  orderly := by
    refine ⟨hlog ▸ Request.sound_concat hh.sound (hr.proper hk), fun r' hr' => ?_⟩
    rw [hlog, List.mem_append, List.mem_singleton] at hr'
    rw [hinstances]
    obtain hold | rfl := hr'
    · exact hh.target r' hold
    · exact hr.target_eq ▸ hh.lt hk
  instances := Nat.le_of_eq hinstances.symm
  log := hlog ▸ List.prefix_append ..
  fresh _ hk := .inl hk
  alive j := by
    have hsame : h'.Alive j ↔ h.Alive j := by
      rw [Host.Alive, hlog]
      exact hr.alive_concat
    rw [hsame, ne_eq, Option.some.injEq]
    by_cases hj : k = j
    · simp [hj, hj ▸ hk]
    · simp [hj]

/-- An instance is created. -/
theorem of_create (hh : h.Orderly) (hlog : h'.log = h.log ++ [.create h.instances])
    (hinstances : h'.instances = h.instances + 1) : Exchange none (some h.instances) h h' := by
  have hnever : ∀ r ∈ h.log, r.target ≠ h.instances := fun r hr => Nat.ne_of_lt (hh.target r hr)
  refine ⟨⟨?_, fun r hr => ?_⟩, hinstances ▸ Nat.le_succ _, hlog ▸ List.prefix_append .., ?_, ?_⟩
  · exact hlog ▸ Request.sound_concat hh.sound fun hmem => hnever _ hmem rfl
  · rw [hlog, List.mem_append, List.mem_singleton] at hr
    rw [hinstances]
    obtain hold | rfl := hr
    · exact Nat.lt_succ_of_lt (hh.target r hold)
    · exact Nat.lt_succ_self _
  · intro k hk
    exact .inr (Nat.le_of_eq (Option.some.inj hk))
  · intro k
    rw [Host.Alive, hlog, Request.alive_concat_create hnever]
    simp [Host.Alive, eq_comm]

/-- An instance is destroyed. -/
theorem of_destroy (hh : h.Orderly) (hk : h.Alive k) (hlog : h'.log = h.log ++ [.destroy k])
    (hinstances : h'.instances = h.instances) : Exchange (some k) none h h' where
  orderly := by
    refine ⟨hlog ▸ Request.sound_concat hh.sound hk, fun r hr => ?_⟩
    rw [hlog, List.mem_append, List.mem_singleton] at hr
    rw [hinstances]
    obtain hold | rfl := hr
    · exact hh.target r hold
    · exact hh.lt hk
  instances := Nat.le_of_eq hinstances.symm
  log := hlog ▸ List.prefix_append ..
  fresh _ hk := nomatch hk
  alive j := by
    rw [Host.Alive, hlog, Request.alive_concat_destroy]
    simp [Host.Alive, eq_comm]

end Exchange

/-! ## Computations on the host -/

namespace HostM

/-- A computation takes over an instance, if there is one, and leaves one that may depend on its
result. -/
def Trades (old : Option InstanceId) (new : α → Option InstanceId) (act : HostM σ α) : Prop :=
  ∀ h : Host σ, h.Orderly → (∀ k, old = some k → h.Alive k) →
    Exchange old (new (act.run h).1) h (act.run h).2

namespace Trades

variable {k : InstanceId} {a : α}

/-- A computation that asks nothing leaves the instance it has. -/
theorem of_quiet {act : HostM σ α} (hact : Quiet act) : Trades old (fun _ => old) act :=
  fun h hh hold => .of_quiet hh hold (hact h)

/-- Giving a value. -/
theorem pure {new : α → Option InstanceId} (ha : new a = old) :
    Trades old new (Pure.pure a : HostM σ α) := fun h hh hold => by
  have hx : Exchange old old h h := .of_quiet hh hold (.refl h)
  exact ha.symm ▸ hx

/-- One computation after another. -/
theorem bind {act : HostM σ α} {next : α → HostM σ β} {mid : α → Option InstanceId}
    {new : β → Option InstanceId} (hact : Trades old mid act)
    (hnext : ∀ a, Trades (mid a) new (next a)) : Trades old new (act >>= next) :=
  fun h hh hold => by
    have hx := hact h hh hold
    exact hx.trans hh (hnext _ _ hx.orderly fun _ => hx.new_alive)

/-- Composition preserves that the instance is kept. -/
theorem compositional : Compositional (m := HostM σ) (Trades old fun _ => old) :=
  ⟨fun _ => pure rfl, bind⟩

/-- A computation on every item of a list. -/
theorem forM {xs : List α} {act : α → HostM σ PUnit}
    (hact : ∀ x, Trades old (fun _ => old) (act x)) :
    Trades old (fun _ => old) (xs.forM act) := compositional.forM fun x _ => hact x

/-- A computation that leaves nothing does not affect an instance besides. -/
theorem frame {act : HostM σ α} (hact : Trades none (fun _ => none) act) :
    Trades old (fun _ => old) act := fun h hh hold => (hact h hh nofun).frame hold

end Trades

end HostM

/-! ## Computations that may fail -/

namespace SolverM

/-- The instance that is left by a result. -/
def left (new : α → Option InstanceId) (failed : Option InstanceId) :
    Except ResultCode α → Option InstanceId
  | .ok a => new a
  | .error _ => failed

/-- A computation with the library takes over an instance, if there is one. It leaves one that may
depend on its result, or another if it fails. -/
def Trades (old : Option InstanceId) (new : α → Option InstanceId) (failed : Option InstanceId)
    (act : SolverM σ α) : Prop := HostM.Trades old (left new failed) act.run

namespace Trades

variable {failed : Option InstanceId}

/-- A computation on the host does not fail. -/
theorem host {act : HostM σ α} {new : α → Option InstanceId} (hact : HostM.Trades old new act) :
    Trades old new failed (SolverM.host act) := hact

/-- Giving a value. -/
theorem pure {new : α → Option InstanceId} {a : α} (ha : new a = old) :
    Trades old new failed (Pure.pure a : SolverM σ α) := HostM.Trades.pure ha

/-- Failing. -/
theorem throw {new : α → Option InstanceId} (e : ResultCode) :
    Trades old new old (throw e : SolverM σ α) := HostM.Trades.pure rfl

/-- One computation after another, which is left out if the first fails. -/
theorem bind {act : SolverM σ α} {next : α → SolverM σ β} {mid : α → Option InstanceId}
    {new : β → Option InstanceId} (hact : Trades old mid failed act)
    (hnext : ∀ a, Trades (mid a) new failed (next a)) : Trades old new failed (act >>= next) :=
  fun h hh hold => by
    have hx : Exchange old (left mid failed (act.run h).1) h (act.run h).2 := hact h hh hold
    show Exchange old (left new failed ((act >>= next).run h).1) h ((act >>= next).run h).2
    rw [run_bind]
    rcases hrun : act.run h with ⟨e | a, h'⟩ <;> rw [hrun] at hx
    · exact hx
    · exact hx.trans hh (hnext a h' hx.orderly fun _ => hx.new_alive)

/-- A computation on every item of a list. -/
theorem mapM {xs : List α} {act : α → SolverM σ β}
    (hact : ∀ x, Trades old (fun _ => old) failed (act x)) :
    Trades old (fun _ => old) failed (xs.mapM act) := by
  have hclosed : Compositional (m := SolverM σ) (Trades old (fun _ => old) failed) :=
    ⟨fun _ => pure rfl, bind⟩
  exact hclosed.mapM fun x _ => hact x

/-- What is left in any case is left by the run. -/
theorem run {act : SolverM σ α} (hact : Trades old (fun _ => new) new act) :
    HostM.Trades old (fun _ => new) act.run := fun h hh hold => by
  have hleft (r : Except ResultCode α) : left (fun _ => new) new r = new := by cases r <;> rfl
  exact hleft (act.run h).1 ▸ hact h hh hold

end Trades

end SolverM

end MathProgram

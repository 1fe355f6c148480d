import MathProgram.Proofs.Model.Files
import MathProgram.Proofs.Model.Ranges

/-!
# Misread task files

A roster that matched the engine does so after every call, unless the call misreads a task file:
reading the file fails, and there is another number of columns or rows than before
(`Turn.Misreads`). Renewing the roster makes good for that. A call that comes to an index that is
out of range has a roster to blame that does not match, so a misread file is behind it
(`out_of_range_after_misreading`).
-/

namespace MathProgram

open ModelM Model

variable {σ : Type} {k : Kind}

/-! ## Rosters that do not match -/

namespace Model

variable {m : Model}

/-- A roster that matches is as long as there are columns or rows. -/
theorem Matches.length (hm : m.Matches k) : (m.roster k).length = m.problem.count k := by
  rw [hm, Handle.allOf_eq_issued, Handle.length_issued]
  cases k <;> rfl

/-- A handle does not overhang if the lines that cross its line have their handles. -/
theorem not_overhangs (hp : m.problem.WellFormed) (hm : m.Matches k.other) (x : Handle k) :
    ¬m.Overhangs x := by
  rintro ⟨-, e, he, hlength⟩
  rw [hm.length] at hlength
  exact absurd (hp.lines_lt (Sparse.mem_line.1 he)).2 (not_lt.2 hlength)

/-- A call that oversteps has a roster to blame that does not match. -/
theorem not_matches_of_oversteps (hp : m.problem.WellFormed) {c : Call} (hc : c.Oversteps m) :
    ¬m.Matches c.bounding := fun hm => by
  cases c with
  | col x => exact not_overhangs (k := .variable) hp hm x hc
  | exprLinear c => exact not_overhangs (k := .constraint) hp hm c hc
  | setQuadraticObjective obj =>
    obtain ⟨haccepted, x, hx, hbeyond⟩ := hc
    have haccept := not_rejects_iff.1 (haccepted x (List.mem_append_left _ hx))
    obtain ⟨-, -, hlt, -⟩ := accept_eq_ok_iff.1 haccept
    exact absurd (hlt.trans_eq hm.length) (not_lt.2 hbeyond)
  | _ => exact hc

end Model

section

variable [Solver σ] {m : Model} {t : Turn σ} {turns : List (Turn σ)}

/-- A turn fails to read a task file, and leaves another number of columns or rows than there was.
-/
def Turn.Misreads (t : Turn σ) (m : Model) (k : Kind) : Prop :=
  t.FailsToReadTask m ∧ (t.after m).count k ≠ m.count k

/-- A roster that matches does so after a turn, unless the turn misreads a task file. -/
theorem Turn.matches_or_misreads (ht : t.host.Honest) (hm : m.Matches k) :
    (t.after m).Matches k ∨ t.Misreads m k := by
  have hhappens := t.happens ht m
  by_cases heffect : t.effect m = .spoils
  · obtain ⟨file, parts, err, hcall, hresult⟩ := Call.effect_eq_spoils heffect
    rw [heffect] at hhappens
    obtain ⟨e, ops, -, -, hafter, -⟩ := hhappens
    by_cases hcount : (t.after m).count k = m.count k
    · rw [hafter] at hcount ⊢
      exact .inl (hm.of_engine hcount)
    · exact .inr ⟨⟨file, parts, err, hcall, hresult⟩, hcount⟩
  · exact .inl (hm.happens hhappens heffect)

namespace Model

/-- Turns do not renew the roster of a kind. -/
def Unrenewed (m : Model) (k : Kind) (turns : List (Turn σ)) : Prop :=
  ∀ done t rest, turns = done ++ t :: rest → ¬(t.effect (m.afterTurns done)).Renews k

/-- Turns that do not renew a roster, and one more. -/
theorem Unrenewed.concat (hturns : m.Unrenewed k turns)
    (ht : ¬(t.effect (m.afterTurns turns)).Renews k) : m.Unrenewed k (turns ++ [t]) := by
  intro done t' rest hsplit
  obtain rfl | ⟨rest, u, rfl⟩ := List.eq_nil_or_concat rest
  · obtain ⟨rfl, hlast⟩ := List.append_inj' hsplit rfl
    obtain rfl := List.singleton_inj.1 hlast
    exact ht
  · rw [List.concat_eq_append, ← List.cons_append, ← List.append_assoc] at hsplit
    exact hturns done t' rest (List.append_inj' hsplit rfl).1

/-- After turns a roster matches, or one of them misread a task file and none has renewed the roster
since. -/
theorem matches_or_misread (hhonest : ∀ t ∈ turns, t.host.Honest) (hm : m.Matches k) :
    (m.afterTurns turns).Matches k ∨
      ∃ done t since, turns = done ++ t :: since ∧ t.Misreads (m.afterTurns done) k ∧
        (t.after (m.afterTurns done)).Unrenewed k since := by
  induction turns using List.reverseRecOn with
  | nil => exact .inl hm
  | append_singleton turns t ih =>
    obtain ⟨hturns, ht⟩ := List.forall_mem_append.1 hhonest
    have ht := List.forall_mem_singleton.1 ht
    have hlast : m.afterTurns (turns ++ [t]) = t.after (m.afterTurns turns) := by simp
    rw [hlast]
    by_cases hrenews : (t.effect (m.afterTurns turns)).Renews k
    · exact .inl (.of_renews (t.happens ht _) hrenews)
    · obtain hmatches | ⟨done, t', since, rfl, hmisreads, hunrenewed⟩ := ih hturns
      · obtain hmatches' | hmisreads := t.matches_or_misreads ht hmatches
        · exact .inl hmatches'
        · refine .inr ⟨turns, t, [], rfl, hmisreads, fun done t' rest hsplit => ?_⟩
          cases done <;> cases hsplit
      · refine .inr ⟨done, t', since ++ [t], by simp, hmisreads, hunrenewed.concat ?_⟩
        rwa [afterTurns_append, afterTurns_cons] at hrenews

/-! ## Main theorem -/

/-- Where a call comes to an index that is out of range. A model was built around an engine with a
reachable store, and any calls were made. If a call is abandoned then, it is the reading of a
problem by the solver library; or it is one of a column, of an expression or of an objective, all of
its handles are accepted, and a task file was misread before: reading it failed, but the engine had
another number of columns or rows afterwards, and the roster concerned was not renewed since. In
every state a call that oversteps so is abandoned, and no other call is, where the engine has
neither a solver nor a script. -/
theorem out_of_range_after_misreading :
    (∀ (engine : Engine) (env : Option ℕ) (start : Host σ) (turns : List (Turn σ)) (c : Call)
      (h : Host σ), let m : Model := { ((ofEngine engine).run start).1 with env }
      engine.store.Reachable → (∀ t ∈ turns, t.host.Honest) → h.Honest →
      (c.run.run (m.afterTurns turns) h).1.1 = .error .outOfRange →
        (∃ file name, c = .readProb file ∧ fileName file = .ok name ∧
          (m.afterTurns turns).engine.keepsFile name = false) ∨
        c.Oversteps (m.afterTurns turns) ∧ ∃ done t since, turns = done ++ t :: since ∧
          t.Misreads (m.afterTurns done) c.bounding ∧
          (t.after (m.afterTurns done)).Unrenewed c.bounding since) ∧
    ∀ (m : Model) (c : Call) (h : Host σ), m.engine.store.Reachable → m.state ≠ .freed →
      m.engine.backend = .plain → m.engine.scripted = false → h.Honest →
        ((c.run.run m h).1.1 = .error .outOfRange ↔ c.Oversteps m) := by
  refine ⟨fun engine env start turns c h => ?_, fun m c h hs hfreed hplain hscript hh => ?_⟩
  · intro m hs hhonest hh hout
    have hstore : m.engine.store = engine.store := by
      obtain ⟨state, journal, -, hrun⟩ := run_ofEngine engine start
      exact congrArg (·.1.engine.store) hrun
    have hp : (m.afterTurns turns).problem.WellFormed :=
      (reachable_afterTurns (hstore ▸ hs) hhonest).sound.problem
    by_cases hc : ∃ file, c = .readProb file
    · obtain ⟨file, rfl⟩ := hc
      obtain ⟨name, hname, hkeeps⟩ := outOfRange_readProb hout
      exact .inl ⟨file, name, rfl, hname, hkeeps⟩
    · have hfreed : (m.afterTurns turns).state ≠ .freed := fun hfreed =>
        stays_in_range_of_freed hfreed c hout
      have hrange := c.leavesRange hp hfreed hh fun file hfile => hc ⟨file, hfile⟩
      have hoversteps := hrange.1 hout
      have hm : m.Matches c.bounding := inStep_iff.1 (inStep_ofEngine engine env start) _
      exact .inr ⟨hoversteps, (matches_or_misread hhonest hm).resolve_left
        (not_matches_of_oversteps hp hoversteps)⟩
  · by_cases hc : ∃ file, c = .readProb file
    · obtain ⟨file, rfl⟩ := hc
      refine iff_of_false (fun hout => ?_) not_false
      obtain ⟨name, -, hkeeps⟩ := outOfRange_readProb hout
      rw [Engine.keepsFile, hplain] at hkeeps
      cases hkeeps
    · have hrange := c.leavesRange hs.sound.problem hfreed hh fun file hfile => hc ⟨file, hfile⟩
      exact ⟨hrange.1, hrange.2 hscript⟩

end Model

end

namespace Model

/-- A document with a column, a row that it is in, and a parameter that has no value. -/
def crossingDocument : Json := .obj [
  ("format", .text "mdotask"),
  ("version", .int 1),
  ("model", .obj [
    ("name", .text "b"),
    ("cols", .arr [.obj [("lb", .int 0), ("ub", .int 1), ("obj", .int 0)]]),
    ("rows", .arr [.obj [("lhs", .int 0), ("rhs", .int 1)]]),
    ("a", .obj [("row", .arr [.int 0]), ("col", .arr [.int 0]), ("val", .arr [.int 1])])]),
  ("param", .obj [("MaxTime", .null)])]

/-- A host with the document in a file. -/
def crossingHost : Host ScriptedSolver :=
  { solver := {}, disk := ⟨[(["t"], .file (Utf8.bytes crossingDocument.render))]⟩ }

/-- A store with two columns. -/
def twoColumns : Store :=
  .afterOps none (List.replicate 2 (.addCol (defaultCol false) [] []))

/-- The file is read into a model around the store. -/
def crossingTurn : Turn ScriptedSolver :=
  ⟨.readTask (Utf8.bytes "t") ⟨true, true, false⟩, crossingHost⟩

/-- A new model around the store. -/
def twoColumnModel : Model := ((ofStore false .plain twoColumns).run crossingHost).1

/-- The reading fails, and the model has the problem of the document. -/
theorem run_crossingTurn : ∃ s' journal,
    (readTask (Utf8.bytes "t") ⟨true, true, false⟩).run twoColumnModel crossingHost =
      ((.error (.engine ResultCode.formatError.code
          (ResultCode.explain ResultCode.formatError.code)),
        { twoColumnModel with engine := { twoColumnModel.engine with store := s' } }),
        { crossingHost with journal }) ∧
      s'.numCols = 1 ∧ (s'.problem.matrix.byCol.line 0).map (·.1) = [0] := by
  have hread : Json.read (Utf8.bytes crossingDocument.render) = .ok crossingDocument := by
    have hback := (Json.read_render crossingDocument).1 (by decide)
    have hsame : crossingDocument.withoutNaN = crossingDocument := by
      simp only [crossingDocument, Json.withoutNaN, Json.membersWithoutNaN, Json.itemsWithoutNaN]
    rwa [hsame] at hback
  have hfind (content : List UInt8) :
      (Disk.mk [(["t"], .file content)]).find "t" = .file content := Disk.find_single (by cbv)
  have hparams : some [("MaxTime", Json.null)] = some ([] ++ ("MaxTime", .null) :: []) := rfl
  have hlate : TaskFile.FailsLate (Utf8.bytes crossingDocument.render) ⟨true, true, false⟩
      twoColumnModel.engine.store .formatError _ :=
    ⟨crossingDocument, _, _, hread, rfl, rfl,
      .param hparams (fun p hp => absurd hp List.not_mem_nil) rfl⟩
  have hname : fileName (Utf8.bytes "t") = .ok "t" := by cbv
  obtain ⟨journal, hrun⟩ := readTask_of_failsLate (h := crossingHost) hname
    (by decide) rfl (hfind _) hlate
  exact ⟨_, journal, hrun, rfl, rfl⟩

/-- The first variable of the model. -/
def firstVar : Var := ⟨0, 0, 1⟩

/-- The second variable as an objective. -/
def secondObjective : QuadExpr Float := ⟨.ofTerm 1 ⟨0, 1, 1⟩, []⟩

/-- After the reading the first variable overhangs, and the second is beyond the columns. -/
theorem oversteps_crossing :
    let m := twoColumnModel.afterTurns [crossingTurn]
    (Call.col firstVar).Oversteps m ∧ (Call.setQuadraticObjective secondObjective).Oversteps m ∧
      m.state ≠ .freed ∧ m.engine.backend = .plain ∧ m.engine.scripted = false ∧
      m.engine.store.Reachable := by
  intro m
  obtain ⟨s', journal, hrun, hcols, hline⟩ := run_crossingTurn
  have hm : m = { twoColumnModel with engine := { twoColumnModel.engine with store := s' } } :=
    congrArg (·.1.2) hrun
  -- The handles are looked up in the rosters, which are those from before the reading.
  have hfirst : twoColumnModel.accept firstVar = .ok 0 := by decide
  have hsecond : twoColumnModel.accept (⟨0, 1, 1⟩ : Var) = .ok 1 := by decide
  have hstate : twoColumnModel.state ≠ .freed := by decide
  have hentry : ∃ e ∈ s'.problem.matrix.byCol.line 0, 0 ≤ e.1 := by
    obtain ⟨e, he, -⟩ := List.mem_map.1 (hline ▸ List.mem_singleton_self 0)
    exact ⟨e, he, e.1.zero_le⟩
  have hpurge : secondObjective.linear.purge.vars = [⟨0, 1, 1⟩] := by decide +kernel
  have hs : m.engine.store.Reachable :=
    reachable_afterTurns ⟨none, _, rfl⟩ (List.forall_mem_singleton.2 fun _ _ => nofun)
  rw [hm] at hs ⊢
  refine ⟨⟨hfirst, hentry⟩, ⟨?_, ?_⟩, hstate, rfl, rfl, hs⟩
  · rw [hpurge]
    exact List.forall_mem_singleton.2 (not_rejects_iff.2 hsecond)
  · rw [hpurge]
    exact ⟨_, List.mem_singleton_self _, hcols.le⟩

/-- Reading the column is abandoned, because the file was misread: there is a row without a handle.
-/
theorem out_of_range_after_misreading_of_row :
    ((Call.col firstVar).run.run (twoColumnModel.afterTurns [crossingTurn]) idleHost).1.1 =
        .error .outOfRange ∧
      ∃ done t since, [crossingTurn] = done ++ t :: since ∧
        t.Misreads (twoColumnModel.afterTurns done) .constraint := by
  obtain ⟨hruns, hstates⟩ := out_of_range_after_misreading (σ := ScriptedSolver)
  obtain ⟨hcol, -, hfreed, hplain, hscript, hs⟩ := oversteps_crossing
  have hhonest : ∀ t ∈ [crossingTurn], t.host.Honest :=
    List.forall_mem_singleton.2 fun _ _ => nofun
  have hidle : idleHost.Honest := fun _ _ => nofun
  have hout := (hstates _ _ idleHost hs hfreed hplain hscript hidle).2 hcol
  refine ⟨hout, ?_⟩
  obtain ⟨file, name, hcall, -⟩ | ⟨-, done, t, since, hsplit, hmisreads, -⟩ :=
    hruns { backend := .plain, store := twoColumns, scripted := false } none crossingHost
      [crossingTurn] _ idleHost ⟨none, _, rfl⟩ hhonest hidle hout
  · cases hcall
  · exact ⟨done, t, since, hsplit, hmisreads⟩

/-- A task file is not read, and after that the column of a valid handle is not read either: the
call is abandoned, and so is replacing the objective. -/
theorem abandoned_after_late_fault :
    let m := twoColumnModel.afterTurns [crossingTurn]
    ((readTask (Utf8.bytes "t") ⟨true, true, false⟩).run twoColumnModel crossingHost).1.1 =
        .error (.engine ResultCode.formatError.code
          (ResultCode.explain ResultCode.formatError.code)) ∧
      ((col firstVar).run m idleHost).1.1 = .error .outOfRange ∧
      ((setQuadraticObjective secondObjective).run m idleHost).1.1 = .error .outOfRange := by
  intro m
  obtain ⟨s', journal, hrun, -⟩ := run_crossingTurn
  obtain ⟨hcol, hobj, hfreed, -, hscript, hs⟩ := oversteps_crossing
  have hidle : idleHost.Honest := fun _ _ => nofun
  exact ⟨congrArg (·.1.1) hrun,
    (leavesRange_col hs.sound.problem hfreed hidle firstVar).2 hscript hcol,
    (leavesRange_setQuadraticObjective hfreed secondObjective).2 hscript hobj⟩

end Model

end MathProgram

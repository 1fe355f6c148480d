import Mathlib.Logic.Basic
import MathProgram.Model.Basic
import MathProgram.Proofs.Basic
import MathProgram.Proofs.Store.Operations

/-!
# Handles and the rosters of a model

What holds of variables and of constraints is stated here for a kind: its `roster`, its
`generation`, and `accept`, the check that its handles have to pass. A handle is accepted exactly if
it is of the model and of the generation and points into the roster, and its index is then that of
the handle (`accept_eq_ok_iff`); there are two errors otherwise, and which of them it is depends on
the model alone (`accept_eq_error_iff`).
-/

namespace MathProgram

variable {k : Kind}

/-! ## What is checked of a handle -/

namespace Handle

/-- The handles of a kind that a model issues for `n` new columns or rows, from an index on. -/
def issued (model : ModelId) (generation : UInt32) (start n : ℕ) : List (Handle k) :=
  (List.range' start n).map fun i => ⟨model, i, generation⟩

/-- The handles of all columns or rows are those that are issued from zero on. -/
theorem allOf_eq_issued (model : ModelId) (generation : UInt32) (n : ℕ) :
    (allOf model generation n : List (Handle k)) = issued model generation 0 n := by
  rw [allOf, issued, List.range_eq_range']

/-- Handles are issued one part after another. -/
theorem issued_append (model : ModelId) (generation : UInt32) (start n n' : ℕ) :
    (issued model generation start n ++ issued model generation (start + n) n' : List (Handle k)) =
      issued model generation start (n + n') := by
  rw [issued, issued, issued, ← List.map_append, List.range'_append_1]

@[simp] theorem length_issued (model : ModelId) (generation : UInt32) (start n : ℕ) :
    (issued model generation start n : List (Handle k)).length = n := by
  rw [issued, List.length_map, List.length_range']

/-- The handles that are issued. -/
theorem mem_issued_iff {model : ModelId} {generation : UInt32} {start n : ℕ} {x : Handle k} :
    x ∈ (issued model generation start n : List (Handle k)) ↔
      x.model = model ∧ x.generation = generation ∧ start ≤ x.index ∧ x.index < start + n := by
  obtain ⟨xm, xi, xg⟩ := x
  simp only [issued, List.mem_map, List.mem_range'_1, mk.injEq]
  constructor
  · rintro ⟨i, hi, rfl, rfl, rfl⟩
    exact ⟨rfl, rfl, hi⟩
  · rintro ⟨rfl, rfl, hi⟩
    exact ⟨xi, hi, rfl, rfl, rfl⟩

variable {x : Handle k} {kind : Kind} {model : ModelId} {generation : UInt32} {length i : ℕ}

/-- A handle passes the check if it is of the model and of the generation and points into the
roster. -/
theorem check_eq_ok_iff : x.check kind model generation length = .ok i ↔
    x.model = model ∧ x.generation = generation ∧ x.index < length ∧ i = x.index := by
  unfold check
  split_ifs with hmodel hstale
  · exact ⟨nofun, fun h => absurd h.1 hmodel⟩
  · refine ⟨nofun, fun h => absurd hstale ?_⟩
    simp [h.2.1, h.2.2.1]
  · simp only [Bool.or_eq_true, decide_eq_true_eq, not_or, Decidable.not_not, Nat.not_le] at hstale
    rw [Except.ok.injEq]
    exact ⟨fun h => ⟨not_not.1 hmodel, hstale.1, hstale.2, h.symm⟩, fun h => h.2.2.2.symm⟩

/-- A handle fails the check as foreign if it is of another model, and else as stale. -/
theorem check_eq_error_iff {e : Error} : x.check kind model generation length = .error e ↔
    (x.model ≠ model ∧ e = .foreignHandle kind x.index) ∨
      (x.model = model ∧ (x.generation ≠ generation ∨ length ≤ x.index) ∧
        e = .staleHandle kind x.index) := by
  unfold check
  split_ifs with hmodel hstale
  · rw [Except.error.injEq]
    exact ⟨fun h => .inl ⟨hmodel, h.symm⟩, fun h => (h.resolve_right fun h' => hmodel h'.1).2.symm⟩
  · simp only [Bool.or_eq_true, decide_eq_true_eq] at hstale
    rw [Except.error.injEq]
    exact ⟨fun h => .inr ⟨not_not.1 hmodel, hstale, h.symm⟩,
      fun h => (h.resolve_left fun h' => hmodel h'.1).2.2.symm⟩
  · simp only [Bool.or_eq_true, decide_eq_true_eq] at hstale
    refine ⟨nofun, ?_⟩
    rintro (⟨h, -⟩ | ⟨-, h, -⟩)
    · exact absurd h hmodel
    · exact absurd h hstale

end Handle

/-! ## Both kinds of handles -/

namespace Model

/-- The handles of a kind, in order. -/
def roster (m : Model) : (k : Kind) → List (Handle k)
  | .variable => m.vars
  | .constraint => m.conss

/-- The generation of the handles of a kind. -/
def generation (m : Model) : Kind → UInt32
  | .variable => m.varGen
  | .constraint => m.consGen

/-- The index of a handle that is accepted. -/
def accept (m : Model) : {k : Kind} → Handle k → Except Error ℕ
  | .variable => m.varIndex
  | .constraint => m.consIndex

/-- The number of columns or of rows of a model's engine. -/
def count (m : Model) (k : Kind) : ℕ := m.engine.store.count k

/-- The problem of a model's engine. -/
def problem (m : Model) : Problem := m.engine.store.problem

/-- Renews the handles of a kind. -/
def renew (m : Model) : Kind → Model
  | .variable => m.renewVars
  | .constraint => m.renewConss

variable {m : Model} {x : Handle k} {xs : List (Handle k)} {i : ℕ}

/-- What is checked of a handle. -/
theorem accept_eq (m : Model) (x : Handle k) :
    m.accept x = x.check k m.id (m.generation k) (m.roster k).length := by
  cases k <;> rfl

/-- A handle is accepted if it is of the model and of its present generation, and points into the
roster. -/
theorem accept_eq_ok_iff : m.accept x = .ok i ↔ x.model = m.id ∧ x.generation = m.generation k ∧
    x.index < (m.roster k).length ∧ i = x.index := by
  rw [accept_eq, Handle.check_eq_ok_iff]

/-- A handle of another model is foreign; any other that is not accepted is stale. -/
theorem accept_eq_error_iff {e : Error} : m.accept x = .error e ↔
    (x.model ≠ m.id ∧ e = .foreignHandle k x.index) ∨
      (x.model = m.id ∧ (x.generation ≠ m.generation k ∨ (m.roster k).length ≤ x.index) ∧
        e = .staleHandle k x.index) := by
  rw [accept_eq, Handle.check_eq_error_iff]

/-- Handles that are accepted have the indexes they carry. -/
theorem mapM_accept_eq_ok_iff {is : List ℕ} :
    xs.mapM m.accept = .ok is ↔ (∀ x ∈ xs, m.accept x = .ok x.index) ∧ is = xs.map (·.index) :=
  mapM_eq_ok_iff fun _ _ h => (accept_eq_ok_iff.1 h).2.2.2

end Model

end MathProgram

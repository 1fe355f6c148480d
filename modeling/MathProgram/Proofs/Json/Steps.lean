import Mathlib.Tactic
import MathProgram.Json.Reader

/-!
# The steps of the reader

The readers of values, items and members look at one token after another. Here each of them gets
one lemma for each thing it can meet on a well-formed document: the tokens it looks at, and the
outcomes of the readers it calls, give its own outcome. `Outcome` follows both ways in which a
reading ends: with a value and a place if a condition holds, and with an error if it does not.
-/

namespace MathProgram.Json

/-- A reading ends with a value and the place after it. -/
def Reads {c : Cursor} (r : ReadFrom c) (v : Json) (after : Cursor) : Prop :=
  ∃ h, r = .ok ⟨(v, after), h⟩

/-- A reading ends with an error. -/
def Fails {c : Cursor} (r : ReadFrom c) : Prop := ∃ e, r = .error e

/-- A reading ends with a value if a condition holds, and with an error otherwise. -/
structure Outcome {c : Cursor} (r : ReadFrom c) (fits : Prop) (v : Json) (after : Cursor) :
    Prop where
  reads : fits → Reads r v after
  fails : ¬ fits → Fails r

/-- A reading that fails early goes on only if a first condition holds. -/
theorem outcome_and {c : Cursor} {r : ReadFrom c} {fits fits' : Prop} {v : Json} {after : Cursor}
    (h : fits → Outcome r fits' v after) (hfails : ¬ fits → Fails r) :
    Outcome r (fits ∧ fits') v after where
  reads := fun ⟨hfits, hfits'⟩ => (h hfits).reads hfits'
  fails hnot := by
    by_cases hfits : fits
    · exact (h hfits).fails fun hfits' => hnot ⟨hfits, hfits'⟩
    · exact hfails hfits

/-- A reading that ends with what another one ended with has its outcome. -/
theorem Outcome.carry {c c' : Cursor} {r : ReadFrom c'} {r' : ReadFrom c} {fits : Prop} {v : Json}
    {after : Cursor} (h : Outcome r fits v after)
    (hreads : ∀ hle, r = .ok ⟨(v, after), hle⟩ → Reads r' v after)
    (hfails : ∀ e, r = .error e → Fails r') : Outcome r' fits v after where
  reads hfits := by
    obtain ⟨hle, hr⟩ := h.reads hfits
    exact hreads hle hr
  fails hnot := by
    obtain ⟨e, hr⟩ := h.fails hnot
    exact hfails e hr

variable {room : ℕ} {t t' : Token} {c c₁ c₂ c₃ c₄ after : Cursor} {v w : Json} {fits fits' : Prop}

/-! ## Values -/

/-- A scalar is a value by itself. -/
theorem outcome_scalar (room : ℕ) (v : Json) (c : Cursor) :
    Outcome (valueFrom room (.scalar v) c) True v c := by
  refine ⟨fun _ => ?_, fun h => absurd trivial h⟩
  rw [valueFrom]
  exact ⟨_, rfl⟩

/-- A bracket takes one level of nesting from the reader of what is inside. -/
theorem outcome_opening {n : ℕ} {b : Bracket} {reader : ℕ → ReadFrom c} {e : ReadError}
    (hreader : ∀ room, valueFrom room (.opening b) c =
      if room = 0 then .error e else reader (room - 1))
    (h : ∀ room, Outcome (reader room) (n ≤ room) v after) :
    Outcome (valueFrom room (.opening b) c) (n + 1 ≤ room) v after := by
  rw [hreader]
  split_ifs with hroom
  · exact ⟨fun hfits => by omega, fun _ => ⟨_, rfl⟩⟩
  · obtain ⟨hreads, hfails⟩ := h (room - 1)
    exact ⟨fun hfits => hreads (by omega), fun hfits => hfails (by omega)⟩

/-- An array takes one level of nesting. -/
theorem outcome_square {n : ℕ} (h : ∀ room, Outcome (array room c) (n ≤ room) v after) :
    Outcome (valueFrom room (.opening .square) c) (n + 1 ≤ room) v after :=
  outcome_opening (fun room => by rw [valueFrom]) h

/-- An object takes one level of nesting. -/
theorem outcome_curly {n : ℕ} (h : ∀ room, Outcome (object room c) (n ≤ room) v after) :
    Outcome (valueFrom room (.opening .curly) c) (n + 1 ≤ room) v after :=
  outcome_opening (fun room => by rw [valueFrom]) h

/-- A value starts with a token. -/
theorem outcome_value (hnext : c.next = .ok (.token t c₁))
    (h : Outcome (valueFrom room t c₁) fits v after) : Outcome (value room c) fits v after := by
  rw [value]
  split <;> rename_i he <;> rw [hnext] at he <;> cases he
  refine h.carry (fun hle hr => ?_) fun e hr => ?_ <;> rw [hr] <;> exact ⟨_, rfl⟩

/-! ## Arrays -/

/-- An array may be empty. -/
theorem outcome_array_nil (hnext : c.next = .ok (.token (.closing .square) c₁)) :
    Outcome (array room c) True (.arr []) c₁ := by
  refine ⟨fun _ => ?_, fun h => absurd trivial h⟩
  rw [array]
  split <;> rename_i he <;> rw [hnext] at he <;> cases he
  · exact ⟨_, rfl⟩
  · rename_i hne
    exact (hne rfl).elim

/-- An array starts with its items. -/
theorem outcome_array_items (hnext : c.next = .ok (.token t c₁)) (ht : t ≠ .closing .square)
    (h : Outcome (items room [] t c₁) fits v after) : Outcome (array room c) fits v after := by
  rw [array]
  split <;> rename_i he <;> rw [hnext] at he <;> cases he
  · exact absurd rfl ht
  refine h.carry (fun hle hr => ?_) fun e hr => ?_ <;> rw [hr] <;> exact ⟨_, rfl⟩

/-- The last item of an array is followed by the closing bracket. -/
theorem outcome_items_last {before : List Json}
    (hvalue : Outcome (valueFrom room t c) fits v c₁)
    (hnext : c₁.next = .ok (.token (.closing .square) c₂)) :
    Outcome (items room before t c) fits (.arr (before.reverse ++ [v])) c₂ := by
  rw [items]
  refine ⟨fun hfits => ?_, fun hfits => ?_⟩
  · obtain ⟨hle, hr⟩ := hvalue.reads hfits
    rw [hr]
    dsimp only
    split <;> rename_i he <;> rw [hnext] at he <;> cases he
    · rw [List.reverse_cons]
      exact ⟨_, rfl⟩
    · rename_i hne _
      exact (hne rfl).elim
  · obtain ⟨e, hr⟩ := hvalue.fails hfits
    rw [hr]
    exact ⟨_, rfl⟩

/-- Any other item is followed by a comma and further items. -/
theorem outcome_items_cons (before : List Json)
    (hvalue : Outcome (valueFrom room t c) fits v c₁)
    (hcomma : c₁.next = .ok (.token .comma c₂)) (hnext : c₂.next = .ok (.token t' c₃))
    (hrest : Outcome (items room (v :: before) t' c₃) fits' w after) :
    Outcome (items room before t c) (fits ∧ fits') w after := by
  rw [items]
  refine outcome_and (fun hfits => ?_) fun hfits => ?_
  · obtain ⟨hle, hr⟩ := hvalue.reads hfits
    rw [hr]
    dsimp only
    -- Of the tokens that may follow an item only the comma is left.
    split <;> rename_i he <;> rw [hcomma] at he <;> cases he
    · split <;> rename_i he <;> rw [hnext] at he <;> cases he
      refine hrest.carry (fun hle' hr' => ?_) fun e hr' => ?_ <;> rw [hr'] <;> exact ⟨_, rfl⟩
    · rename_i hne
      exact (hne rfl).elim
  · obtain ⟨e, hr⟩ := hvalue.fails hfits
    rw [hr]
    exact ⟨_, rfl⟩

/-! ## Objects -/

/-- An object may be empty. -/
theorem outcome_object_nil (hnext : c.next = .ok (.token (.closing .curly) c₁)) :
    Outcome (object room c) True (.obj []) c₁ := by
  refine ⟨fun _ => ?_, fun h => absurd trivial h⟩
  rw [object]
  split <;> rename_i he <;> rw [hnext] at he <;> cases he
  · exact ⟨_, rfl⟩
  · rename_i hne
    exact (hne rfl).elim

/-- An object starts with its members. -/
theorem outcome_object_members (hnext : c.next = .ok (.token t c₁)) (ht : t ≠ .closing .curly)
    (h : Outcome (members room [] t c₁) fits v after) : Outcome (object room c) fits v after := by
  rw [object]
  split <;> rename_i he <;> rw [hnext] at he <;> cases he
  · exact absurd rfl ht
  refine h.carry (fun hle hr => ?_) fun e hr => ?_ <;> rw [hr] <;> exact ⟨_, rfl⟩

/-- The last member of an object is followed by the closing bracket. -/
theorem outcome_members_last {before : List (String × Json)} {name : String}
    (hcolon : c.next = .ok (.token .colon c₁))
    (hvalue : Outcome (value room c₁) fits v c₂)
    (hnext : c₂.next = .ok (.token (.closing .curly) c₃)) :
    Outcome (members room before (.scalar (.text name)) c) fits
      (.obj (before.reverse ++ [(name, v)])) c₃ := by
  rw [members]
  refine ⟨fun hfits => ?_, fun hfits => ?_⟩
  · obtain ⟨hle, hr⟩ := hvalue.reads hfits
    split <;> rename_i he <;> rw [hcolon] at he <;> cases he
    · rw [hr]
      dsimp only
      split <;> rename_i he <;> rw [hnext] at he <;> cases he
      · rw [List.reverse_cons]
        exact ⟨_, rfl⟩
      · rename_i hne _
        exact (hne rfl).elim
    · rename_i hne
      exact (hne rfl).elim
  · obtain ⟨e, hr⟩ := hvalue.fails hfits
    split <;> rename_i he <;> rw [hcolon] at he <;> cases he
    · rw [hr]
      exact ⟨_, rfl⟩
    · rename_i hne
      exact (hne rfl).elim

/-- Any other member is followed by a comma and further members. -/
theorem outcome_members_cons {before : List (String × Json)} {name : String}
    (hcolon : c.next = .ok (.token .colon c₁))
    (hvalue : Outcome (value room c₁) fits v c₂)
    (hcomma : c₂.next = .ok (.token .comma c₃)) (hnext : c₃.next = .ok (.token t' c₄))
    (hrest : Outcome (members room ((name, v) :: before) t' c₄) fits' w after) :
    Outcome (members room before (.scalar (.text name)) c) (fits ∧ fits') w after := by
  rw [members]
  split <;> rename_i he <;> rw [hcolon] at he <;> cases he
  swap
  · rename_i hne
    exact (hne rfl).elim
  refine outcome_and (fun hfits => ?_) fun hfits => ?_
  · obtain ⟨hle, hr⟩ := hvalue.reads hfits
    rw [hr]
    dsimp only
    -- Of the tokens that may follow a member only the comma is left.
    split <;> rename_i he <;> rw [hcomma] at he <;> cases he
    · split <;> rename_i he <;> rw [hnext] at he <;> cases he
      refine hrest.carry (fun hle' hr' => ?_) fun e hr' => ?_ <;> rw [hr'] <;> exact ⟨_, rfl⟩
    · rename_i hne
      exact (hne rfl).elim
  · obtain ⟨e, hr⟩ := hvalue.fails hfits
    rw [hr]
    exact ⟨_, rfl⟩

end MathProgram.Json

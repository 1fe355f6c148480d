import Mathlib.Data.List.Nodup
import MathProgram.Attribute
import MathProgram.Param

/-!
# Parameter tables

Every table that starts from the defaults keeps their names and their types, its `shape`. A
parameter is set to a value of its own type, and a text attribute that shares its value with a
parameter is a text there.
-/

namespace MathProgram.ParamTable

/-- The names of a table with the types of their values. -/
def shape (t : ParamTable) : List (String × ValueType) := t.map fun p => (p.1, p.2.type)

/-- The default table has each name once. -/
theorem nodup_names_defaults : (defaults.shape.map Prod.fst).Nodup := by decide

/-- The parameters that are attributes as well are texts. -/
theorem str_of_mem_sharedParams :
    ∀ e ∈ defaults.shape, e.1 ∈ sharedParams → e.2 = .str := by decide

variable {t t' : ParamTable} {name : String} {v old : ParamValue}

/-- In a table with each name once, every entry is found. -/
theorem get?_of_mem (hnodup : (t.map Prod.fst).Nodup) (h : (name, v) ∈ t) :
    t.get? name = some v := by
  obtain ⟨l, rest, rfl⟩ := List.append_of_mem h
  refine List.lookup_eq_some_iff.2 ⟨l, rest, rfl, fun p hp => ?_⟩
  rw [List.map_append, List.map_cons] at hnodup
  have hne := (List.nodup_append.1 hnodup).2.2 p.1 (List.mem_map_of_mem hp) name
    (List.mem_cons_self ..)
  exact bne_iff_ne.2 hne.symm

/-- The names of a table are those of its shape. -/
theorem shape_map_fst (t : ParamTable) : t.shape.map Prod.fst = t.map Prod.fst := by
  rw [shape, List.map_map]
  rfl

/-- Replacing a value by one of the same type keeps the shape. -/
theorem shape_replace (h : ∀ old, (name, old) ∈ t → old.type = v.type) :
    (t.replace name v).shape = t.shape := by
  rw [shape, replace, List.map_map]
  refine List.map_congr_left fun p hp => ?_
  obtain ⟨k, old⟩ := p
  simp only [Function.comp_apply, beq_iff_eq]
  split_ifs with hk
  · subst hk
    rw [h old hp]
  · rfl

/-- A parameter that is set is known and gets a value of its type. -/
theorem set_eq_ok (h : t.set name v = .ok t') : ∃ old, t.get? name = some old ∧
    (coerced old.type v).type = old.type ∧ t' = t.replace name (coerced old.type v) := by
  unfold set at h
  cases hold : t.get? name with
  | none => rw [hold] at h; cases h
  | some old =>
    rw [hold] at h
    dsimp only at h
    split_ifs at h with htype
    exact ⟨old, rfl, htype, (Except.ok.inj h).symm⟩

/-- Setting a parameter keeps the shape of a table with each name once. -/
theorem shape_set (hnodup : (t.map Prod.fst).Nodup) (h : t.set name v = .ok t') :
    t'.shape = t.shape := by
  obtain ⟨old, hold, htype, rfl⟩ := set_eq_ok h
  -- Each name is there once, so the value replaced is the one whose type was checked.
  refine shape_replace fun old' hold' => ?_
  rw [htype, Option.some.inj ((get?_of_mem hnodup hold').symm.trans hold)]

/-- A value of the type of a known parameter is set as it is. -/
theorem set_of_type (hold : t.get? name = some old) (htype : v.type = old.type) :
    t.set name v = .ok (t.replace name v) := by
  have hcoerced : coerced old.type v = v := by
    rw [← htype]
    cases v <;> rfl
  unfold set
  rw [hold]
  dsimp only
  rw [hcoerced, if_pos htype]

/-! ## One table put into another -/

/-- Values put in place one after another. -/
def replaceAll (t : ParamTable) (ps : List (String × ParamValue)) : ParamTable :=
  ps.foldl (fun t p => t.replace p.1 p.2) t

/-- What is put in place under different names. -/
theorem replaceAll_eq {ps : List (String × ParamValue)} (h : (ps.map Prod.fst).Nodup)
    (t : ParamTable) :
    t.replaceAll ps = t.map fun p => (p.1, (ps.lookup p.1).getD p.2) := by
  induction ps generalizing t with
  | nil => exact (List.map_id t).symm
  | cons q ps ih =>
    obtain ⟨name, v⟩ := q
    obtain ⟨hname, hps⟩ := List.nodup_cons.1 h
    -- The name does not come again, so later values do not replace this one.
    have hnone : ps.lookup name = none := by
      rw [List.lookup_eq_none_iff]
      intro p hp
      exact bne_iff_ne.2 fun heq => hname (List.mem_map.2 ⟨p, hp, heq.symm⟩)
    rw [replaceAll, List.foldl_cons]
    refine (ih hps _).trans ?_
    rw [replace, List.map_map]
    refine List.map_congr_left fun p _ => ?_
    by_cases hp : p.1 = name
    · simp [hp, hnone]
    · have hne : (p.1 == name) = false := beq_eq_false_iff_ne.2 hp
      simp [List.lookup_cons, hne, hp]

/-- A table put into another of its shape replaces it. -/
theorem replaceAll_sorted {s : ParamTable} (hnodup : (s.map Prod.fst).Nodup)
    (hshape : t.shape = s.shape) : t.replaceAll s.sorted = s := by
  have hperm : s.sorted.Perm s := List.mergeSort_perm ..
  have hsorted : (s.sorted.map Prod.fst).Nodup := (hperm.map Prod.fst).nodup_iff.2 hnodup
  have hnames : t.map Prod.fst = s.map Prod.fst := by
    rw [← shape_map_fst, hshape, shape_map_fst]
  have hlookup : ∀ p ∈ s, s.sorted.lookup p.1 = some p.2 := fun p hp =>
    get?_of_mem hsorted (hperm.mem_iff.2 hp)
  -- Every name of the table is found in the sorted one, with the value it has in `s`.
  let found (name : String) : String × ParamValue := (name, (s.sorted.lookup name).getD default)
  calc t.replaceAll s.sorted
      = t.map fun p => (p.1, (s.sorted.lookup p.1).getD p.2) := replaceAll_eq hsorted t
    _ = (t.map Prod.fst).map found := by
      rw [List.map_map]
      refine List.map_congr_left fun p hp => ?_
      have hmem : p.1 ∈ s.map Prod.fst := hnames ▸ List.mem_map_of_mem hp
      obtain ⟨q, hq, hqp⟩ := List.mem_map.1 hmem
      simp only [found, Function.comp_apply, ← hqp, hlookup q hq, Option.getD_some]
    _ = (s.map Prod.fst).map found := by rw [hnames]
    _ = s := by
      rw [List.map_map]
      refine (List.map_congr_left fun p hp => ?_).trans (List.map_id s)
      simp only [found, Function.comp_apply, hlookup p hp, Option.getD_some, id_eq]

end MathProgram.ParamTable

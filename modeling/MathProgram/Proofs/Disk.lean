import Mathlib.Data.List.Basic
import MathProgram.Disk

/-!
# Files are found again

A file that was written is found under its name (`find_write`). A name is followed through folders
only, and writing neither makes nor removes a folder, so every name leads where it led before.
-/

namespace MathProgram.Disk

variable {d : Disk} {name : String} {path : DiskPath} {content : List UInt8}

/-- The node of a path, once a node was put at one. -/
theorem node?_put (d : Disk) (path other : DiskPath) (n : Node) :
    (d.put path n).node? other = if other = path then some n else d.node? other := by
  unfold put node?
  dsimp only
  rw [List.lookup_cons]
  by_cases h : other = path
  · rw [if_pos h, beq_iff_eq.2 h]
  · rw [if_neg h, beq_eq_false_iff_ne.2 h]
    dsimp only
    -- The nodes that were removed are those of the other path.
    induction d.nodes with
    | nil => rfl
    | cons e nodes ih =>
      obtain ⟨key, node⟩ := e
      by_cases hkey : key = path
      · have hother : (other == key) = false := beq_eq_false_iff_ne.2 (hkey ▸ h)
        rw [List.filter_cons_of_neg (by simp [hkey]), ih, List.lookup_cons, hother]
      · rw [List.filter_cons_of_pos (by simp [hkey]), List.lookup_cons, List.lookup_cons, ih]

/-- A path at which a file can be written is no folder's. -/
theorem writable?_eq_some_iff : d.writable? name = some path ↔
    d.place name = .inside path false ∧ d.node? path ≠ some .folder := by
  unfold writable?
  split
  · rename_i path' hplace
    by_cases hfolder : d.node? path' = some .folder
    · rw [if_neg (by simp [hfolder])]
      refine ⟨nofun, fun ⟨h, hnot⟩ => ?_⟩
      cases hplace.symm.trans h
      exact absurd hfolder hnot
    · rw [if_pos (by simpa using hfolder), hplace]
      constructor
      · rintro ⟨⟩
        exact ⟨rfl, hfolder⟩
      · rintro ⟨⟨⟩, -⟩
        rfl
  · rename_i hother
    exact ⟨nofun, fun h => absurd h.1 (hother path)⟩

/-- Every name leads where it led before a file was put in place of no folder. -/
theorem place_put (hfolder : d.node? path ≠ some .folder) (content : List UInt8) (name : String) :
    (d.put path (.file content)).place name = d.place name := by
  have henter : (d.put path (.file content)).enter? = d.enter? := by
    funext folder part
    have hnode (other : DiskPath) : ((d.put path (.file content)).node? other == some .folder) =
        (d.node? other == some .folder) := by
      rw [node?_put]
      by_cases h : other = path
      · rw [if_pos h, h, beq_eq_false_iff_ne.2 hfolder]
        rfl
      · rw [if_neg h]
    unfold enter?
    simp only [hnode]
  unfold place
  rw [henter]

/-- What was written without a failure is found under its name, unless it is nothing. -/
theorem find_write (hne : content ≠ []) (hwrite : (d.write name content).1 = true) :
    (d.write name content).2.find name = .file content := by
  unfold write at hwrite ⊢
  cases hpath : d.writable? name with
  | none =>
    -- Only the device that takes no byte accepts a file that has no place.
    rw [hpath] at hwrite
    exact absurd (List.isEmpty_iff.1 ((Bool.and_eq_true_iff.1 hwrite).2)) hne
  | some path =>
    obtain ⟨hplace, hfolder⟩ := writable?_eq_some_iff.1 hpath
    dsimp only
    rw [find, place_put hfolder, hplace]
    dsimp only
    rw [node?_put, if_pos rfl]
    rfl

/-- A file that is alone on a disk is found under a name that leads to it. -/
theorem find_single
    (hplace : (Disk.mk [(path, .file content)]).place name = .inside path false) :
    (Disk.mk [(path, .file content)]).find name = .file content := by
  have hnode : (Disk.mk [(path, .file content)]).node? path = some (.file content) :=
    List.lookup_cons_self
  rw [find, hplace]
  dsimp only
  rw [hnode]
  rfl

end MathProgram.Disk

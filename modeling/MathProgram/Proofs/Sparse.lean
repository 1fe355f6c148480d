import Mathlib.Data.List.Nodup
import Mathlib.Tactic
import MathProgram.Proofs.Basic
import MathProgram.Sparse

/-!
# Looking up in sparse maps

A sparse map is given by its lookups (`ext_get?`): the order of the entries leaves no other choice.
So each operation is described by what `get?` finds afterwards. `get?_alter` covers the changes at
one key; `get?_mapKeys?` covers renumbering, as long as no two keys get the same new one, and
`get?_transpose` the exchange of the indexes.
-/

namespace MathProgram.Sparse

variable {α : Type} {k l : IndexPair} {v : α}

/-! ## Entries and lookups -/

/-- Entries in order have different keys. -/
theorem Sorted.nodup_keys {es : List (IndexPair × α)} (h : Sorted es) :
    (es.map Prod.fst).Nodup := by
  rw [List.Nodup, List.pairwise_map]
  exact h.imp fun hbefore => hbefore.ne

/-- A lookup tries one entry after another. -/
theorem lookup_cons (k l : IndexPair) (x : α) (es : List (IndexPair × α)) :
    ((l, x) :: es).lookup k = if k = l then some x else es.lookup k := by
  by_cases h : k = l
  · rw [if_pos h, List.lookup_cons, beq_iff_eq.2 h]
  · rw [if_neg h, List.lookup_cons, beq_eq_false_iff_ne.2 h]

/-- With different keys a lookup finds exactly the entries. -/
theorem lookup_eq_some_iff {es : List (IndexPair × α)} (h : (es.map Prod.fst).Nodup) :
    es.lookup k = some v ↔ (k, v) ∈ es := by
  induction es with
  | nil => simp
  | cons e es ih =>
    obtain ⟨l, x⟩ := e
    obtain ⟨hl, hes⟩ := List.nodup_cons.1 h
    rw [lookup_cons, List.mem_cons]
    split_ifs with hkl
    · subst hkl
      -- A second entry of this key would repeat it.
      have hnot : (k, v) ∉ es := fun hmem => hl (List.mem_map.2 ⟨_, hmem, rfl⟩)
      simp [hnot, eq_comm]
    · simp [hkl, ih hes]

/-- A lookup finds exactly the entries. -/
theorem get?_eq_some_iff {m : Sparse α} : m.get? k = some v ↔ (k, v) ∈ m.entries :=
  lookup_eq_some_iff m.sorted.nodup_keys

/-- The triples are what can be found. -/
theorem mem_triples {m : Sparse α} {i j : ℕ} :
    (i, j, v) ∈ m.triples ↔ m.get? (i, j) = some v := by
  rw [get?_eq_some_iff, triples, List.mem_map]
  constructor
  · rintro ⟨e, he, heq⟩
    cases heq
    exact he
  · intro hmem
    exact ⟨_, hmem, rfl⟩

/-- Nothing is found before the first entry. -/
theorem lookup_eq_none_of_before {es : List (IndexPair × α)} (h : ∀ e ∈ es, k.Before e.1) :
    es.lookup k = none := by
  rw [List.lookup_eq_none_iff]
  intro e he
  simpa using (h e he).ne

/-- Maps with the same lookups are the same. -/
theorem ext_get? {m n : Sparse α} (h : ∀ k, m.get? k = n.get? k) : m = n := by
  have hmem (e : IndexPair × α) : e ∈ m.entries ↔ e ∈ n.entries := by
    rw [← Prod.mk.eta (p := e), ← get?_eq_some_iff, ← get?_eq_some_iff, h]
  have heq : m.entries = n.entries :=
    eq_of_pairwise_of_mem_iff (fun a b hab hba => (hab.trans hba).ne rfl) m.sorted n.sorted hmem
  cases m
  cases n
  congr

/-! ## Changes at one key -/

/-- An entry that may be missing is found in front of a list. -/
theorem lookup_toList_append (o : Option α) (es : List (IndexPair × α)) (k l : IndexPair) :
    (o.toList.map (fun v => (k, v)) ++ es).lookup l =
      if l = k then o.or (es.lookup l) else es.lookup l := by
  cases o with
  | none => simp
  | some v => simp [lookup_cons]

/-- A change at one key is found there, and nowhere else. -/
theorem get?_alter (m : Sparse α) (k l : IndexPair) (f : Option α → Option α) :
    (m.alter k f).get? l = if l = k then f (m.get? k) else m.get? l := by
  obtain ⟨es, hes⟩ := m
  show (alterEntries k f es).lookup l = if l = k then f (es.lookup k) else es.lookup l
  induction es with
  | nil =>
    have h := lookup_toList_append (f none) [] k l
    rw [List.append_nil] at h
    simpa [alterEntries] using h
  | cons e es ih =>
    obtain ⟨j, x⟩ := e
    obtain ⟨hj, hsorted⟩ := List.pairwise_cons.1 hes
    unfold alterEntries
    -- The change falls before the entry `j`, on it, or behind it.
    by_cases hbefore : k.Before j
    · have hnone : ((j, x) :: es).lookup k = none := by
        refine lookup_eq_none_of_before fun e he => ?_
        obtain rfl | he := List.mem_cons.1 he
        · exact hbefore
        · exact hbefore.trans (hj e he)
      rw [if_pos hbefore, lookup_toList_append, hnone]
      split_ifs with hlk
      · rw [hlk, hnone, Option.or_none]
      · rfl
    by_cases hkj : k = j
    · subst hkj
      have hnone : es.lookup k = none := lookup_eq_none_of_before hj
      rw [if_neg hbefore, if_pos rfl, lookup_toList_append, lookup_cons, lookup_cons, if_pos rfl]
      split_ifs with hlk
      · rw [hlk, hnone, Option.or_none]
      · rfl
    · rw [if_neg hbefore, if_neg hkj, lookup_cons, lookup_cons, lookup_cons, ih hsorted,
        if_neg hkj]
      split_ifs with hlj hlk
      · exact absurd (hlk.symm.trans hlj) hkj
      · rfl
      · rfl
      · rfl

/-- Nothing is found in the empty map. -/
@[simp] theorem get?_empty (k : IndexPair) : (empty : Sparse α).get? k = none := rfl

/-- A value put at a key is found there. -/
theorem get?_insert (m : Sparse α) (k l : IndexPair) (v : α) :
    (m.insert k v).get? l = if l = k then some v else m.get? l :=
  get?_alter m k l _

/-- An entry that is removed is not found. -/
theorem get?_erase (m : Sparse α) (k l : IndexPair) :
    (m.erase k).get? l = if l = k then none else m.get? l :=
  get?_alter m k l _

/-- What is added at a key is found there. -/
theorem get?_addAt [Add α] [OfNat α 0] (m : Sparse α) (k l : IndexPair) (v : α) :
    (m.addAt k v).get? l = if l = k then some ((m.get? k).getD 0 + v) else m.get? l :=
  get?_alter m k l _

/-! ## Whole maps -/

/-- Entries put into a map one after another are found, the last of them first. -/
theorem get?_foldl_insert (es : List (IndexPair × α)) (m : Sparse α) (k : IndexPair) :
    (es.foldl (fun m e => m.insert e.1 e.2) m).get? k =
      (es.reverse.lookup k).or (m.get? k) := by
  induction es generalizing m with
  | nil => simp
  | cons e es ih =>
    rw [List.foldl_cons, ih, get?_insert, List.reverse_cons, List.lookup_append, Option.or_assoc]
    obtain ⟨j, x⟩ := e
    rw [lookup_cons]
    split_ifs <;> rfl

/-- The map of entries with different keys. -/
theorem get?_ofList {es : List (IndexPair × α)} (h : (es.map Prod.fst).Nodup) :
    (ofList es).get? k = some v ↔ (k, v) ∈ es := by
  have hreverse : (es.reverse.map Prod.fst).Nodup := by
    rw [List.map_reverse]
    exact List.nodup_reverse.2 h
  rw [ofList, get?_foldl_insert, get?_empty, Option.or_none, lookup_eq_some_iff hreverse,
    List.mem_reverse]

/-- Renumbered entries are found under their new keys, if no two keys get the same. -/
theorem get?_mapKeys? {f : IndexPair → Option IndexPair} (m : Sparse α)
    (hf : ∀ a b c, f a = some c → f b = some c → a = b) :
    (m.mapKeys? f).get? l = some v ↔ ∃ k, f k = some l ∧ m.get? k = some v := by
  have hkeys : (m.entries.filterMap fun e => (f e.1).map fun k => (k, e.2)).map Prod.fst =
      (m.entries.map Prod.fst).filterMap f := by
    rw [List.map_filterMap, List.filterMap_map]
    congr 1
    funext e
    show ((f e.1).map fun k => (k, e.2)).map Prod.fst = f e.1
    cases f e.1 <;> rfl
  -- The new keys are different, so no entry overwrites another.
  have hnodup : ((m.entries.filterMap fun e => (f e.1).map fun k => (k, e.2)).map
      Prod.fst).Nodup := by
    rw [hkeys]
    exact m.sorted.nodup_keys.filterMap fun a b c ha hb => hf a b c ha hb
  rw [mapKeys?, get?_ofList hnodup, List.mem_filterMap]
  constructor
  · rintro ⟨⟨k, x⟩, hmem, hk⟩
    obtain ⟨l', hl', heq⟩ := Option.map_eq_some_iff.1 hk
    cases heq
    exact ⟨k, hl', get?_eq_some_iff.2 hmem⟩
  · rintro ⟨k, hk, hv⟩
    exact ⟨(k, v), get?_eq_some_iff.1 hv, by simp [hk]⟩

/-- Entries whose first index is renumbered are found under the new one, if no two indexes get the
same. -/
theorem get?_renumbered {f : ℕ → Option ℕ} (m : Sparse α)
    (hf : ∀ a b c, f a = some c → f b = some c → a = b) {c i : ℕ} :
    (m.mapKeys? fun p => (f p.1).map fun a => (a, p.2)).get? (c, i) = some v ↔
      ∃ a, f a = some c ∧ m.get? (a, i) = some v := by
  -- The second index stays, so a key is given by its new number and that index.
  have hkeys : ∀ p q r : IndexPair, (f p.1).map (fun a => (a, p.2)) = some r →
      (f q.1).map (fun a => (a, q.2)) = some r → p = q := by
    rintro ⟨p, p'⟩ ⟨q, q'⟩ ⟨r, r'⟩ hp hq
    obtain ⟨s, hs, heq⟩ := Option.map_eq_some_iff.1 hp
    obtain ⟨t, ht, heq'⟩ := Option.map_eq_some_iff.1 hq
    cases heq
    cases heq'
    exact Prod.ext (hf p q _ hs ht) rfl
  rw [get?_mapKeys? m hkeys]
  constructor
  · rintro ⟨⟨a, i'⟩, hk, hv⟩
    obtain ⟨c', hc', heq⟩ := Option.map_eq_some_iff.1 hk
    cases heq
    exact ⟨a, hc', hv⟩
  · rintro ⟨a, ha, hv⟩
    exact ⟨(a, i), by simp [ha], hv⟩

/-- Entries with their keys exchanged have different keys. -/
theorem nodup_swapped (m : Sparse α) :
    ((m.entries.map fun e => (e.1.swap, e.2)).map Prod.fst).Nodup := by
  rw [List.map_map, show Prod.fst ∘ (fun e : IndexPair × α => (e.1.swap, e.2)) =
    Prod.swap ∘ Prod.fst from rfl, ← List.map_map]
  exact m.sorted.nodup_keys.map Prod.swap_injective

/-- The entries with their keys exchanged. -/
theorem mem_swapped {m : Sparse α} :
    (k, v) ∈ m.entries.map (fun e => (e.1.swap, e.2)) ↔ m.get? k.swap = some v := by
  rw [get?_eq_some_iff, List.mem_map]
  constructor
  · rintro ⟨⟨j, x⟩, hmem, heq⟩
    cases heq
    simpa using hmem
  · intro hmem
    exact ⟨(k.swap, v), hmem, by simp⟩

/-- A transposed entry is found under the exchanged key. -/
theorem get?_transpose (m : Sparse α) (k : IndexPair) :
    m.transpose.get? k = m.get? k.swap :=
  Option.ext fun _ => (get?_ofList m.nodup_swapped).trans mem_swapped

/-! ## Summing up -/

section Sums

variable [Add α] [OfNat α 0] {es : List (IndexPair × α)}

/-- Entries with different keys, added to a map without them one after another, are found as they
are, if adding them to zero does not change them. -/
theorem get?_foldl_addAt (m : Sparse α) (hnodup : (es.map Prod.fst).Nodup)
    (hzero : ∀ e ∈ es, 0 + e.2 = e.2) (hnew : ∀ e ∈ es, m.get? e.1 = none) (k : IndexPair) :
    (es.foldl (fun m e => m.addAt e.1 e.2) m).get? k = (es.lookup k).or (m.get? k) := by
  induction es generalizing m with
  | nil => rfl
  | cons e es ih =>
    obtain ⟨l, x⟩ := e
    obtain ⟨hl, hes⟩ := List.nodup_cons.1 hnodup
    have hne : ∀ e ∈ es, e.1 ≠ l := fun e he h =>
      hl (List.mem_map.2 ⟨e, he, h⟩)
    have hadd : 0 + x = x := hzero (l, x) (List.mem_cons_self ..)
    have hlnew : m.get? l = none := hnew (l, x) (List.mem_cons_self ..)
    -- The first entry is added to nothing, and the others have other keys.
    rw [List.foldl_cons, ih _ hes fun e he => hzero e (List.mem_cons_of_mem _ he), lookup_cons,
      get?_addAt, hlnew, Option.getD_none, hadd]
    · split_ifs with hk
      · have hnone : es.lookup k = none := by
          rw [List.lookup_eq_none_iff]
          intro e he
          simpa [hk] using (hne e he).symm
        rw [hnone]
        rfl
      · rfl
    · intro e he
      rw [get?_addAt, if_neg (hne e he)]
      exact hnew e (List.mem_cons_of_mem _ he)

/-- A map is the sum of entries with different keys that it holds. -/
theorem sum_eq {m : Sparse α} (hnodup : (es.map Prod.fst).Nodup)
    (hzero : ∀ e ∈ es, 0 + e.2 = e.2) (hmem : ∀ k v, (k, v) ∈ es ↔ m.get? k = some v) :
    es.foldl (fun m e => m.addAt e.1 e.2) empty = m := by
  refine ext_get? fun k => Option.ext fun v => ?_
  rw [get?_foldl_addAt empty hnodup hzero fun _ _ => rfl, get?_empty, Option.or_none,
    lookup_eq_some_iff hnodup]
  exact hmem k v

end Sums

end MathProgram.Sparse

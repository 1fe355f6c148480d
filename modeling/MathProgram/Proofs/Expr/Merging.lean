import Mathlib.Algebra.BigOperators.Ring.List
import Mathlib.Order.Lattice
import MathProgram.Proofs.Basic

/-!
# Sorting and merging by a key

A list of terms, each a thing and a coefficient, is merged by sorting it by the keys of the things
and adding up neighbours with the same key. The merged list is in strict order of the keys
(`pairwise_collect`), and it has just the terms that `gather?` makes out of the terms with one key:
the first of the things, with the sum of the coefficients from left to right (`mem_collect_iff`).
The sort is stable, so the first thing and the order of the sum are those of the list as it was
written.

So a merged list shows under each key the sum of the coefficients with that key
(`mem_keyed_collect`), and two lists that are merged differ in nothing but the things if and only if
these sums agree (`keyed_collect_eq_iff`). Merging a merged list does nothing (`collect_collect`),
and where the things have weights that depend on their keys, merging keeps the total
(`total_collect`).
-/

namespace MathProgram

variable {κ β α : Type}

/-- The sum of coefficients from left to right, if there are any. -/
def sum? [Add α] : List α → Option α
  | [] => none
  | v :: vs => some (vs.foldl (· + ·) v)

/-- Where addition commutes and associates, a sum does not depend on the order. -/
theorem sum?_of_perm [AddCommSemigroup α] {vs ws : List α} (h : vs.Perm ws) :
    sum? vs = sum? ws := by
  have hcomm : RightCommutative fun x y : α => x + y := ⟨add_right_comm⟩
  induction h with
  | nil => rfl
  | cons v h _ => exact congrArg some (h.foldl_eq v)
  | swap v w vs =>
    have hswap : w + v = v + w := add_comm w v
    simp only [sum?, List.foldl_cons, hswap]
  | trans _ _ ih ih' => exact ih.trans ih'

namespace Merging

/-- The first thing of a list of terms with the sum of the coefficients, if there are any. -/
def gather? [Add α] : List (β × α) → Option (β × α)
  | [] => none
  | t :: ts => some (t.1, (ts.map (·.2)).foldl (· + ·) t.2)

/-- What terms gather to: their first thing and the sum of their coefficients. -/
theorem gather?_eq_some_iff [Add α] {ts : List (β × α)} {u : β × α} :
    gather? ts = some u ↔ (ts.map (·.1)).head? = some u.1 ∧ sum? (ts.map (·.2)) = some u.2 := by
  cases ts with
  | nil => exact ⟨nofun, fun h => nomatch h.1⟩
  | cons t ts => rw [gather?, List.map_cons, List.head?_cons, List.map_cons, sum?, Option.some_inj,
      Option.some_inj, Option.some_inj, Prod.ext_iff]

/-! ## Totals -/

section

variable [NonUnitalNonAssocSemiring α] {w : β → α} {t : β × α} {ss ts : List (β × α)}

/-- The sum of the coefficients, each multiplied by the weight of its thing. -/
def total (w : β → α) (ts : List (β × α)) : α := (ts.map fun t => t.2 * w t.1).sum

@[simp] theorem total_nil : total w ([] : List (β × α)) = 0 := rfl

@[simp] theorem total_cons : total w (t :: ts) = t.2 * w t.1 + total w ts := List.sum_cons

@[simp] theorem total_append : total w (ss ++ ts) = total w ss + total w ts := by
  rw [total, List.map_append, List.sum_append, total, total]

/-- The order of the terms does not matter for the total. -/
theorem total_of_perm (h : ss.Perm ts) : total w ss = total w ts := (h.map _).sum_eq

/-- The total is that of the terms that are picked out and that of the others. -/
theorem total_filter_add (p : β × α → Bool) (ts : List (β × α)) :
    total w (ts.filter p) + total w (ts.filter fun t => !p t) = total w ts := by
  rw [← total_append]
  exact total_of_perm (List.filter_append_perm p ts)

/-- The total of terms with one weight. -/
theorem total_of_weight {v : α} (h : ∀ t ∈ ts, w t.1 = v) :
    total w ts = (ts.map (·.2)).sum * v := by
  rw [total, ← List.sum_map_mul_right]
  exact congrArg List.sum (List.map_congr_left fun t ht => by rw [h t ht])

end

/-! ## Sorting and adding up -/

section

variable [LinearOrder κ] (key : β → κ) {c : κ} {t u : β × α} {ss ts : List (β × α)}

/-- The terms with a key, in order. -/
def withKey (c : κ) (ts : List (β × α)) : List (β × α) := ts.filter fun t => key t.1 = c

/-- The order of terms by their keys. -/
def keyLe (s t : β × α) : Bool := decide (key s.1 ≤ key t.1)

/-- Adds up the terms at the front that have the key of the term held, and goes on with the next
key. -/
def mergeFrom [Add α] (held : β × α) : List (β × α) → List (β × α)
  | [] => [held]
  | t :: ts =>
    if key held.1 = key t.1 then mergeFrom (held.1, held.2 + t.2) ts else held :: mergeFrom t ts

/-- Adds up neighbouring terms with the same key. -/
def merge [Add α] : List (β × α) → List (β × α)
  | [] => []
  | t :: ts => mergeFrom key t ts

/-- Sorts the terms by their keys and adds up those with the same key. -/
def collect [Add α] (ts : List (β × α)) : List (β × α) := merge key (ts.mergeSort (keyLe key))

variable {key}

theorem withKey_cons_of_eq (h : key t.1 = c) : withKey key c (t :: ts) = t :: withKey key c ts :=
  List.filter_cons_of_pos (by simpa using h)

theorem withKey_cons_of_ne (h : key t.1 ≠ c) : withKey key c (t :: ts) = withKey key c ts :=
  List.filter_cons_of_neg (by simpa using h)

theorem mem_withKey : t ∈ withKey key c ts ↔ t ∈ ts ∧ key t.1 = c := by
  rw [withKey, List.mem_filter, decide_eq_true_iff]

/-- The first of the things with a key. -/
theorem head?_withKey (c : κ) (ts : List (β × α)) :
    ((withKey key c ts).map (·.1)).head? = (ts.map (·.1)).find? fun x => key x = c := by
  rw [withKey, List.head?_map, List.head?_filter, List.find?_map]
  rfl

theorem keyLe_iff : keyLe key t u = true ↔ key t.1 ≤ key u.1 := decide_eq_true_iff

theorem keyLe_trans (s t u : β × α) (hst : keyLe key s t = true) (htu : keyLe key t u = true) :
    keyLe key s u = true := keyLe_iff.2 ((keyLe_iff.1 hst).trans (keyLe_iff.1 htu))

theorem keyLe_total (s t : β × α) : (keyLe key s t || keyLe key t s) = true := by
  rw [Bool.or_eq_true, keyLe_iff, keyLe_iff]
  exact le_total ..

/-- Sorted terms are in the order of their keys. -/
theorem pairwise_mergeSort (ts : List (β × α)) :
    (ts.mergeSort (keyLe key)).Pairwise fun s t => key s.1 ≤ key t.1 :=
  (List.pairwise_mergeSort keyLe_trans keyLe_total ts).imp keyLe_iff.1

/-- Sorting keeps the order of the terms with one key. -/
theorem withKey_mergeSort (c : κ) (ts : List (β × α)) :
    withKey key c (ts.mergeSort (keyLe key)) = withKey key c ts := by
  have hkeys : (withKey key c ts).Pairwise (keyLe key · · = true) := by
    refine List.pairwise_of_forall_mem_list fun s hs t ht => keyLe_iff.2 ?_
    rw [(mem_withKey.1 hs).2, (mem_withKey.1 ht).2]
  have hsub : (withKey key c ts).Sublist (withKey key c (ts.mergeSort (keyLe key))) := by
    have hsorted := (List.sublist_mergeSort keyLe_trans keyLe_total hkeys
      List.filter_sublist).filter fun t => decide (key t.1 = c)
    simpa only [withKey, List.filter_filter, Bool.and_self] using hsorted
  exact (hsub.eq_of_length ((List.mergeSort_perm ts _).filter _).length_eq.symm).symm

section

variable [Add α]

/-- What terms with one key gather to has the key, and so has one of the terms. -/
theorem exists_mem_of_gather? (h : gather? (withKey key c ts) = some u) :
    key u.1 = c ∧ ∃ t ∈ ts, t.1 = u.1 := by
  cases hsel : withKey key c ts with
  | nil =>
    rw [hsel] at h
    cases h
  | cons t rest =>
    rw [hsel] at h
    obtain ⟨hmem, hkey⟩ := mem_withKey.1 (hsel ▸ List.mem_cons_self : t ∈ withKey key c ts)
    cases h
    exact ⟨hkey, t, hmem, rfl⟩

/-- The terms with the key of one of them gather to something. -/
theorem exists_gather? (h : t ∈ ts) : ∃ u, gather? (withKey key (key t.1) ts) = some u := by
  have hmem : t ∈ withKey key (key t.1) ts := mem_withKey.2 ⟨h, rfl⟩
  cases hsel : withKey key (key t.1) ts with
  | nil =>
    rw [hsel] at hmem
    cases hmem
  | cons s rest => exact ⟨_, rfl⟩

/-- Adding up two neighbours with the same key does not change what terms gather to. -/
theorem gather?_merge (h : key t.1 = key u.1) (c : κ) (ts : List (β × α)) :
    gather? (withKey key c ((t.1, t.2 + u.2) :: ts)) = gather? (withKey key c (t :: u :: ts)) := by
  by_cases hc : key t.1 = c
  · rw [withKey_cons_of_eq (t := (t.1, t.2 + u.2)) hc, withKey_cons_of_eq hc,
      withKey_cons_of_eq (h.symm.trans hc)]
    rfl
  · rw [withKey_cons_of_ne (t := (t.1, t.2 + u.2)) hc, withKey_cons_of_ne hc,
      withKey_cons_of_ne (h ▸ hc)]

/-- Of sorted terms, merging gives for each key what the terms with it gather to. -/
theorem mem_mergeFrom_iff (hsorted : (t :: ts).Pairwise fun s t => key s.1 ≤ key t.1) :
    u ∈ mergeFrom key t ts ↔ gather? (withKey key (key u.1) (t :: ts)) = some u := by
  induction ts generalizing t with
  | nil =>
    rw [mergeFrom, List.mem_singleton]
    by_cases hkey : key t.1 = key u.1
    · rw [withKey_cons_of_eq hkey]
      exact eq_comm.trans Option.some_inj.symm
    · rw [withKey_cons_of_ne hkey]
      exact ⟨fun h => absurd (h ▸ rfl) hkey, nofun⟩
  | cons s ts ih =>
    obtain ⟨ht, hss⟩ := List.pairwise_cons.1 hsorted
    rw [mergeFrom]
    split
    · rename_i hsame
      have hheld : ((t.1, t.2 + s.2) :: ts).Pairwise fun s t => key s.1 ≤ key t.1 :=
        List.pairwise_cons.2 ⟨fun v hv => ht v (List.mem_cons_of_mem s hv), hss.tail⟩
      rw [ih hheld, gather?_merge hsame]
    · rename_i hne
      -- The run has ended, so no later term has the key of the term held.
      have hlater : ∀ v ∈ s :: ts, key v.1 ≠ key t.1 := by
        intro v hv hv'
        refine hne (le_antisymm (ht s List.mem_cons_self) ?_)
        rw [← hv']
        obtain rfl | hmem := List.mem_cons.1 hv
        · exact le_rfl
        · exact List.rel_of_pairwise_cons hss hmem
      rw [List.mem_cons, ih hss]
      by_cases hkey : key t.1 = key u.1
      · have hnone : withKey key (key u.1) (s :: ts) = [] :=
          List.filter_eq_nil_iff.2 fun v hv => by simpa [← hkey] using hlater v hv
        rw [withKey_cons_of_eq hkey, hnone]
        exact ⟨fun h => h.elim (fun h => h ▸ rfl) nofun, fun h => .inl (Option.some.inj h).symm⟩
      · rw [withKey_cons_of_ne hkey]
        exact or_iff_right fun h => hkey (h ▸ rfl)

/-- Of sorted terms, merging gives terms in strict order. -/
theorem pairwise_mergeFrom (hsorted : (t :: ts).Pairwise fun s t => key s.1 ≤ key t.1) :
    (mergeFrom key t ts).Pairwise fun s t => key s.1 < key t.1 := by
  induction ts generalizing t with
  | nil => exact List.pairwise_singleton ..
  | cons s ts ih =>
    obtain ⟨ht, hss⟩ := List.pairwise_cons.1 hsorted
    rw [mergeFrom]
    split
    · exact ih (List.pairwise_cons.2 ⟨fun v hv => ht v (List.mem_cons_of_mem s hv), hss.tail⟩)
    · rename_i hne
      refine List.pairwise_cons.2 ⟨fun u hu => ?_, ih hss⟩
      have hlt : key t.1 < key s.1 := lt_of_le_of_ne (ht s List.mem_cons_self) hne
      obtain ⟨-, v, hv, hvu⟩ := exists_mem_of_gather? ((mem_mergeFrom_iff hss).1 hu)
      rw [← hvu]
      obtain rfl | hmem := List.mem_cons.1 hv
      · exact hlt
      · exact hlt.trans_le (List.rel_of_pairwise_cons hss hmem)

/-- There is nothing to merge in terms with different keys. -/
theorem mergeFrom_of_pairwise (h : (t :: ts).Pairwise fun s t => key s.1 < key t.1) :
    mergeFrom key t ts = t :: ts := by
  induction ts generalizing t with
  | nil => rfl
  | cons s ts ih =>
    have hne : ¬key t.1 = key s.1 := (List.rel_of_pairwise_cons h List.mem_cons_self).ne
    rw [mergeFrom, if_neg hne, ih h.tail]

theorem length_mergeFrom_le (t : β × α) (ts : List (β × α)) :
    (mergeFrom key t ts).length ≤ (t :: ts).length := by
  induction ts generalizing t with
  | nil => exact le_rfl
  | cons s ts ih =>
    rw [mergeFrom]
    split
    · exact (ih _).trans (Nat.le_succ _)
    · exact Nat.succ_le_succ (ih s)

/-- A merged list is in strict order of the keys. -/
theorem pairwise_collect (ts : List (β × α)) :
    (collect key ts).Pairwise fun s t => key s.1 < key t.1 := by
  have hsorted : (ts.mergeSort (keyLe key)).Pairwise fun s t => key s.1 ≤ key t.1 :=
    pairwise_mergeSort ts
  rw [collect]
  cases hts : ts.mergeSort (keyLe key) with
  | nil => exact .nil
  | cons t ts' => exact pairwise_mergeFrom (hts ▸ hsorted)

/-- A merged list has for each key what the terms with it gather to. -/
theorem mem_collect_iff : u ∈ collect key ts ↔ gather? (withKey key (key u.1) ts) = some u := by
  have hsorted : (ts.mergeSort (keyLe key)).Pairwise fun s t => key s.1 ≤ key t.1 :=
    pairwise_mergeSort ts
  rw [← withKey_mergeSort, collect]
  cases hts : ts.mergeSort (keyLe key) with
  | nil => exact ⟨nofun, nofun⟩
  | cons t ts' => exact mem_mergeFrom_iff (hts ▸ hsorted)

/-- A merged list is the only one in strict order of the keys that has nothing but what the terms
with a key gather to, and this for every key that there is. -/
theorem eq_collect_iff {us : List (β × α)} : us = collect key ts ↔
    (us.Pairwise fun s t => key s.1 < key t.1) ∧
      (∀ u ∈ us, gather? (withKey key (key u.1) ts) = some u) ∧
      ∀ t ∈ ts, ∃ u ∈ us, key u.1 = key t.1 := by
  constructor
  · rintro rfl
    refine ⟨pairwise_collect ts, fun u => mem_collect_iff.1, fun t ht => ?_⟩
    obtain ⟨u, hu⟩ : ∃ u, gather? (withKey key (key t.1) ts) = some u := exists_gather? ht
    have hkey : key u.1 = key t.1 := (exists_mem_of_gather? hu).1
    exact ⟨u, mem_collect_iff.2 (hkey ▸ hu), hkey⟩
  · rintro ⟨hpairwise, hgather, hcovers⟩
    refine eq_of_pairwise_of_mem_iff (fun s t => lt_asymm) hpairwise (pairwise_collect ts) ?_
    intro u
    rw [mem_collect_iff]
    refine ⟨hgather u, fun hu => ?_⟩
    -- Some term that is there has the key, and it is what the terms with the key gather to.
    obtain ⟨-, t, ht, htu⟩ := exists_mem_of_gather? hu
    obtain ⟨w, hw, hkey⟩ := hcovers t ht
    rw [htu] at hkey
    have hwu : some w = some u := (hgather w hw).symm.trans (hkey ▸ hu)
    exact Option.some.inj hwu ▸ hw

/-- A merged list shows the first things with each key. -/
theorem mem_things_collect {x : β} : x ∈ (collect key ts).map (·.1) ↔
    ((withKey key (key x) ts).map (·.1)).head? = some x := by
  rw [List.mem_map]
  constructor
  · rintro ⟨u, hu, rfl⟩
    exact (gather?_eq_some_iff.1 (mem_collect_iff.1 hu)).1
  · intro hfirst
    cases hsel : withKey key (key x) ts with
    | nil =>
      rw [hsel] at hfirst
      cases hfirst
    | cons t rest =>
      rw [hsel] at hfirst
      obtain rfl : t.1 = x := Option.some.inj hfirst
      refine ⟨(t.1, (rest.map (·.2)).foldl (· + ·) t.2), mem_collect_iff.2 ?_, rfl⟩
      exact congrArg gather? hsel

/-- Merging gives no more terms than there were. -/
theorem length_collect_le (ts : List (β × α)) : (collect key ts).length ≤ ts.length := by
  rw [← (List.mergeSort_perm ts (keyLe key)).length_eq, collect]
  cases ts.mergeSort (keyLe key) with
  | nil => exact le_rfl
  | cons t ts' => exact length_mergeFrom_le t ts'

/-- Merging a list in strict order does nothing. -/
theorem collect_of_pairwise (h : ts.Pairwise fun s t => key s.1 < key t.1) :
    collect key ts = ts := by
  rw [collect, List.mergeSort_of_pairwise (h.imp fun hst => keyLe_iff.2 hst.le)]
  cases ts with
  | nil => rfl
  | cons t ts => exact mergeFrom_of_pairwise h

/-- Merging a merged list does nothing. -/
theorem collect_collect (ts : List (β × α)) : collect key (collect key ts) = collect key ts :=
  collect_of_pairwise (pairwise_collect ts)

/-! ## Keys and coefficients -/

/-- A merged list shows the keys that there are. -/
theorem mem_keys_collect : c ∈ (collect key ts).map (key ·.1) ↔ ∃ t ∈ ts, key t.1 = c := by
  rw [List.mem_map]
  constructor
  · rintro ⟨u, hu, hkey⟩
    obtain ⟨-, t, ht, htu⟩ := exists_mem_of_gather? (mem_collect_iff.1 hu)
    exact ⟨t, ht, htu ▸ hkey⟩
  · rintro ⟨t, ht, rfl⟩
    exact (eq_collect_iff.1 rfl).2.2 t ht

/-- Merged lists have the same keys if and only if the lists have. -/
theorem keys_collect_eq_iff :
    (collect key ss).map (key ·.1) = (collect key ts).map (key ·.1) ↔
      ∀ c, (∃ t ∈ ss, key t.1 = c) ↔ ∃ t ∈ ts, key t.1 = c := by
  constructor
  · intro h c
    rw [← mem_keys_collect, h, mem_keys_collect]
  · intro h
    have hpairwise (ts : List (β × α)) : ((collect key ts).map (key ·.1)).Pairwise (· < ·) :=
      List.pairwise_map.2 (pairwise_collect ts)
    refine eq_of_pairwise_of_mem_iff (fun c d => lt_asymm) (hpairwise ss) (hpairwise ts) fun c => ?_
    rw [mem_keys_collect, h, mem_keys_collect]

variable (key) in
/-- The terms by their keys, without the things. -/
def keyed (ts : List (β × α)) : List (κ × α) := ts.map fun t => (key t.1, t.2)

variable (key) in
/-- The coefficients of the terms with a key, in order. -/
def coefsAt (c : κ) (ts : List (β × α)) : List α := (withKey key c ts).map (·.2)

/-- A merged list shows the sum of the coefficients with each key. -/
theorem mem_keyed_collect {v : α} :
    (c, v) ∈ keyed key (collect key ts) ↔ sum? (coefsAt key c ts) = some v := by
  rw [keyed, List.mem_map]
  constructor
  · rintro ⟨u, hu, heq⟩
    obtain ⟨rfl, rfl⟩ := Prod.mk.inj heq
    exact (gather?_eq_some_iff.1 (mem_collect_iff.1 hu)).2
  · intro hsum
    cases hsel : withKey key c ts with
    | nil =>
      rw [coefsAt, hsel] at hsum
      cases hsum
    | cons t rest =>
      have hgather : gather? (withKey key c ts) = some (t.1, v) := by
        rw [gather?_eq_some_iff]
        exact ⟨by rw [hsel]; rfl, hsum⟩
      have hkey : key t.1 = c := (exists_mem_of_gather? hgather).1
      refine ⟨(t.1, v), mem_collect_iff.2 ?_, Prod.ext hkey rfl⟩
      rw [hkey, hgather]

/-- Merged lists agree but for the things if and only if for each key the sums do. -/
theorem keyed_collect_eq_iff : keyed key (collect key ss) = keyed key (collect key ts) ↔
    ∀ c, sum? (coefsAt key c ss) = sum? (coefsAt key c ts) := by
  constructor
  · intro h c
    refine Option.ext fun v => ?_
    rw [← mem_keyed_collect, h, mem_keyed_collect]
  · intro h
    have hpairwise (ts : List (β × α)) :
        (keyed key (collect key ts)).Pairwise fun s t => s.1 < t.1 :=
      List.pairwise_map.2 (pairwise_collect ts)
    refine eq_of_pairwise_of_mem_iff (fun s t => lt_asymm) (hpairwise ss) (hpairwise ts) fun e => ?_
    rw [mem_keyed_collect, h, mem_keyed_collect]

end

section

variable [NonUnitalNonAssocSemiring α] {w : β → α}

/-- Adding up neighbours keeps the total, if things with the same key have the same weight. -/
theorem total_mergeFrom (hw : ∀ x y, key x = key y → w x = w y) (t : β × α) (ts : List (β × α)) :
    total w (mergeFrom key t ts) = total w (t :: ts) := by
  induction ts generalizing t with
  | nil => rfl
  | cons s ts ih =>
    rw [mergeFrom]
    split
    · rename_i hsame
      rw [ih, total_cons, total_cons, total_cons, ← hw _ _ hsame, add_mul, add_assoc]
    · rw [total_cons, ih, total_cons (t := t)]

/-- Merging keeps the total, if things with the same key have the same weight. -/
theorem total_collect (hw : ∀ x y, key x = key y → w x = w y) (ts : List (β × α)) :
    total w (collect key ts) = total w ts := by
  rw [← total_of_perm (List.mergeSort_perm ts (keyLe key)), collect]
  cases ts.mergeSort (keyLe key) with
  | nil => rfl
  | cons t ts => exact total_mergeFrom hw t ts

end

end

end Merging

end MathProgram

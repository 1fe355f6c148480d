import Mathlib.Data.Sym.Sym2
import MathProgram.Proofs.Expr.Sums
import MathProgram.Proofs.Expr.Values

/-!
# The canonical form of a quadratic expression

Merging quadratic terms puts the variables of each pair in the order of their indexes, sorts the
pairs by their `place`, and adds up the terms for one pair. Of all lists just one `IsMerged` from a
given list in this way, and merging gives this list (`isMerged_iff`).

Variables of different models may have one index. Such a pair is `Tied`: no order of its indexes
puts one variable first, so it stands as it was written, and the pair in the other order is another
pair. For all other pairs the merged list depends neither on the order of the terms nor on which
variable of a product was written first. `QuadExpr.purge_canonical` describes the form, and
`QuadExpr.purge_of_rearranged` says exactly when it is that of a rearranged expression.
-/

namespace MathProgram

variable {α : Type}

namespace QuadTerm

variable {p q : Var × Var}

/-! ## The variables of a pair -/

/-- The variables of a pair by models and indexes, without the generations of the handles. -/
def names (p : Var × Var) : (ModelId × ℕ) × (ModelId × ℕ) :=
  ((p.1.model, p.1.index), (p.2.model, p.2.index))

/-- The variables of a pair without their order. -/
def unordered (p : Var × Var) : Sym2 (ModelId × ℕ) := Sym2.mk (names p).1 (names p).2

theorem names_eq_iff : names p = names q ↔ (p.1.model = q.1.model ∧ p.1.index = q.1.index) ∧
    p.2.model = q.2.model ∧ p.2.index = q.2.index := by
  simp only [names, Prod.mk.injEq]

theorem unordered_eq_iff : unordered p = unordered q ↔ names p = names q ∨
    (p.1.model = q.2.model ∧ p.1.index = q.2.index) ∧
      p.2.model = q.1.model ∧ p.2.index = q.1.index := by
  simp only [unordered, names, Sym2.eq_iff, Prod.mk.injEq]

/-- The value of a product depends neither on the order of the variables nor on generations. -/
theorem pairValue_congr [CommRing α] {ρ : Assignment α} (h : unordered p = unordered q) :
    pairValue ρ p = pairValue ρ q := by
  simp only [pairValue, Handle.value]
  rw [unordered_eq_iff, names_eq_iff] at h
  obtain ⟨⟨hm, hi⟩, hm', hi'⟩ | ⟨⟨hm, hi⟩, hm', hi'⟩ := h
  · rw [hm, hi, hm', hi']
  · rw [hm, hi, hm', hi', mul_comm]

/-! ## Pairs in the order of their indexes -/

/-- The pair with the variables exchanged if the first has the larger index. -/
def ordered (p : Var × Var) : Var × Var := if p.1.index ≤ p.2.index then p else p.swap

/-- Orienting a term puts its pair in order. -/
theorem oriented_eq (t : QuadTerm α) : t.oriented = (ordered t.1, t.2) := by
  rw [oriented, ordered]
  split_ifs <;> first | rfl | omega

/-- The indexes of an ordered pair are in order. -/
theorem ordered_le (p : Var × Var) : (ordered p).1.index ≤ (ordered p).2.index := by
  rw [ordered]
  split_ifs with h
  · exact h
  · exact (not_le.1 h).le

/-- Ordering a pair keeps its variables. -/
theorem unordered_ordered (p : Var × Var) : unordered (ordered p) = unordered p := by
  rw [ordered]
  split_ifs
  · rfl
  · exact Sym2.eq_swap

/-- Where a pair stands in the order of pairs: by the two indexes, then by the two models. -/
def place (p : Var × Var) : ℕ ×ₗ ℕ ×ₗ ModelId ×ₗ ModelId :=
  toLex (p.1.index, toLex (p.2.index, toLex (p.1.model, p.2.model)))

theorem place_eq_iff :
    place p = place q ↔ p.1.place = q.1.place ∧ p.2.place = q.2.place := by
  simp only [place, Handle.place, toLex_inj, Prod.mk.injEq]
  tauto

/-- Pairs stand at one place if they have the same names. -/
theorem place_eq_iff_names : place p = place q ↔ names p = names q := by
  simp only [place, toLex_inj, names, Prod.mk.injEq]
  tauto

/-- Pairs name the same variables in the same order if they stand at one place. -/
theorem samePair_eq (p : Var × Var) : samePair p = fun q => decide (place q = place p) := by
  funext q
  rw [Bool.eq_iff_iff, samePair, Bool.and_eq_true, Handle.same_iff_place, Handle.same_iff_place,
    decide_eq_true_iff, place_eq_iff]
  exact and_congr eq_comm eq_comm

theorem samePair_iff : samePair p q = true ↔ place p = place q := by
  rw [samePair_eq, decide_eq_true_iff, eq_comm]

/-- Terms are in the order of the places of their pairs. -/
theorem keyLe_eq : (keyLe : QuadTerm α → QuadTerm α → Bool) = Merging.keyLe place := by
  funext s t
  rw [Bool.eq_iff_iff, Merging.keyLe_iff, place, place]
  simp only [keyLe, List.lex, Prod.Lex.toLex_le_toLex, Bool.and_false, Bool.or_false, Bool.not_or,
    Bool.not_and, Bool.and_eq_true, Bool.not_eq_true', Bool.or_eq_true, decide_eq_false_iff_not,
    beq_eq_false_iff_ne]
  unfold ModelId
  omega

/-! ## The merged list -/

/-- The coefficients of the terms for a pair, once their own pairs are in order. -/
def coefsOf (p : Var × Var) (ts : List (QuadTerm α)) : List α :=
  (ts.filter fun t => samePair p (ordered t.1)).map (·.2)

/-- They are those at the place of the pair. -/
theorem coefsOf_eq_coefsAt (p : Var × Var) (ts : List (QuadTerm α)) :
    coefsOf p ts = Merging.coefsAt place (place p) (ts.map oriented) := by
  rw [coefsOf, Merging.coefsAt, Merging.withKey, List.filter_map, List.map_map, samePair_eq]
  simp only [Function.comp_def, oriented_eq]

section

variable [Add α] {ts us : List (QuadTerm α)}

/-- Neighbours are added up by the places of their pairs. -/
theorem mergeRunsFrom_eq (t : QuadTerm α) (ts : List (QuadTerm α)) :
    mergeRunsFrom t ts = Merging.mergeFrom place t ts := by
  induction ts generalizing t with
  | nil => rfl
  | cons u ts ih => simp only [mergeRunsFrom, Merging.mergeFrom, samePair_iff, ih]

/-- Merging is by the places of the pairs. -/
theorem purge_eq_collect (ts : List (QuadTerm α)) :
    purge ts = Merging.collect place (ts.map oriented) := by
  rw [purge, Merging.collect, keyLe_eq]
  cases (ts.map oriented).mergeSort (Merging.keyLe place) with
  | nil => rfl
  | cons t ts => exact mergeRunsFrom_eq t ts

/-- A list of quadratic terms holds the sums of another, each under the first of the pairs for its
variables. -/
structure IsMerged (ts us : List (QuadTerm α)) : Prop where
  le : ∀ u ∈ us, u.1.1.index ≤ u.1.2.index
  increasing : us.Pairwise fun s t => place s.1 < place t.1
  /-- The pair is that of the first term for its variables, once that is in order. -/
  first : ∀ u ∈ us, (ts.map (ordered ·.1)).find? (samePair u.1) = some u.1
  /-- The coefficient is the sum of those that the terms have for the pair, from left to right. -/
  sum : ∀ u ∈ us, sum? (coefsOf u.1 ts) = some u.2
  covers : ∀ t ∈ ts, ∃ u ∈ us, samePair u.1 (ordered t.1) = true

/-- Merging gives the only merged list. -/
theorem isMerged_iff : IsMerged ts us ↔ us = purge ts := by
  have hgather (u : QuadTerm α) :
      Merging.gather? (Merging.withKey place (place u.1) (ts.map oriented)) = some u ↔
        (ts.map (ordered ·.1)).find? (samePair u.1) = some u.1 ∧
          sum? (coefsOf u.1 ts) = some u.2 := by
    have hpairs : (ts.map oriented).map (·.1) = ts.map (ordered ·.1) := by
      simp only [List.map_map, Function.comp_def, oriented_eq]
    rw [Merging.gather?_eq_some_iff, Merging.head?_withKey, hpairs, samePair_eq,
      coefsOf_eq_coefsAt, Merging.coefsAt]
  rw [purge_eq_collect, Merging.eq_collect_iff]
  constructor
  · intro h
    refine ⟨h.increasing, fun u hu => (hgather u).2 ⟨h.first u hu, h.sum u hu⟩, fun t ht => ?_⟩
    obtain ⟨s, hs, rfl⟩ := List.mem_map.1 ht
    obtain ⟨u, hu, hsame⟩ := h.covers s hs
    rw [oriented_eq]
    exact ⟨u, hu, samePair_iff.1 hsame⟩
  · rintro ⟨hincreasing, hsums, hcovers⟩
    refine ⟨fun u hu => ?_, hincreasing, fun u hu => ((hgather u).1 (hsums u hu)).1,
      fun u hu => ((hgather u).1 (hsums u hu)).2, fun t ht => ?_⟩
    · obtain ⟨p, -, hp⟩ := List.mem_map.1
        (List.mem_of_find?_eq_some ((hgather u).1 (hsums u hu)).1)
      rw [← hp]
      exact ordered_le p.1
    · obtain ⟨u, hu, hplace⟩ := hcovers t.oriented (List.mem_map_of_mem ht)
      rw [oriented_eq] at hplace
      exact ⟨u, hu, samePair_iff.2 hplace⟩

/-- Merging gives a merged list. -/
theorem isMerged_purge (ts : List (QuadTerm α)) : IsMerged ts (purge ts) := isMerged_iff.2 rfl

/-- Merging a merged list does nothing. -/
theorem purge_purge (ts : List (QuadTerm α)) : purge (purge ts) = purge ts := by
  have horiented : (purge ts).map oriented = purge ts := by
    refine (List.map_congr_left fun u hu => ?_).trans (List.map_id _)
    rw [oriented_eq, ordered, if_pos ((isMerged_purge ts).le u hu), id]
  rw [purge_eq_collect, horiented, purge_eq_collect, Merging.collect_collect]

end

/-- Merging keeps the value. -/
theorem eval_purge [CommRing α] {ρ : Assignment α} (ts : List (QuadTerm α)) :
    eval ρ (purge ts) = eval ρ ts := by
  have hplace (p q : Var × Var) (h : place p = place q) : pairValue ρ p = pairValue ρ q :=
    pairValue_congr (unordered_eq_iff.2 (.inl (place_eq_iff_names.1 h)))
  have hordered (p : Var × Var) : pairValue ρ (ordered p) = pairValue ρ p :=
    pairValue_congr (unordered_ordered p)
  rw [purge_eq_collect, eval, Merging.total_collect hplace, Merging.total, List.map_map, eval,
    Merging.total]
  simp only [Function.comp_def, oriented_eq, hordered]

/-! ## Rearranged terms -/

/-- The quadratic terms of two lists are the same but for the order of the terms and the order of
the variables in each of them. -/
def Rearranged (ss ts : List (QuadTerm α)) : Prop :=
  (ss.map fun t => (unordered t.1, t.2)).Perm (ts.map fun t => (unordered t.1, t.2))

/-- The variables of a pair have one index, in different models. -/
def Tied (p : Var × Var) : Prop := p.1.index = p.2.index ∧ p.1.model ≠ p.2.model

instance [DecidableEq α] (ss ts : List (QuadTerm α)) : Decidable (Rearranged ss ts) :=
  inferInstanceAs (Decidable (List.Perm _ _))

instance (p : Var × Var) : Decidable (Tied p) := inferInstanceAs (Decidable (_ ∧ _))

/-- Quadratic terms by the names of their variables. -/
def named (ts : List (QuadTerm α)) : List (((ModelId × ℕ) × (ModelId × ℕ)) × α) :=
  ts.map fun t => (names t.1, t.2)

section

variable {ss ts : List (QuadTerm α)}

/-- Variables that are tied are so in either order. -/
theorem tied_congr (h : unordered p = unordered q) : Tied p ↔ Tied q := by
  rw [unordered_eq_iff, names_eq_iff] at h
  unfold Tied ModelId at *
  omega

theorem tied_congr_names (h : names p = names q) : Tied p ↔ Tied q :=
  tied_congr (unordered_eq_iff.2 (.inl h))

/-- The names of an ordered pair that is not tied are those of the two variables in any order. -/
theorem names_ordered_eq_iff (hq : ¬Tied q) (hle : q.1.index ≤ q.2.index) :
    names (ordered p) = names q ↔ unordered p = unordered q := by
  rw [Tied] at hq
  rw [ordered, unordered_eq_iff]
  split_ifs
  · rw [names_eq_iff]
    unfold ModelId at *
    omega
  · rw [names_eq_iff, names_eq_iff]
    simp only [Prod.fst_swap, Prod.snd_swap]
    unfold ModelId at *
    omega

/-- Under the names of a tied pair stands what was written so. -/
theorem names_ordered_eq_iff_of_tied (hq : Tied q) :
    names (ordered p) = names q ↔ names p = names q := by
  obtain ⟨hindex, -⟩ := hq
  rw [ordered]
  split_ifs
  · exact Iff.rfl
  · rw [names_eq_iff, names_eq_iff]
    simp only [Prod.fst_swap, Prod.snd_swap]
    unfold ModelId
    omega

/-- Some term has the names of a pair that is not tied, once it is in order, if one is for its
variables. -/
theorem exists_names_ordered_iff (hp : ¬Tied p) : (∃ t ∈ ts, names (ordered t.1) = names p) ↔
    p.1.index ≤ p.2.index ∧ unordered p ∈ ts.map fun t => unordered t.1 := by
  rw [List.mem_map]
  constructor
  · rintro ⟨t, ht, hnames⟩
    have hle : p.1.index ≤ p.2.index := by
      obtain ⟨⟨-, hfirst⟩, -, hsecond⟩ := names_eq_iff.1 hnames
      rw [← hfirst, ← hsecond]
      exact ordered_le t.1
    exact ⟨hle, t, ht, (names_ordered_eq_iff hp hle).1 hnames⟩
  · rintro ⟨hle, t, ht, hunordered⟩
    exact ⟨t, ht, (names_ordered_eq_iff hp hle).2 hunordered⟩

/-- The coefficients for an ordered pair that is not tied are those for its two variables. -/
theorem coefsOf_eq_of_untied (hp : ¬Tied p) (hle : p.1.index ≤ p.2.index) : coefsOf p ts =
    ((ts.map fun t => (unordered t.1, t.2)).filter (·.1 = unordered p)).map (·.2) := by
  rw [List.filter_map, List.map_map, coefsOf, samePair_eq]
  simp only [Function.comp_def, place_eq_iff_names, names_ordered_eq_iff hp hle]

/-- There are coefficients for a pair just if some term has its names, once it is in order. -/
theorem coefsOf_eq_nil_iff : coefsOf p ts = [] ↔ ¬∃ t ∈ ts, names (ordered t.1) = names p := by
  rw [coefsOf, List.map_eq_nil_iff, List.filter_eq_nil_iff]
  simp only [samePair_iff, place_eq_iff_names, not_exists, not_and]
  exact forall₂_congr fun t _ => not_congr eq_comm

/-- Terms none of which is for a tied pair have no coefficients for one. -/
theorem coefsOf_of_untied (hts : ∀ t ∈ ts, ¬Tied t.1) (hp : Tied p) : coefsOf p ts = [] := by
  refine coefsOf_eq_nil_iff.2 fun ⟨t, ht, hnames⟩ => hts t ht ?_
  rw [names_ordered_eq_iff_of_tied hp] at hnames
  exact (tied_congr_names hnames).2 hp

namespace Rearranged

/-- Rearranged terms are for the same variables. -/
theorem mem_unordered_iff (h : Rearranged ss ts) (z : Sym2 (ModelId × ℕ)) :
    (z ∈ ss.map fun t => unordered t.1) ↔ z ∈ ts.map fun t => unordered t.1 := by
  have hperm := h.map Prod.fst
  rw [List.map_map, List.map_map] at hperm
  exact hperm.mem_iff

/-- Rearranging terms does not tie variables. -/
theorem untied (h : Rearranged ss ts) (hss : ∀ t ∈ ss, ¬Tied t.1) : ∀ t ∈ ts, ¬Tied t.1 := by
  intro t ht htied
  obtain ⟨s, hs, heq⟩ := List.mem_map.1 ((h.mem_unordered_iff _).2 (List.mem_map_of_mem ht))
  exact hss s hs ((tied_congr heq).2 htied)

/-- Rearranging does not change the sum for a pair that is not tied. -/
theorem sum?_coefsOf [AddCommSemigroup α] (h : Rearranged ss ts) (hp : ¬Tied p) :
    sum? (coefsOf p ss) = sum? (coefsOf p ts) := by
  by_cases hle : p.1.index ≤ p.2.index
  · rw [coefsOf_eq_of_untied hp hle, coefsOf_eq_of_untied hp hle]
    exact sum?_of_perm ((h.filter _).map _)
  · -- No pair in order has such indexes.
    have hnone (ts : List (QuadTerm α)) : coefsOf p ts = [] := by
      rw [coefsOf_eq_nil_iff, exists_names_ordered_iff hp]
      exact fun hnames => hle hnames.1
    rw [hnone, hnone]

end Rearranged

/-! ## Merging rearranged terms -/

section

variable [Add α]

/-- Merged lists are for the same pairs if and only if the lists are, once their pairs are in
order. -/
theorem names_purge_eq_iff :
    (purge ss).map (names ·.1) = (purge ts).map (names ·.1) ↔
      ∀ p, (∃ t ∈ ss, names (ordered t.1) = names p) ↔ ∃ t ∈ ts, names (ordered t.1) = names p := by
  have hplaces : (purge ss).map (names ·.1) = (purge ts).map (names ·.1) ↔
      (purge ss).map (place ·.1) = (purge ts).map (place ·.1) := by
    simp only [← List.forall₂_eq_eq_eq, List.forall₂_map_left_iff, List.forall₂_map_right_iff,
      place_eq_iff_names]
  have hkeys (ts : List (QuadTerm α)) (p : Var × Var) :
      (∃ t ∈ ts.map oriented, place t.1 = place p) ↔
        ∃ t ∈ ts, names (ordered t.1) = names p := by
    simp only [List.mem_map, exists_exists_and_eq_and, oriented_eq, place_eq_iff_names]
  rw [hplaces, purge_eq_collect, purge_eq_collect, Merging.keys_collect_eq_iff]
  constructor
  · intro h p
    rw [← hkeys, h, hkeys]
  · rintro h ⟨i, j, m, n⟩
    have hp := h (⟨m, i, 0⟩, ⟨n, j, 0⟩)
    rwa [← hkeys, ← hkeys] at hp

/-- Merged lists are for the same pairs with the same coefficients if and only if for each pair the
sums agree. -/
theorem named_purge_eq_iff : named (purge ss) = named (purge ts) ↔
    ∀ p, sum? (coefsOf p ss) = sum? (coefsOf p ts) := by
  have hkeyed : named (purge ss) = named (purge ts) ↔
      Merging.keyed place (purge ss) = Merging.keyed place (purge ts) := by
    simp only [named, Merging.keyed, ← List.forall₂_eq_eq_eq, List.forall₂_map_left_iff,
      List.forall₂_map_right_iff, Prod.mk.injEq, place_eq_iff_names]
  rw [hkeyed, purge_eq_collect, purge_eq_collect, Merging.keyed_collect_eq_iff]
  constructor
  · intro h p
    rw [coefsOf_eq_coefsAt, h, coefsOf_eq_coefsAt]
  · rintro h ⟨i, j, m, n⟩
    have hp := h (⟨m, i, 0⟩, ⟨n, j, 0⟩)
    rwa [coefsOf_eq_coefsAt, coefsOf_eq_coefsAt] at hp

/-- Merging rearranged terms gives the same pairs just if the same tied pairs were written. -/
theorem Rearranged.names_purge (h : Rearranged ss ts) :
    (purge ss).map (names ·.1) = (purge ts).map (names ·.1) ↔
      ∀ p, Tied p → ((∃ t ∈ ss, names t.1 = names p) ↔ ∃ t ∈ ts, names t.1 = names p) := by
  refine names_purge_eq_iff.trans ⟨fun hpairs p hp => ?_, fun hpairs p => ?_⟩
  · simpa only [names_ordered_eq_iff_of_tied hp] using hpairs p
  · by_cases hp : Tied p
    · simpa only [names_ordered_eq_iff_of_tied hp] using hpairs p hp
    · rw [exists_names_ordered_iff hp, exists_names_ordered_iff hp, h.mem_unordered_iff]

/-- In a merged list only a tied pair can occur in both orders. -/
theorem pairwise_unordered_purge (ts : List (QuadTerm α)) :
    (purge ts).Pairwise fun s t => unordered s.1 = unordered t.1 → Tied s.1 := by
  have hmerged := isMerged_purge ts
  refine hmerged.increasing.imp_of_mem fun {s t} hs ht hlt hsame => ?_
  have hne := hlt.ne
  rw [Ne, place_eq_iff_names] at hne
  have hswapped := (unordered_eq_iff.1 hsame).resolve_left hne
  have hles := hmerged.le s hs
  have hlet := hmerged.le t ht
  rw [names_eq_iff] at hne
  unfold Tied ModelId at *
  omega

/-- A tied pair stands in the merged list if it was written. -/
theorem exists_mem_purge_iff_of_tied (hp : Tied p) :
    (∃ u ∈ purge ts, names u.1 = names p) ↔ ∃ t ∈ ts, names t.1 = names p := by
  have hmerged := isMerged_purge ts
  constructor
  · rintro ⟨u, hu, hnames⟩
    obtain ⟨t, ht, hordered⟩ := List.mem_map.1 (List.mem_of_find?_eq_some (hmerged.first u hu))
    rw [← hordered, names_ordered_eq_iff_of_tied hp] at hnames
    exact ⟨t, ht, hnames⟩
  · rintro ⟨t, ht, hnames⟩
    obtain ⟨u, hu, hcovers⟩ := hmerged.covers t ht
    rw [samePair_iff, place_eq_iff_names] at hcovers
    exact ⟨u, hu, hcovers.trans ((names_ordered_eq_iff_of_tied hp).2 hnames)⟩

end

/-- Where addition commutes and associates, merging rearranged terms gives the same coefficients
just if it does for the tied pairs. -/
theorem Rearranged.named_purge [AddCommSemigroup α] (h : Rearranged ss ts) :
    named (purge ss) = named (purge ts) ↔
      ∀ p, Tied p → sum? (coefsOf p ss) = sum? (coefsOf p ts) := by
  refine named_purge_eq_iff.trans ⟨fun hsums p _ => hsums p, fun hsums p => ?_⟩
  by_cases hp : Tied p
  · exact hsums p hp
  · exact h.sum?_coefsOf hp

end

end QuadTerm

/-- Merging a quadratic expression keeps the value. -/
theorem QuadExpr.eval_purge [CommRing α] {ρ : Assignment α} (q : QuadExpr α) :
    q.purge.eval ρ = q.eval ρ := by
  rw [eval, purge, QuadTerm.eval_purge, LinearExpr.eval_purge, eval]

/-- Merging a quadratic expression merges its linear part and gives the one list of quadratic terms
that is merged from its own; no pair of variables occurs twice in it, the constant stays, and a
second time it changes nothing. In exact arithmetic it keeps the value under every assignment. -/
theorem QuadExpr.purge_canonical :
    (∀ {α : Type} [Add α] (q : QuadExpr α),
      (∀ r : QuadExpr α, q.purge = r ↔
        r.linear = q.linear.purge ∧ QuadTerm.IsMerged q.quad r.quad) ∧
      q.purge.linear.constant = q.linear.constant ∧
      (q.purge.quad.Pairwise fun s t => QuadTerm.samePair s.1 t.1 = false) ∧
      q.purge.purge = q.purge) ∧
    ∀ {α : Type} [CommRing α] (ρ : Assignment α) (q : QuadExpr α), q.purge.eval ρ = q.eval ρ := by
  constructor
  · intro α _ q
    refine ⟨fun r => ?_, rfl, ?_, ?_⟩
    · rw [QuadTerm.isMerged_iff, eq_comm, QuadExpr.purge]
      cases r
      rw [QuadExpr.mk.injEq]
    · refine (QuadTerm.isMerged_purge q.quad).increasing.imp fun hst => ?_
      rw [Bool.eq_false_iff, Ne, QuadTerm.samePair_iff]
      exact hst.ne
    · rw [QuadExpr.purge, QuadExpr.purge, LinearExpr.purge, LinearExpr.purge, Terms.purge_purge,
        QuadTerm.purge_purge]
  · intro α _ ρ q
    exact q.eval_purge

/-- Two orders of one product are merged under the pair of the first, with its handles. -/
example :
    let a : Var := ⟨0, 0, 1⟩
    let b : Var := ⟨0, 1, 0⟩
    let c : Var := ⟨0, 2, 0⟩
    QuadTerm.purge [((c, a), 1), ((b, b), 2), ((⟨0, 0, 0⟩, c), (3 : ℤ))] =
      [((a, c), 4), ((b, b), 2)] := by
  intro a b c
  refine (QuadTerm.isMerged_iff.1 ⟨?_, ?_, ?_, ?_, ?_⟩).symm <;> decide

open QuadTerm in
/-- Merging rearranged quadratic expressions gives the same pairs of variables, and in exact
arithmetic the same coefficients, just if the terms for tied pairs give the same. In a merged list
only a tied pair can occur in both orders, and it does so if it was written in both. So if no pair
is tied, the form is canonical. -/
theorem QuadExpr.purge_of_rearranged [Add α] (q r : QuadExpr α) (h : Rearranged q.quad r.quad) :
    (q.purge.quad.map (names ·.1) = r.purge.quad.map (names ·.1) ↔
      ∀ p, Tied p → ((∃ t ∈ q.quad, names t.1 = names p) ↔ ∃ t ∈ r.quad, names t.1 = names p)) ∧
    ((∀ x y z : α, x + y + z = x + (y + z)) → (∀ x y : α, x + y = y + x) →
      (named q.purge.quad = named r.purge.quad ↔
        ∀ p, Tied p → sum? (coefsOf p q.quad) = sum? (coefsOf p r.quad))) ∧
    ((q.purge.quad.Pairwise fun s t => unordered s.1 = unordered t.1 → Tied s.1) ∧
      ∀ p, Tied p →
        ((∃ u ∈ q.purge.quad, names u.1 = names p) ↔ ∃ t ∈ q.quad, names t.1 = names p)) ∧
    ((∀ t ∈ q.quad, ¬Tied t.1) →
      q.purge.quad.map (names ·.1) = r.purge.quad.map (names ·.1) ∧
      (q.purge.quad.Pairwise fun s t => unordered s.1 ≠ unordered t.1) ∧
      ((∀ x y z : α, x + y + z = x + (y + z)) → (∀ x y : α, x + y = y + x) →
        named q.purge.quad = named r.purge.quad)) := by
  have hnamed (hassoc : ∀ x y z : α, x + y + z = x + (y + z)) (hcomm : ∀ x y : α, x + y = y + x) :
      named q.purge.quad = named r.purge.quad ↔
        ∀ p, Tied p → sum? (coefsOf p q.quad) = sum? (coefsOf p r.quad) :=
    let _ : AddCommSemigroup α := { add_assoc := hassoc, add_comm := hcomm }
    h.named_purge
  refine ⟨h.names_purge, hnamed,
    ⟨pairwise_unordered_purge q.quad, fun p => exists_mem_purge_iff_of_tied⟩, fun huntied => ?_⟩
  have hnone {ts : List (QuadTerm α)} (hts : ∀ t ∈ ts, ¬Tied t.1) {p : Var × Var} (hp : Tied p) :
      ¬∃ t ∈ ts, names t.1 = names p := fun ⟨t, ht, heq⟩ => hts t ht ((tied_congr_names heq).2 hp)
  refine ⟨h.names_purge.2 fun p hp =>
    iff_of_false (hnone huntied hp) (hnone (h.untied huntied) hp), ?_,
    fun hassoc hcomm => (hnamed hassoc hcomm).2 fun p hp => ?_⟩
  · refine (pairwise_unordered_purge q.quad).imp_of_mem fun {s t} hs _ hst hsame => ?_
    exact hnone huntied (hst hsame) ((exists_mem_purge_iff_of_tied (hst hsame)).1 ⟨s, hs, rfl⟩)
  · rw [coefsOf_of_untied huntied hp, coefsOf_of_untied (h.untied huntied) hp]

open QuadTerm in
/-- With a product over one model in two orders and a tied pair in one. -/
theorem QuadExpr.purge_of_rearranged_two_models :
    let x : Var := ⟨0, 0, 0⟩
    let y : Var := ⟨1, 0, 0⟩
    let z : Var := ⟨0, 1, 0⟩
    let q : QuadExpr ℤ := ⟨.empty, [((z, x), 2), ((x, y), 3)]⟩
    let r : QuadExpr ℤ := ⟨.empty, [((x, z), 2), ((x, y), 3)]⟩
    let s : QuadExpr ℤ := ⟨.empty, [((z, x), 2), ((x, x), 3), ((x, z), 4)]⟩
    let t : QuadExpr ℤ := ⟨.empty, [((x, z), 2), ((x, z), 4), ((x, x), 3)]⟩
    (Rearranged q.quad r.quad ∧ Tied (x, y) ∧
      q.purge.quad.map (names ·.1) = r.purge.quad.map (names ·.1) ∧
      named q.purge.quad = named r.purge.quad ∧
      ∃ u ∈ q.purge.quad, names u.1 = names (x, y)) ∧
    Rearranged s.quad t.quad ∧ (∀ u ∈ s.quad, ¬Tied u.1) ∧
      named s.purge.quad = named t.purge.quad := by
  intro x y z q r s t
  have hqr : Rearranged q.quad r.quad := by decide
  have hst : Rearranged s.quad t.quad := by decide
  have hxy : Tied (x, y) := by decide
  have hs : ∀ u ∈ s.quad, ¬Tied u.1 := by decide
  obtain ⟨hnames, hnamed, hmerged, -⟩ := purge_of_rearranged q r hqr
  obtain ⟨-, -, -, huntied⟩ := purge_of_rearranged s t hst
  -- The product that was exchanged is not tied, so it plays no part in the tied pairs.
  have hzx (p : Var × Var) (hp : Tied p) : ¬names (z, x) = names p ∧ ¬names (x, z) = names p :=
    ⟨fun h => absurd ((tied_congr_names h).2 hp) (by decide),
      fun h => absurd ((tied_congr_names h).2 hp) (by decide)⟩
  have hpairs (p : Var × Var) (hp : Tied p) :
      (∃ u ∈ q.quad, names u.1 = names p) ↔ ∃ u ∈ r.quad, names u.1 = names p := by
    simp [q, r, hzx p hp]
  have hsums (p : Var × Var) : sum? (coefsOf p q.quad) = sum? (coefsOf p r.quad) := by
    have hordered : ordered (z, x) = ordered (x, z) := by decide
    simp only [q, r, coefsOf, List.filter_cons, hordered]
    split_ifs <;> rfl
  refine ⟨⟨hqr, hxy, hnames.2 hpairs, (hnamed add_assoc add_comm).2 fun p _ => hsums p, ?_⟩,
    hst, hs, (huntied hs).2.2 add_assoc add_comm⟩
  exact (hmerged.2 (x, y) hxy).2 ⟨((x, y), 3), by decide, rfl⟩

open QuadTerm in
/-- Two variables with one index in different models: the terms for their product in both orders are
not merged, while in one order they are. So the form is not canonical. -/
theorem QuadExpr.tied_product_kept_apart :
    let x : Var := ⟨0, 0, 0⟩
    let y : Var := ⟨1, 0, 0⟩
    let q : QuadExpr ℤ := ⟨.empty, [((x, y), 1), ((y, x), 2)]⟩
    let r : QuadExpr ℤ := ⟨.empty, [((x, y), 1), ((x, y), 2)]⟩
    Rearranged q.quad r.quad ∧ unordered (x, y) = unordered (y, x) ∧
      q.purge.quad = [((x, y), 1), ((y, x), 2)] ∧ r.purge.quad = [((x, y), 3)] ∧
      q.purge.quad.map (names ·.1) ≠ r.purge.quad.map (names ·.1) := by
  intro x y q r
  have hq : q.purge.quad = [((x, y), 1), ((y, x), 2)] :=
    (isMerged_iff.1 ⟨by decide, by decide, by decide, by decide, by decide⟩).symm
  have hr : r.purge.quad = [((x, y), 3)] :=
    (isMerged_iff.1 ⟨by decide, by decide, by decide, by decide, by decide⟩).symm
  refine ⟨by decide, by decide, hq, hr, ?_⟩
  rw [hq, hr]
  decide

end MathProgram

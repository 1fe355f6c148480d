import MathProgram.Proofs.Model.Rosters

/-!
# Identities of columns and rows

A column or row is given an identity when it is created, by adding it or by reading a problem. It
keeps the identity when others are deleted and it gets another index. A `Ledger` notes the
identities beside a model, and how often the handles have been renewed; no computation looks at it.
What a call does to it follows from what the call was to the model (`Tracked.advance`), and what it
says of the model is kept (`Tracked.Valid.advance`): each identity is at the index of its column or
row, and the generation counts the renewals. `Tracked.Continues` is what is left of it after any
number of calls.

The ledgers are moved beside the store, so what they say is checked against the store: wherever a
column or row has been moved by a call, all of its fields are as before, but for those that the call
may write (`Tracked.Valid.follows`).
-/

namespace MathProgram

/-- The identities of the columns or rows of a model in their order, the identity that is given
next, and how often the handles were renewed. -/
structure Ledger where
  ids : List ℕ
  next : ℕ
  renewals : ℕ

namespace Ledger

/-- New columns or rows come last, up to so many. -/
def extend (l : Ledger) (n : ℕ) : Ledger :=
  { l with
    ids := l.ids ++ List.range' l.next (n - l.ids.length)
    next := l.next + (n - l.ids.length) }

/-- Columns or rows are deleted. -/
def remove (l : Ledger) (removed : List ℕ) : Ledger :=
  { l with ids := Problem.survivors removed l.ids }

/-- All columns or rows are new ones. -/
def load (l : Ledger) (n : ℕ) : Ledger :=
  { l with ids := List.range' l.next n, next := l.next + n }

/-- The handles are renewed. -/
def renew (l : Ledger) : Ledger := { l with renewals := l.renewals + 1 }

/-- Identities were given in order and each was given once. -/
structure Sound (l : Ledger) : Prop where
  sorted : l.ids.Pairwise (· < ·)
  lt : ∀ a ∈ l.ids, a < l.next

namespace Sound

variable {l : Ledger}

/-- No two columns or rows have the same identity. -/
theorem nodup (h : l.Sound) : l.ids.Nodup := h.sorted.imp Nat.ne_of_lt

/-- New identities come after those that were given. -/
theorem extend (h : l.Sound) (n : ℕ) : (l.extend n).Sound where
  sorted := by
    refine List.pairwise_append.2 ⟨h.sorted, List.pairwise_lt_range', fun a ha b hb => ?_⟩
    exact (h.lt a ha).trans_le (List.mem_range'_1.1 hb).1
  lt a ha := by
    dsimp only [Ledger.extend] at ha ⊢
    obtain ha | ha := List.mem_append.1 ha
    · exact (h.lt a ha).trans_le (Nat.le_add_right _ _)
    · exact (List.mem_range'_1.1 ha).2

/-- The identities that stay are in order. -/
theorem remove (h : l.Sound) (removed : List ℕ) : (l.remove removed).Sound where
  sorted := h.sorted.sublist (survivors_sublist removed l.ids)
  lt a ha := h.lt a ((survivors_sublist removed l.ids).subset ha)

/-- New identities are in order. -/
theorem load (l : Ledger) (n : ℕ) : (l.load n).Sound where
  sorted := List.pairwise_lt_range'
  lt a ha := (List.mem_range'_1.1 ha).2

/-- Renewing handles changes no identity. -/
theorem renew (h : l.Sound) : l.renew.Sound := ⟨h.sorted, h.lt⟩

end Sound

/-- The number of identities, if there were not more before. -/
theorem length_extend {l : Ledger} {n : ℕ} (h : l.ids.length ≤ n) :
    (l.extend n).ids.length = n := by
  rw [extend, List.length_append, List.length_range']
  omega

/-- What a ledger has become: what was not deleted has kept its identity, and nothing was deleted
where the handles were not renewed. -/
structure Continues (l l' : Ledger) : Prop where
  renewals : l.renewals ≤ l'.renewals
  ids : l'.renewals = l.renewals → l.ids <+: l'.ids
  next : l.next ≤ l'.next
  given : ∀ a ∈ l'.ids, a ∈ l.ids ∨ l.next ≤ a

namespace Continues

variable {l l' l'' : Ledger}

/-- A ledger that stays as it is. -/
theorem refl (l : Ledger) : Continues l l :=
  ⟨le_rfl, fun _ => List.prefix_rfl, le_rfl, fun _ => .inl⟩

/-- What a ledger becomes after what it has become. -/
theorem trans (h : Continues l l') (h' : Continues l' l'') : Continues l l'' where
  renewals := h.renewals.trans h'.renewals
  ids hk := by
    -- Renewals are never taken back, so there were none in either part.
    have hle := h.renewals
    have hle' := h'.renewals
    exact (h.ids (by omega)).trans (h'.ids (by omega))
  next := h.next.trans h'.next
  given a ha := by
    obtain ha | ha := h'.given a ha
    · exact h.given a ha
    · exact .inr (h.next.trans ha)

/-- New columns or rows. -/
theorem extend (l : Ledger) (n : ℕ) : Continues l (l.extend n) where
  renewals := le_rfl
  ids _ := List.prefix_append ..
  next := Nat.le_add_right _ _
  given _ ha := (List.mem_append.1 ha).imp_right fun ha => (List.mem_range'_1.1 ha).1

/-- Renewed handles, with identities of which none was given to something else. -/
theorem renew (hnext : l.next ≤ l'.next) (hrenewals : l'.renewals = l.renewals)
    (hgiven : ∀ a ∈ l'.ids, a ∈ l.ids ∨ l.next ≤ a) : Continues l l'.renew where
  renewals := hrenewals.ge.trans (Nat.le_succ _)
  ids h := absurd (h.trans hrenewals.symm) (Nat.succ_ne_self _)
  next := hnext
  given := hgiven

end Continues

end Ledger

/-- A model with its ledgers. -/
structure Tracked where
  model : Model
  ledger : Kind → Ledger

namespace Tracked

/-- A model whose columns and rows are given their first identities. -/
def start (m : Model) : Tracked := ⟨m, fun k => ⟨List.range (m.count k), m.count k, 0⟩⟩

/-- The model that a call leaves, with what the call did to the columns and rows noted. -/
def advance (t : Tracked) (effect : Call.Effect) (m : Model) : Tracked where
  model := m
  ledger k := match effect with
    | .deletes k' removed =>
      if k = k' then ((t.ledger k).remove removed).renew else t.ledger k
    | .loads => ((t.ledger k).load (m.count k)).renew
    | .spoils => (t.ledger k).load (m.count k)
    | .syncs => (t.ledger k).renew
    | .grows | .marks | .frees | .drafts => (t.ledger k).extend (m.count k)

/-- The ledgers after a deletion. -/
theorem ledger_deletes (t : Tracked) (k' : Kind) (removed : List ℕ) (m : Model) (k : Kind) :
    (t.advance (.deletes k' removed) m).ledger k =
      if k = k' then ((t.ledger k).remove removed).renew else t.ledger k := rfl

/-- The ledgers are those of the model. -/
structure Valid (t : Tracked) : Prop where
  inStep : t.model.InStep
  sound : ∀ k, (t.ledger k).Sound
  length : ∀ k, (t.ledger k).ids.length = t.model.count k
  generation : ∀ k, t.model.generation k = UInt32.ofNat ((t.ledger k).renewals + 1)

/-- A model and what it has become. -/
structure Continues (t t' : Tracked) : Prop where
  id : t'.model.id = t.model.id
  ledger : ∀ k, (t.ledger k).Continues (t'.ledger k)

/-- A model that stays as it is. -/
theorem Continues.refl (t : Tracked) : Continues t t := ⟨rfl, fun _ => .refl _⟩

/-- What a model becomes after what it has become. -/
theorem Continues.trans {t t' t'' : Tracked} (h : Continues t t') (h' : Continues t' t'') :
    Continues t t'' :=
  ⟨h'.id.trans h.id, fun k => (h.ledger k).trans (h'.ledger k)⟩

/-- A new model's first identities are noted rightly. -/
theorem valid_start {m : Model} (hm : m.InStep) (hgeneration : ∀ k, m.generation k = 1) :
    (start m).Valid where
  inStep := hm
  sound _ := ⟨List.pairwise_lt_range, fun _ => List.mem_range.1⟩
  length _ := List.length_range
  generation := hgeneration

namespace Valid

variable {t : Tracked} {m : Model} {W : Scope}

/-- New columns and rows are noted rightly, while handles are not renewed. -/
theorem extend (ht : t.Valid) (hm : m.InStep) (hid : m.id = t.model.id)
    (hgeneration : ∀ k, m.generation k = t.model.generation k)
    (hcount : ∀ k, t.model.count k ≤ m.count k) :
    Valid ⟨m, fun k => (t.ledger k).extend (m.count k)⟩ ∧
      t.Continues ⟨m, fun k => (t.ledger k).extend (m.count k)⟩ := by
  refine ⟨⟨hm, fun k => (ht.sound k).extend _, fun k => ?_, fun k => ?_⟩, hid, fun k => .extend _ _⟩
  · exact Ledger.length_extend ((ht.length k).trans_le (hcount k))
  · exact (hgeneration k).trans (ht.generation k)

/-- There are as many identities as the store has records. -/
theorem length_records (ht : t.Valid) (k : Kind) :
    (t.ledger k).ids.length = (t.model.engine.store.records k).length :=
  (ht.length k).trans (Store.length_records _ _).symm

/-- A generation that is renewed counts one renewal more. -/
theorem generation_succ (ht : t.Valid) (k : Kind) :
    t.model.generation k + 1 = UInt32.ofNat ((t.ledger k).renewals + 1 + 1) := by
  rw [ht.generation, UInt32.ofNat_add (_ + 1) 1]
  rfl

/-- A deletion is noted rightly: the identities that stay are those of the columns or rows that
stay, and those of the other kind are not concerned. -/
theorem delete (ht : t.Valid) {k' : Kind} {removed : List ℕ} {s : Store}
    (hm : Model.InStep { (t.model.withStore s).renew k' with state := .populated })
    (hs : (Store.Op.deletion k' removed).run t.model.engine.store = (.ok (), s)) :
    let t' := t.advance (.deletes k' removed)
      { (t.model.withStore s).renew k' with state := .populated }
    t'.Valid ∧ t.Continues t' := by
  intro t'
  obtain ⟨hrecords, hothers⟩ := Store.run_deletion hs
  have hledger : ∀ k, t'.ledger k = _ := t.ledger_deletes k' removed _
  have hcount (k : Kind) : t'.model.count k = (s.records k).length := by
    rw [Store.length_records]
    cases k' <;> rfl
  refine ⟨⟨hm, fun k => ?_, fun k => ?_, fun k => ?_⟩, ?_, fun k => ?_⟩
  · rw [hledger]
    split
    · exact ((ht.sound k).remove removed).renew
    · exact ht.sound k
  · rw [hledger, hcount]
    split
    case isTrue hk =>
      subst hk
      rw [hrecords, length_survivors, ← ht.length_records]
      exact length_survivors removed _
    case isFalse hk => rw [hothers k hk, ht.length_records]
  · rw [hledger]
    split
    case isTrue hk =>
      have hgeneration := ht.generation_succ k
      subst hk
      cases k <;> exact hgeneration
    case isFalse hk =>
      have hgeneration := ht.generation k
      cases k <;> cases k' <;> first | exact absurd rfl hk | exact hgeneration
  · cases k' <;> rfl
  · rw [hledger]
    split
    · exact .renew le_rfl rfl fun _ ha => .inl ((survivors_sublist removed _).subset ha)
    · exact .refl _

/-- What a call does is noted rightly, unless a task file is not read to its end. -/
theorem advance (ht : t.Valid) {effect : Call.Effect} (h : Call.Happens W effect t.model m)
    (heffect : effect ≠ .spoils) :
    (t.advance effect m).Valid ∧ t.Continues (t.advance effect m) := by
  have hm := ht.inStep.happens h heffect
  cases effect with
  | grows =>
    refine ht.extend hm h.id h.generation fun k => ?_
    obtain ⟨n, hcount, -⟩ := h.roster k
    omega
  | deletes k' removed =>
    obtain ⟨-, s, hs, rfl⟩ := h
    exact ht.delete hm hs
  | loads =>
    obtain ⟨-, e, -, -, -, rfl⟩ := h
    refine ⟨⟨hm, fun k => (Ledger.Sound.load _ _).renew, fun k => ?_, fun k => ?_⟩, rfl,
      fun k => ?_⟩
    · exact List.length_range'
    · have hgeneration := ht.generation_succ k
      cases k <;> exact hgeneration
    · exact .renew (Nat.le_add_right _ _) rfl fun a ha => .inr (List.mem_range'_1.1 ha).1
  | syncs =>
    obtain ⟨-, rfl⟩ := h
    refine ⟨⟨hm, fun k => (ht.sound k).renew, fun k => ht.length k, fun k => ?_⟩, rfl, fun k => ?_⟩
    · have hgeneration := ht.generation_succ k
      cases k <;> exact hgeneration
    · exact .renew le_rfl rfl fun _ => .inl
  | marks =>
    obtain ⟨-, e, ops, hops, hstore, rfl⟩ := h
    have hinPlace : ∀ op ∈ ops, op.InPlace := fun op hop => (hops op hop).inPlace
    exact ht.extend hm rfl (fun _ => rfl) fun k => (Model.count_of_inPlace hinPlace hstore k).ge
  | frees =>
    obtain ⟨-, rfl⟩ | ⟨-, e, hstore, rfl⟩ := h
    · exact ht.extend hm rfl (fun _ => rfl) fun _ => le_rfl
    · exact ht.extend hm rfl (fun _ => rfl) fun k => (congrArg (Store.count · k) hstore).ge
  | spoils => exact absurd rfl heffect
  | drafts =>
    obtain ⟨e, ops, hops, hstore, rfl, -⟩ := h
    have hinPlace : ∀ op ∈ ops, op.InPlace := fun op hop => (hops op hop).1
    exact ht.extend hm rfl (fun _ => rfl) fun k => (Model.count_of_inPlace hinPlace hstore k).ge

end Valid

/-! ## Records follow identities -/

/-- A column or row that has kept its identity is described as before at the index where it is now,
but for what a scope has at the index where it was. -/
def Follows (W : Scope) (t t' : Tracked) : Prop := ∀ k (f : Field k) (a j j' : ℕ),
  (t.ledger k).ids[j]? = some a → (t'.ledger k).ids[j']? = some a → ¬W k f j →
    t'.model.engine.store.datum? f j' = t.model.engine.store.datum? f j

variable {t t' : Tracked} {m : Model} {W W' : Scope}

/-- More may have been written. -/
theorem Follows.mono (h : t.Follows W t') (hW : ∀ k f j, W k f j → W' k f j) : t.Follows W' t' :=
  fun k f a j j' hj hj' hf => h k f a j j' hj hj' (mt (hW k f j) hf)

namespace Valid

/-- An identity is at one index. -/
theorem index_unique (ht : t.Valid) {k : Kind} {a j j' : ℕ} (hj : (t.ledger k).ids[j]? = some a)
    (hj' : (t.ledger k).ids[j']? = some a) : j = j' :=
  (List.getElem?_inj (List.getElem?_eq_some_iff.1 hj).1 (ht.sound k).nodup).1 (hj.trans hj'.symm)

/-- Columns and rows stay in their places where others are added. -/
theorem follows_of_additive (ht : t.Valid) (ht' : t'.Valid) {ops : List Store.Op}
    (hops : ∀ op ∈ ops, op.Additive ∧ op.Within W)
    (hstore : t'.model.engine.store = t.model.engine.store.after ops)
    (hids : ∀ k, (t.ledger k).ids <+: (t'.ledger k).ids) : t.Follows W t' := by
  intro k f a j j' hj hj' hf
  have hlt : j < (t.ledger k).ids.length := (List.getElem?_eq_some_iff.1 hj).1
  -- An identity of before is at the index of before, and at no other.
  have hkept : (t'.ledger k).ids[j]? = some a := by
    obtain ⟨new, hnew⟩ := hids k
    rw [← hnew, List.getElem?_append_left hlt, hj]
  rw [← ht'.index_unique hkept hj', hstore]
  exact (Store.datum?_after hops _ k).2 j (hlt.trans_eq (ht.length k)) f hf

/-- Columns and rows stay in their places where nothing is done. -/
theorem follows_refl (ht : t.Valid) : t.Follows W t :=
  ht.follows_of_additive ht (List.forall_mem_nil _) rfl fun _ => List.prefix_rfl

/-- Columns and rows are moved as their identities are where others are deleted. -/
theorem follows_of_deletion (ht : t.Valid) {k' : Kind} {removed : List ℕ} {s : Store}
    (hs : (Store.Op.deletion k' removed).run t.model.engine.store = (.ok (), s)) :
    t.Follows W (t.advance (.deletes k' removed)
      { (t.model.withStore s).renew k' with state := .populated }) := by
  set t' := t.advance (.deletes k' removed)
    { (t.model.withStore s).renew k' with state := .populated }
  obtain ⟨hrecords, hothers⟩ := Store.run_deletion hs
  have hstore : t'.model.engine.store = s := by cases k' <;> rfl
  intro k f a j j' hj hj' _
  rw [ledger_deletes] at hj'
  rw [hstore]
  split at hj'
  case isTrue hk =>
    subst hk
    refine Store.datum?_congr ?_ f
    rw [hrecords]
    exact getElem?_survivors (ht.length_records k) (ht.sound k).nodup hj hj'
  case isFalse hk =>
    rw [ht.index_unique hj hj']
    exact Store.datum?_congr (congrArg (·[j']?) (hothers k hk)) f

/-- What a call does leaves columns and rows described as before wherever they have been moved, but
for what it may write, unless a task file is not read to its end. -/
theorem follows (ht : t.Valid) {effect : Call.Effect} (h : Call.Happens W effect t.model m)
    (heffect : effect ≠ .spoils) : t.Follows W (t.advance effect m) := by
  have ht' := (ht.advance h heffect).1
  cases effect with
  | grows =>
    obtain ⟨ops, hops, hstore⟩ := h.store
    exact ht.follows_of_additive ht' hops hstore fun _ => List.prefix_append ..
  | deletes k' removed =>
    obtain ⟨-, s, hs, rfl⟩ := h
    exact ht.follows_of_deletion hs
  | loads =>
    -- No identity of before has been given again.
    intro k f a j j' hj hj' _
    have hold := (ht.sound k).lt a (List.mem_of_getElem? hj)
    have hnew := (List.mem_range'_1.1 (List.mem_of_getElem? hj')).1
    exact absurd hold (Nat.not_lt.2 hnew)
  | syncs =>
    obtain ⟨-, rfl⟩ := h
    exact ht.follows_of_additive ht' (List.forall_mem_nil _) rfl fun _ => List.prefix_rfl
  | marks =>
    obtain ⟨-, e, ops, hops, hstore, rfl⟩ := h
    have hadditive : ∀ op ∈ ops, op.Additive ∧ op.Within W := fun op hop =>
      ⟨(hops op hop).inPlace.additive, (hops op hop).within⟩
    exact ht.follows_of_additive ht' hadditive hstore fun _ => List.prefix_append ..
  | frees =>
    obtain ⟨-, rfl⟩ | ⟨-, e, hstore, rfl⟩ := h
    · exact ht.follows_of_additive ht' (List.forall_mem_nil _) rfl fun _ => List.prefix_append ..
    · exact ht.follows_of_additive ht' (List.forall_mem_nil _) hstore
        fun _ => List.prefix_append ..
  | spoils => exact absurd rfl heffect
  | drafts =>
    obtain ⟨e, ops, hops, hstore, rfl, -⟩ := h
    have hadditive : ∀ op ∈ ops, op.Additive ∧ op.Within W := fun op hop =>
      (hops op hop).imp_left (·.additive)
    exact ht.follows_of_additive ht' hadditive hstore fun _ => List.prefix_append ..

end Valid

end Tracked

end MathProgram

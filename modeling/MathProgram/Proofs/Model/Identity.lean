import MathProgram.Proofs.Model.Ledger
import MathProgram.Solver.Scripted

/-!
# What handles denote

Models are created and copied, and calls are made of them, in any order. A `World` holds the models
with their ledgers. A handle is accepted by a model exactly while it is in the model's roster, so by
no other model, and it stands for the column or row that it stood for when it was issued, unless the
generations have come full circle (`accepted_handles_denote`). That is seen in the store: the fields
of that column or row are the same as then, but for those that calls of the model have written.
-/

namespace MathProgram

open Model

variable {σ : Type} {k : Kind}

/-- The models that there are, with their ledgers, and how many were created on the host. -/
structure World where
  models : List Tracked
  created : ℕ

/-- What can be done: building a model around an engine, for an environment or not, copying a model
likewise, or a call of a model. -/
inductive Act where
  | create (engine : Engine) (env : Option ℕ)
  | copy (i : ℕ) (env : Option ℕ)
  | call (i : ℕ) (c : Call)

/-- Something that is done, with the host on which it is done. -/
structure Move (σ : Type) where
  act : Act
  host : Host σ

/-- A move may write a field of a model at an index: it is a call of the model that may. -/
def Move.Writes (e : Move σ) (i : ℕ) (f : Field k) (j : ℕ) : Prop :=
  ∃ c, e.act = .call i c ∧ c.scope k f j

namespace World

/-- There are no models. -/
def empty : World := ⟨[], 0⟩

/-- A model takes the place of another. -/
def replace (w : World) (i : ℕ) (t : Tracked) (created : ℕ) : World := ⟨w.models.set i t, created⟩

/-- There is one more model. -/
def push (w : World) (t : Tracked) (created : ℕ) : World := ⟨w.models ++ [t], created⟩

section

variable [Solver σ]

/-- The world after a move. -/
def after (w : World) (e : Move σ) : World :=
  match e.act with
  | .create engine env =>
    let (m, h) := (ofEngine engine).run e.host
    w.push (.start { m with env }) h.models
  | .copy i env =>
    match w.models[i]? with
    | none => w
    | some t =>
      match duplicate.run t.model e.host with
      | ((.ok copy, m), h) =>
        (w.replace i { t with model := m } h.models).push (.start { copy with env }) h.models
      | ((.error _, m), h) => w.replace i { t with model := m } h.models
  | .call i c =>
    match w.models[i]? with
    | none => w
    | some t =>
      let ((r, m), h) := c.run.run t.model e.host
      w.replace i (t.advance (c.effect r) m) h.models

/-- The world after moves. -/
def run (w : World) (es : List (Move σ)) : World := es.foldl after w

@[simp] theorem run_nil (w : World) : w.run ([] : List (Move σ)) = w := rfl

@[simp] theorem run_cons (w : World) (e : Move σ) (es : List (Move σ)) :
    w.run (e :: es) = (w.after e).run es := rfl

@[simp] theorem run_append (w : World) (es es' : List (Move σ)) :
    w.run (es ++ es') = (w.run es).run es' := List.foldl_append ..

end

/-- A model has issued a handle, and has not renewed it. -/
def Issues (w : World) (i : ℕ) (x : Handle k) : Prop :=
  ∃ t, w.models[i]? = some t ∧ x ∈ t.model.roster k

instance (w : World) (i : ℕ) (x : Handle k) : Decidable (w.Issues i x) :=
  decidable_of_iff ((w.models[i]?.any fun t => decide (x ∈ t.model.roster k)) = true) <| by
    simp [Issues, Option.any_eq_true]

/-- A model accepts a handle. -/
def Accepts (w : World) (i : ℕ) (x : Handle k) : Prop :=
  ∃ t a, w.models[i]? = some t ∧ t.model.accept x = .ok a

/-- The identity of the column or row of a model at an index. -/
def identity? (w : World) (i : ℕ) (k : Kind) (j : ℕ) : Option ℕ :=
  w.models[i]?.bind fun t => (t.ledger k).ids[j]?

/-- The column or row of a model at an index. -/
def record? (w : World) (i : ℕ) (k : Kind) (j : ℕ) : Option (Store.Record k) :=
  w.models[i]?.bind fun t => (t.model.engine.store.records k)[j]?

/-- A field of the column or row of a model at an index. -/
def datum? (w : World) (i : ℕ) (f : Field k) (j : ℕ) : Option f.Value :=
  (w.record? i k j).map f.get

/-- How often the handles of a model were renewed. -/
def renewals (w : World) (i : ℕ) (k : Kind) : ℕ :=
  (w.models[i]?.map fun t => (t.ledger k).renewals).getD 0

/-- The ledgers are those of the models, and the models have different numbers. -/
structure Valid (w : World) : Prop where
  valid : ∀ (i : ℕ) (t : Tracked), w.models[i]? = some t → t.Valid
  created : ∀ (i : ℕ) (t : Tracked), w.models[i]? = some t → t.model.id < w.created
  id : ∀ (i j : ℕ) (t t' : Tracked), w.models[i]? = some t → w.models[j]? = some t' →
    t.model.id = t'.model.id → i = j

/-- What a world has become: its models are there, with what they have become. -/
def Continues (w w' : World) : Prop :=
  ∀ (i : ℕ) (t : Tracked), w.models[i]? = some t → ∃ t', w'.models[i]? = some t' ∧ t.Continues t'

/-- A world that stays as it is. -/
theorem Continues.refl (w : World) : w.Continues w := fun _ t ht => ⟨t, ht, .refl t⟩

/-- What a world becomes after what it has become. -/
theorem Continues.trans {w w' w'' : World} (h : w.Continues w') (h' : w'.Continues w'') :
    w.Continues w'' := fun i t ht => by
  obtain ⟨t', ht', hcont⟩ := h i t ht
  obtain ⟨t'', ht'', hcont'⟩ := h' i t' ht'
  exact ⟨t'', ht'', hcont.trans hcont'⟩

/-- There are no ledgers to begin with. -/
theorem valid_empty : empty.Valid where
  valid _ _ h := nomatch (List.getElem?_nil.symm.trans h)
  created _ _ h := nomatch (List.getElem?_nil.symm.trans h)
  id _ _ _ _ h := nomatch (List.getElem?_nil.symm.trans h)

section

variable {w : World} {i n : ℕ} {t t' : Tracked}

/-- A model that something was done to takes its own place. -/
theorem Valid.replace (hw : w.Valid) (ht : w.models[i]? = some t) (ht' : t'.Valid)
    (hcont : t.Continues t') (hn : w.created ≤ n) :
    (w.replace i t' n).Valid ∧ w.Continues (w.replace i t' n) := by
  have hlt : i < w.models.length := (List.getElem?_eq_some_iff.1 ht).1
  -- Each model of the new world was there before, under the same number.
  have hget (j : ℕ) : (w.replace i t' n).models[j]? = if i = j then some t' else w.models[j]? := by
    rw [World.replace, List.getElem?_set]
    simp [hlt]
  have hsame (j : ℕ) (u : Tracked) (hu : (w.replace i t' n).models[j]? = some u) :
      ∃ v, w.models[j]? = some v ∧ u.model.id = v.model.id := by
    rw [hget] at hu
    split_ifs at hu with hj
    · subst hj
      cases hu
      exact ⟨t, ht, hcont.id⟩
    · exact ⟨u, hu, rfl⟩
  refine ⟨⟨fun j u hu => ?_, fun j u hu => ?_, fun j j' u u' hu hu' hid => ?_⟩, fun j u hu => ?_⟩
  · rw [hget] at hu
    split_ifs at hu
    · cases hu
      exact ht'
    · exact hw.valid j u hu
  · obtain ⟨v, hv, hid⟩ := hsame j u hu
    exact hid ▸ (hw.created j v hv).trans_le hn
  · obtain ⟨v, hv, hidv⟩ := hsame j u hu
    obtain ⟨v', hv', hidv'⟩ := hsame j' u' hu'
    exact hw.id j j' v v' hv hv' (hidv.symm.trans (hid.trans hidv'))
  · rw [hget]
    split_ifs with hj
    · subst hj
      cases ht.symm.trans hu
      exact ⟨t', rfl, hcont⟩
    · exact ⟨u, hu, .refl u⟩

/-- A new model has a number of its own. -/
theorem Valid.push (hw : w.Valid) (ht : t.Valid) (hid : w.created ≤ t.model.id)
    (hn : t.model.id < n) : (w.push t n).Valid ∧ w.Continues (w.push t n) := by
  have hget (j : ℕ) (u : Tracked) (hu : (w.push t n).models[j]? = some u) :
      w.models[j]? = some u ∨ j = w.models.length ∧ u = t := by
    rw [World.push, List.getElem?_append] at hu
    split_ifs at hu with hj
    · exact .inl hu
    · rw [List.getElem?_singleton] at hu
      split_ifs at hu with hzero
      exact .inr ⟨by omega, (Option.some.inj hu).symm⟩
  refine ⟨⟨fun j u hu => ?_, fun j u hu => ?_, fun j j' u u' hu hu' hsame => ?_⟩, fun j u hu => ?_⟩
  · obtain hu | ⟨-, rfl⟩ := hget j u hu
    · exact hw.valid j u hu
    · exact ht
  · obtain hu | ⟨-, rfl⟩ := hget j u hu
    · exact (hw.created j u hu).trans (hid.trans_lt hn)
    · exact hn
  · obtain hold | ⟨hlast, rfl⟩ := hget j u hu <;> obtain hold' | ⟨hlast', rfl⟩ := hget j' u' hu'
    · exact hw.id j j' u u' hold hold' hsame
    · exact absurd (hsame ▸ hw.created j u hold) (Nat.not_lt.2 hid)
    · exact absurd (hsame ▸ hw.created j' u' hold') (Nat.not_lt.2 hid)
    · exact hlast.trans hlast'.symm
  · have hlt : j < w.models.length := (List.getElem?_eq_some_iff.1 hu).1
    exact ⟨u, (List.getElem?_append_left hlt).trans hu, .refl u⟩

end

end World

namespace Move

variable [Solver σ]

/-- A move can be made: no call of an engine fails with the code of success, models that were
created on the host are not forgotten, and no task file fails to be read. -/
structure Legal (e : Move σ) (w : World) : Prop where
  honest : e.host.Honest
  created : w.created ≤ e.host.models
  read : ∀ i t c, e.act = .call i c → w.models[i]? = some t →
    ¬Turn.FailsToReadTask ⟨c, e.host⟩ t.model

/-- A call that can be made does not spoil the model. -/
theorem Legal.effect_ne_spoils {e : Move σ} {w : World} (he : e.Legal w) {i : ℕ} {c : Call}
    (hact : e.act = .call i c) {t : Tracked} (ht : w.models[i]? = some t) :
    c.effect (c.run.run t.model e.host).1.1 ≠ .spoils := fun heffect => by
  obtain ⟨file, parts, err, hcall, hresult⟩ := Call.effect_eq_spoils heffect
  exact he.read i t c hact ht ⟨file, parts, err, hcall, hresult⟩

end Move

namespace World

variable {w : World}

/-- A new model's ledgers are rightly noted, and its number is the next one. -/
theorem valid_start_ofEngine (engine : Engine) (env : Option ℕ) (h : Host σ) :
    (Tracked.start { ((ofEngine engine).run h).1 with env }).Valid ∧
      ((ofEngine engine).run h).1.id = h.models ∧
      ((ofEngine engine).run h).1.id < ((ofEngine engine).run h).2.models := by
  obtain ⟨state, journal, -, hrun⟩ := run_ofEngine engine h
  have hinStep := inStep_ofEngine engine env h
  rw [hrun] at hinStep ⊢
  refine ⟨Tracked.valid_start hinStep fun k => ?_, rfl, Nat.lt_succ_self _⟩
  cases k <;> rfl

/-- Copying leaves the model as it is; it fails just if the model has been freed. -/
theorem run_duplicate (m : Model) (h : Host σ) : duplicate.run m h =
    if m.state = .freed then ((.error .freed, m), h)
    else ((.ok ((ofEngine m.engine.duplicate).run h).1, m),
      ((ofEngine m.engine.duplicate).run h).2) := by
  rw [duplicate, ModelM.run_bind, ModelM.run_checkUsable]
  by_cases hfreed : m.state = .freed
  · rw [if_pos hfreed, if_pos hfreed]
  · rw [if_neg hfreed, if_neg hfreed]
    rfl

variable [Solver σ]

/-- What is done keeps the ledgers right. -/
theorem Valid.after (hw : w.Valid) {e : Move σ} (he : e.Legal w) :
    (w.after e).Valid ∧ w.Continues (w.after e) := by
  obtain ⟨act, host⟩ := e
  have hcreated := he.created
  cases act with
  | create engine env =>
    obtain ⟨hstart, hid, hlt⟩ := valid_start_ofEngine engine env host
    exact hw.push hstart (hcreated.trans_eq hid.symm) hlt
  | copy i env =>
    rw [World.after]
    dsimp only
    cases ht : w.models[i]? with
    | none => exact ⟨hw, .refl w⟩
    | some t =>
      have hsame {n : ℕ} (hn : w.created ≤ n) := hw.replace ht (hw.valid i t ht) (.refl t) hn
      dsimp only
      rw [run_duplicate]
      by_cases hfreed : t.model.state = .freed
      · rw [if_pos hfreed]
        exact hsame hcreated
      · rw [if_neg hfreed]
        obtain ⟨hstart, hid, hlt⟩ := valid_start_ofEngine t.model.engine.duplicate env host
        -- The model is in its place, and the copy comes last.
        obtain ⟨hvalid, hcont⟩ := hsame hcreated
        obtain ⟨hvalid', hcont'⟩ := hvalid.push hstart hid.ge hlt
        exact ⟨hvalid', hcont.trans hcont'⟩
  | call i c =>
    rw [World.after]
    dsimp only
    cases ht : w.models[i]? with
    | none => exact ⟨hw, .refl w⟩
    | some t =>
      obtain ⟨hframe, hhappens⟩ := c.happens t.model he.honest
      obtain ⟨hvalid, hcont⟩ := (hw.valid i t ht).advance hhappens (he.effect_ne_spoils rfl ht)
      exact hw.replace ht hvalid hcont (hcreated.trans_eq hframe.models.symm)

/-- All moves can be made, one after the other. -/
def LegalRun (w : World) (es : List (Move σ)) : Prop :=
  ∀ done e rest, es = done ++ e :: rest → e.Legal (w.run done)

/-- Nothing can be done. -/
theorem LegalRun.nil (w : World) : w.LegalRun ([] : List (Move σ)) := fun done _ _ h => by
  cases done <;> cases h

/-- A move can be made, and then the others. -/
theorem LegalRun.cons {e : Move σ} {es : List (Move σ)} (he : e.Legal w)
    (hes : (w.after e).LegalRun es) : w.LegalRun (e :: es) := fun done e' rest h => by
  cases done with
  | nil => cases h; exact he
  | cons d done =>
    obtain ⟨rfl, htail⟩ := List.cons.inj h
    exact hes done e' rest htail

/-- The moves made first can be made, and then the others. -/
theorem LegalRun.append {es es' : List (Move σ)} (h : w.LegalRun (es ++ es')) :
    w.LegalRun es ∧ (w.run es).LegalRun es' := by
  refine ⟨fun done e rest hes => h done e (rest ++ es') ?_, fun done e rest hes' => ?_⟩
  · rw [hes, List.append_assoc, List.cons_append]
  · have he := h (es ++ done) e rest (by rw [hes', List.append_assoc])
    rwa [run_append] at he

/-- Any number of moves keeps the ledgers right. -/
theorem Valid.run (hw : w.Valid) {es : List (Move σ)} (hes : w.LegalRun es) :
    (w.run es).Valid ∧ w.Continues (w.run es) := by
  induction es generalizing w with
  | nil => exact ⟨hw, .refl w⟩
  | cons e es ih =>
    obtain ⟨hvalid, hcont⟩ := hw.after (hes [] e es rfl)
    obtain ⟨hvalid', hcont'⟩ := ih hvalid (LegalRun.append (show w.LegalRun ([e] ++ es) from hes)).2
    exact ⟨hvalid', hcont.trans hcont'⟩

/-- The world after a call of a model. -/
theorem after_call {i : ℕ} {c : Call} {e : Move σ} (he : e.act = .call i c) {t : Tracked}
    (ht : w.models[i]? = some t) : w.after e = w.replace i
      (t.advance (c.effect (c.run.run t.model e.host).1.1) (c.run.run t.model e.host).1.2)
      (c.run.run t.model e.host).2.models := by
  rw [World.after, he]
  dsimp only
  rw [ht]
  rfl

end World

namespace Tracked

variable {t t' : Tracked} {x : Handle k}

/-- Just the handles in a model's roster are accepted. -/
theorem Valid.accepts_iff (ht : t.Valid) :
    (∃ a, t.model.accept x = .ok a) ↔ x ∈ t.model.roster k := by
  rw [inStep_iff.1 ht.inStep k, Handle.allOf_eq_issued, Handle.mem_issued_iff]
  have hlength : (t.model.roster k).length = t.model.count k := by
    rw [inStep_iff.1 ht.inStep, Handle.allOf_eq_issued, Handle.length_issued]
  constructor
  · rintro ⟨a, ha⟩
    obtain ⟨hmodel, hgeneration, hlt, -⟩ := accept_eq_ok_iff.1 ha
    exact ⟨hmodel, hgeneration, Nat.zero_le _, by omega⟩
  · rintro ⟨hmodel, hgeneration, -, hlt⟩
    exact ⟨x.index, accept_eq_ok_iff.2 ⟨hmodel, hgeneration, by omega, rfl⟩⟩

/-- The generations count renewals up to `2 ^ 32`. -/
theorem ofNat_succ_inj {a b : ℕ} (hle : a ≤ b) (hlt : b < a + 2 ^ 32)
    (h : UInt32.ofNat (b + 1) = UInt32.ofNat (a + 1)) : b = a := by
  have hmod := congrArg UInt32.toNat h
  rw [UInt32.toNat_ofNat', UInt32.toNat_ofNat'] at hmod
  omega

/-- A handle that was issued is accepted if and only if the handles were not renewed. -/
theorem Valid.issued (ht : t.Valid) (ht' : t'.Valid) (hcont : t.Continues t')
    (hx : x ∈ t.model.roster k)
    (hrenewals : (t'.ledger k).renewals < (t.ledger k).renewals + 2 ^ 32) :
    x ∈ t'.model.roster k ↔ (t'.ledger k).renewals = (t.ledger k).renewals := by
  rw [inStep_iff.1 ht.inStep k, Handle.allOf_eq_issued, Handle.mem_issued_iff] at hx
  rw [inStep_iff.1 ht'.inStep k, Handle.allOf_eq_issued, Handle.mem_issued_iff]
  obtain ⟨hmodel, hgeneration, -, hlt⟩ := hx
  constructor
  · rintro ⟨-, hgeneration', -, -⟩
    rw [hgeneration, ht.generation, ht'.generation] at hgeneration'
    exact ofNat_succ_inj (hcont.ledger k).renewals hrenewals hgeneration'.symm
  · intro hsame
    have hle := ((hcont.ledger k).ids hsame).length_le
    rw [ht.length, ht'.length] at hle
    refine ⟨hmodel.trans hcont.id.symm, ?_, Nat.zero_le _, by omega⟩
    rw [hgeneration, ht.generation, ht'.generation, hsame]

/-- While handles are not renewed the columns and rows keep their identities. -/
theorem Valid.identity (ht : t.Valid) (hcont : t.Continues t') (hx : x ∈ t.model.roster k)
    (hsame : (t'.ledger k).renewals = (t.ledger k).renewals) :
    ∃ a, (t.ledger k).ids[x.index]? = some a ∧ (t'.ledger k).ids[x.index]? = some a := by
  rw [inStep_iff.1 ht.inStep k, Handle.allOf_eq_issued, Handle.mem_issued_iff] at hx
  obtain ⟨-, -, -, hlt⟩ := hx
  have hlt' : x.index < (t.ledger k).ids.length := by
    rw [ht.length]
    omega
  obtain ⟨new, hnew⟩ := (hcont.ledger k).ids hsame
  have hget := List.getElem?_eq_getElem hlt'
  exact ⟨_, hget, by rw [← hnew, List.getElem?_append_left hlt', hget]⟩

end Tracked

namespace World

variable {w w' : World} {i j : ℕ} {x : Handle k} {t : Tracked}

/-- The renewals of a model that is there. -/
theorem renewals_eq (ht : w.models[i]? = some t) (k : Kind) :
    w.renewals i k = (t.ledger k).renewals := by rw [renewals, ht]; rfl

/-- The identities of a model that is there. -/
theorem identity?_eq (ht : w.models[i]? = some t) (k : Kind) (j : ℕ) :
    w.identity? i k j = (t.ledger k).ids[j]? := by rw [identity?, ht]; rfl

/-- The columns and rows of a model that is there. -/
theorem record?_eq (ht : w.models[i]? = some t) (k : Kind) (j : ℕ) :
    w.record? i k j = (t.model.engine.store.records k)[j]? := by rw [record?, ht]; rfl

/-- The fields of the columns and rows of a model that is there. -/
theorem datum?_eq (ht : w.models[i]? = some t) (f : Field k) (j : ℕ) :
    w.datum? i f j = t.model.engine.store.datum? f j := by rw [datum?, record?_eq ht]; rfl

/-- What has an identity is a column or row of a model that is there. -/
theorem models_of_identity? {a : ℕ} (h : w.identity? i k j = some a) :
    ∃ t, w.models[i]? = some t ∧ (t.ledger k).ids[j]? = some a := Option.bind_eq_some_iff.1 h

/-- The columns and rows are just what has an identity. -/
theorem Valid.record?_isSome (hw : w.Valid) (i : ℕ) (k : Kind) (j : ℕ) :
    (w.record? i k j).isSome ↔ ∃ a, w.identity? i k j = some a := by
  cases ht : w.models[i]? with
  | none => simp [record?, identity?, ht]
  | some t =>
    have hlength : (t.model.engine.store.records k).length = (t.ledger k).ids.length :=
      (Store.length_records _ _).trans ((hw.valid i t ht).length k).symm
    rw [record?_eq ht, identity?_eq ht, isSome_getElem?, hlength]
    exact ⟨fun hj => ⟨_, List.getElem?_eq_getElem hj⟩,
      fun ⟨_, hj⟩ => (List.getElem?_eq_some_iff.1 hj).1⟩

/-- No two columns or rows of a model have the same identity. -/
theorem Valid.index_unique (hw : w.Valid) {a j' : ℕ} (hj : w.identity? i k j = some a)
    (hj' : w.identity? i k j' = some a) : j = j' := by
  obtain ⟨t, ht, hj⟩ := models_of_identity? hj
  rw [identity?_eq ht] at hj'
  exact (hw.valid i t ht).index_unique hj hj'

/-- A model accepts just the handles that it has issued and not renewed. -/
theorem Valid.accepts_iff (hw : w.Valid) : w.Accepts i x ↔ w.Issues i x := by
  constructor
  · rintro ⟨t, a, ht, ha⟩
    exact ⟨t, ht, (hw.valid i t ht).accepts_iff.1 ⟨a, ha⟩⟩
  · rintro ⟨t, ht, hx⟩
    obtain ⟨a, ha⟩ := (hw.valid i t ht).accepts_iff.2 hx
    exact ⟨t, a, ht, ha⟩

/-- A handle that was issued is accepted by the same model, if its handles were not renewed, and by
no other. -/
theorem Valid.issued (hw : w.Valid) (hw' : w'.Valid) (hcont : w.Continues w') (hx : w.Issues i x)
    (hrenewals : w'.renewals i k < w.renewals i k + 2 ^ 32) :
    w'.Accepts j x ↔ j = i ∧ w'.renewals i k = w.renewals i k := by
  obtain ⟨t, ht, hxt⟩ := hx
  obtain ⟨t', ht', hcont⟩ := hcont i t ht
  rw [renewals_eq ht, renewals_eq ht'] at hrenewals ⊢
  rw [← (hw.valid i t ht).issued (hw'.valid i t' ht') hcont hxt hrenewals, hw'.accepts_iff]
  constructor
  · rintro ⟨u, hu, hxu⟩
    -- The numbers of two models that issue the same handle are the same.
    obtain ⟨a, ha⟩ := (hw'.valid j u hu).accepts_iff.2 hxu
    obtain ⟨b, hb⟩ := (hw.valid i t ht).accepts_iff.2 hxt
    have hid : u.model.id = t'.model.id :=
      (accept_eq_ok_iff.1 ha).1.symm.trans ((accept_eq_ok_iff.1 hb).1.trans hcont.id.symm)
    obtain rfl := hw'.id j i u t' hu ht' hid
    cases hu.symm.trans ht'
    exact ⟨rfl, hxu⟩
  · rintro ⟨rfl, hxt'⟩
    exact ⟨t', ht', hxt'⟩

/-- While handles are not renewed they stand for the same columns and rows. -/
theorem Valid.identity (hw : w.Valid) (hcont : w.Continues w') (hx : w.Issues i x)
    (hsame : w'.renewals i k = w.renewals i k) :
    ∃ a, w.identity? i k x.index = some a ∧ w'.identity? i k x.index = some a := by
  obtain ⟨t, ht, hxt⟩ := hx
  obtain ⟨t', ht', hcont⟩ := hcont i t ht
  rw [renewals_eq ht, renewals_eq ht'] at hsame
  rw [identity?_eq ht, identity?_eq ht']
  exact (hw.valid i t ht).identity hcont hxt hsame

/-- Renewals are never taken back. -/
theorem Continues.renewals_le (hcont : w.Continues w') (ht : w.models[i]? = some t) (k : Kind) :
    w.renewals i k ≤ w'.renewals i k := by
  obtain ⟨t', ht', hcont⟩ := hcont i t ht
  rw [renewals_eq ht, renewals_eq ht']
  exact (hcont.ledger k).renewals

end World

/-- A call that renews the handles of a kind if it succeeds: a deletion of something, or the reading
of a problem. -/
def Call.Discards : Call → Kind → Prop
  | deleteVars (_ :: _), .variable => True
  | deleteConss (_ :: _), .constraint => True
  | readProb _, _ => True
  | readTask _ parts, _ => parts.model = true
  | _, _ => False

/-- What a call that discards handles was, if it succeeded. -/
theorem Call.Discards.effect {c : Call} (h : c.Discards k) (a : c.Result) :
    (∃ removed, c.effect (.ok a) = .deletes k removed) ∨ c.effect (.ok a) = .loads := by
  cases c with
  | deleteVars xs => cases xs <;> cases k <;> first | exact .inl ⟨_, rfl⟩ | cases h
  | deleteConss cs => cases cs <;> cases k <;> first | exact .inl ⟨_, rfl⟩ | cases h
  | readProb => exact .inr rfl
  | readTask file parts => exact .inr (if_pos h)
  | _ => cases h

/-- A call that discards handles renews them once if it succeeds. -/
theorem Tracked.renewals_of_discards {c : Call} (h : c.Discards k) (t : Tracked) (a : c.Result)
    (m : Model) :
    ((t.advance (c.effect (.ok a)) m).ledger k).renewals = (t.ledger k).renewals + 1 := by
  obtain ⟨removed, heffect⟩ | heffect := h.effect a
  · rw [heffect, ledger_deletes, if_pos rfl]
    rfl
  · rw [heffect]
    rfl

/-- A deletion of variables does not renew handles of constraints. -/
theorem Tracked.renewals_deleteVars (t : Tracked) (xs : List Var)
    (r : Except Error (Call.deleteVars xs).Result) (m : Model) :
    ((t.advance ((Call.deleteVars xs).effect r) m).ledger .constraint).renewals =
      (t.ledger .constraint).renewals := by
  cases xs <;> cases r <;> rfl

/-- A deletion of constraints does not renew handles of variables. -/
theorem Tracked.renewals_deleteConss (t : Tracked) (cs : List Cons)
    (r : Except Error (Call.deleteConss cs).Result) (m : Model) :
    ((t.advance ((Call.deleteConss cs).effect r) m).ledger .variable).renewals =
      (t.ledger .variable).renewals := by
  cases cs <;> cases r <;> rfl

namespace World

variable {w : World} {i j : ℕ} {x : Handle k}

/-- The renewals after something was done to a model. -/
theorem renewals_replace {t t' : Tracked} {n : ℕ} (ht : w.models[i]? = some t) :
    (w.replace i t' n).renewals j k =
      if i = j then (t'.ledger k).renewals else w.renewals j k := by
  have hlt : i < w.models.length := (List.getElem?_eq_some_iff.1 ht).1
  rw [renewals, replace, List.getElem?_set]
  split_ifs
  · rfl
  · rfl

variable [Solver σ]

/-- Handles stay accepted by all models when a call of one of them does not renew those of the
kind. -/
theorem accepts_after_call (hw : w.Valid) {e : Move σ} (hlegal : e.Legal w) {c : Call}
    (he : e.act = .call i c) (hc : ∀ (t : Tracked) (r : Except Error c.Result) (m : Model),
      ((t.advance (c.effect r) m).ledger k).renewals = (t.ledger k).renewals)
    (hx : w.Accepts j x) : (w.after e).Accepts j x := by
  have hsame : (w.after e).renewals j k = w.renewals j k := by
    cases ht : w.models[i]? with
    | none => rw [World.after, he]; dsimp only; rw [ht]
    | some t =>
      rw [after_call he ht, renewals_replace ht, hc]
      split_ifs with hj
      · rw [← hj, renewals_eq ht]
      · rfl
  obtain ⟨hvalid, hcont⟩ := hw.after hlegal
  exact (hw.issued hvalid hcont (hw.accepts_iff.1 hx) (by omega)).2 ⟨rfl, hsame⟩

/-- A handle that was issued before a call that discards handles of its kind and succeeds is
accepted no more. -/
theorem Valid.rejects {w' w'' : World} (hw : w.Valid) (hw'' : w''.Valid)
    (hcont : w.Continues w') {e : Move σ} (hcall : w'.Continues (w'.after e))
    (hcont' : (w'.after e).Continues w'') (hx : w.Issues i x) {c : Call}
    (he : e.act = .call i c) (hc : c.Discards k) {t : Tracked}
    (ht : w'.models[i]? = some t) {a : c.Result} (ha : (c.run.run t.model e.host).1.1 = .ok a)
    (hrenewals : w''.renewals i k < w.renewals i k + 2 ^ 32) : ¬w''.Accepts j x := fun hj => by
  obtain ⟨t₀, ht₀, hx₀⟩ := hx
  -- There is one renewal more after the call, and none is taken back.
  have hle := hcont.renewals_le ht₀ k
  have hsucc : (w'.after e).renewals i k = w'.renewals i k + 1 := by
    rw [after_call he ht, renewals_replace ht, if_pos rfl, ha, Tracked.renewals_of_discards hc,
      renewals_eq ht]
  obtain ⟨t', ht', -⟩ := hcall i t ht
  have hle' := hcont'.renewals_le ht' k
  have hsame :=
    ((hw.issued hw'' (hcont.trans (hcall.trans hcont')) ⟨t₀, ht₀, hx₀⟩ hrenewals).1 hj).2
  omega

/-- What is done to other models, or to none, leaves a model as it is. -/
theorem getElem?_after_of_ne {e : Move σ} (he : ∀ c, e.act ≠ .call i c) {t : Tracked}
    (ht : w.models[i]? = some t) : (w.after e).models[i]? = some t := by
  have hlt : i < w.models.length := (List.getElem?_eq_some_iff.1 ht).1
  rw [World.after]
  cases hact : e.act with
  | create engine env => exact (List.getElem?_append_left hlt).trans ht
  | copy j env =>
    dsimp only
    cases hu : w.models[j]? with
    | none => exact ht
    | some u =>
      -- The model that is copied takes its own place.
      have hset (n : ℕ) : (w.replace j u n).models[i]? = some t := by
        rw [replace, List.getElem?_set]
        split_ifs with hij hj
        · rw [← hu, hij, ht]
        · exact absurd (List.getElem?_eq_some_iff.1 hu).1 hj
        · exact ht
      dsimp only
      rw [run_duplicate]
      by_cases hfreed : u.model.state = .freed
      · rw [if_pos hfreed]
        exact hset _
      · rw [if_neg hfreed]
        exact (List.getElem?_append_left (by simpa [replace] using hlt)).trans (hset _)
  | call j c =>
    have hne : j ≠ i := by
      rintro rfl
      exact he c hact
    dsimp only
    cases w.models[j]? with
    | none => exact ht
    | some u => exact (List.getElem?_set_ne hne).trans ht

/-- Columns and rows are described as before wherever they have been moved, but for what the move
may write. -/
theorem follows_after (hw : w.Valid) {e : Move σ} (hlegal : e.Legal w) {t t' : Tracked}
    (ht : w.models[i]? = some t) (ht' : (w.after e).models[i]? = some t') :
    t.Follows (fun _ f j => e.Writes i f j) t' := by
  by_cases hcall : ∃ c, e.act = .call i c
  · obtain ⟨c, hact⟩ := hcall
    have hlt : i < w.models.length := (List.getElem?_eq_some_iff.1 ht).1
    rw [after_call hact ht, replace, List.getElem?_set_self hlt] at ht'
    cases ht'
    have hfollows := (hw.valid i t ht).follows (c.happens _ hlegal.honest).2
      (hlegal.effect_ne_spoils hact ht)
    exact hfollows.mono fun k f j hf => ⟨c, hact, hf⟩
  · have hsame := getElem?_after_of_ne (fun c hc => hcall ⟨c, hc⟩) ht
    cases hsame.symm.trans ht'
    exact (hw.valid i t ht).follows_refl

/-- No identity is given twice: what is there at first and in the end is there in between. -/
theorem Valid.identity_between {w' w'' : World} (hw : w.Valid) (hcont : w.Continues w')
    (hcont' : w'.Continues w'') {a j' : ℕ} (hj : w.identity? i k j = some a)
    (hj' : w''.identity? i k j' = some a) : ∃ l, w'.identity? i k l = some a := by
  obtain ⟨t, ht, hj⟩ := models_of_identity? hj
  obtain ⟨t', ht', hearlier⟩ := hcont i t ht
  obtain ⟨t'', ht'', hlater⟩ := hcont' i t' ht'
  rw [identity?_eq ht''] at hj'
  have hold := ((hw.valid i t ht).sound k).lt a (List.mem_of_getElem? hj)
  have hnext := (hearlier.ledger k).next
  obtain hmem | hnew := (hlater.ledger k).given a (List.mem_of_getElem? hj')
  · obtain ⟨l, hl⟩ := List.getElem?_of_mem hmem
    exact ⟨l, by rw [identity?_eq ht', hl]⟩
  · omega

/-- No move writes a field of the column or row with an identity, at the index where it then is. -/
def Spares (w : World) (es : List (Move σ)) (i : ℕ) (f : Field k) (a : ℕ) : Prop :=
  ∀ done e rest, es = done ++ e :: rest → ∀ j, (w.run done).identity? i k j = some a →
    ¬e.Writes i f j

/-- What no move writes of a column or row is as before, wherever the column or row has been moved.
-/
theorem Valid.datum?_run (hw : w.Valid) {es : List (Move σ)} (hes : w.LegalRun es) {f : Field k}
    {a j j' : ℕ} (hj : w.identity? i k j = some a) (hj' : (w.run es).identity? i k j' = some a)
    (hspares : w.Spares es i f a) : (w.run es).datum? i f j' = w.datum? i f j := by
  induction es generalizing w j with
  | nil => rw [hw.index_unique hj hj', run_nil]
  | cons e es ih =>
    have hlegal := hes [] e es rfl
    have hlater := (LegalRun.append (show w.LegalRun ([e] ++ es) from hes)).2
    obtain ⟨hvalid, hcont⟩ := hw.after hlegal
    obtain ⟨-, hcont'⟩ := hvalid.run hlater
    -- The column or row is there after the first move, at some index.
    obtain ⟨l, hl⟩ := hw.identity_between hcont hcont' hj hj'
    have hfirst : (w.after e).datum? i f l = w.datum? i f j := by
      obtain ⟨t, ht, htj⟩ := models_of_identity? hj
      obtain ⟨t', ht', ht'l⟩ := models_of_identity? hl
      rw [datum?_eq ht, datum?_eq ht']
      exact follows_after hw hlegal ht ht' k f a j l htj ht'l (hspares [] e es rfl j hj)
    refine (ih hvalid hlater hl hj' fun done e' rest hsplit => ?_).trans hfirst
    exact hspares (e :: done) e' rest (congrArg (e :: ·) hsplit)

/-- While handles are not renewed the columns and rows that they stand for stay at their indexes. -/
theorem Valid.spares_of_issues {es : List (Move σ)} (hw : w.Valid) (hes : w.LegalRun es)
    (hx : w.Issues i x) (hsame : (w.run es).renewals i k = w.renewals i k) {a : ℕ}
    (ha : w.identity? i k x.index = some a) {f : Field k}
    (hf : ∀ e ∈ es, ¬e.Writes i f x.index) : w.Spares es i f a := by
  rintro done e rest rfl l hl
  obtain ⟨hvalid, hcont⟩ := hw.run (LegalRun.append hes).1
  obtain ⟨-, hcont'⟩ := hvalid.run (LegalRun.append hes).2
  -- There were no renewals up to the move.
  have hnone : (w.run done).renewals i k = w.renewals i k := by
    obtain ⟨t, ht, -⟩ := hx
    obtain ⟨t', ht', -⟩ := hcont i t ht
    have hle := hcont.renewals_le ht k
    have hle' := hcont'.renewals_le ht' k
    rw [run_append] at hsame
    omega
  obtain ⟨b, hb, hb'⟩ := hw.identity hcont hx hnone
  obtain rfl : a = b := Option.some.inj (ha.symm.trans hb)
  rw [hvalid.index_unique hl hb']
  exact hf e (by simp)

/-- Handles are accepted only by the model that has issued them, and they stand for what they stood
for when they were issued. After any moves of which none fails to read a task file:
- the columns and rows of a model are just what has an identity, each has another one, and none is
  given twice;
- a model accepts just the handles that it has issued itself and not renewed since; each stands for
  a column or row;
- a handle that was issued earlier, fewer than `2 ^ 32` renewals ago, is accepted by no other model,
  and if it is accepted then it stands for the column or row that it stood for then: that has the
  same identity, and all of its fields are as they were, but for those that a call of the model has
  written at the index; it is accepted if there were no renewals;
- so it is accepted no more once a deletion of something of its kind or the reading of a problem
  has succeeded;
- deletions of variables leave handles of constraints accepted, and the other way round;
- and wherever a column or row has been moved, all of its fields are as they were, but for those
  that a call of the model has written at the index where it then was. -/
theorem accepted_handles_denote (es : List (Move σ)) (hlegal : empty.LegalRun es) :
    ((∀ i k j, ((empty.run es).record? i k j).isSome ↔
        ∃ a, (empty.run es).identity? i k j = some a) ∧
      (∀ i k j j' a, (empty.run es).identity? i k j = some a →
        (empty.run es).identity? i k j' = some a → j = j') ∧
      ∀ done between rest, es = done ++ (between ++ rest) → ∀ i k j j' a,
        (empty.run done).identity? i k j = some a → (empty.run es).identity? i k j' = some a →
        ∃ l, (empty.run (done ++ between)).identity? i k l = some a) ∧
    (∀ i k (x : Handle k), ((empty.run es).Accepts i x ↔ (empty.run es).Issues i x) ∧
      ((empty.run es).Accepts i x → ∃ a, (empty.run es).identity? i k x.index = some a)) ∧
    (∀ done rest, es = done ++ rest → ∀ i k (x : Handle k), (empty.run done).Issues i x →
      (empty.run es).renewals i k < (empty.run done).renewals i k + 2 ^ 32 →
      (∀ j, (empty.run es).Accepts j x → j = i ∧
        (∃ a, (empty.run done).identity? i k x.index = some a ∧
          (empty.run es).identity? i k x.index = some a) ∧
        ∀ f : Field k, (∀ e ∈ rest, ¬e.Writes i f x.index) →
          (empty.run es).datum? i f x.index = (empty.run done).datum? i f x.index) ∧
      ((empty.run es).renewals i k = (empty.run done).renewals i k →
        (empty.run es).Accepts i x)) ∧
    (∀ done between e rest, es = done ++ (between ++ e :: rest) → ∀ i c t a,
      e.act = .call i c → (empty.run (done ++ between)).models[i]? = some t →
      (c.run.run t.model e.host).1.1 = .ok a → ∀ k, c.Discards k →
      ∀ x : Handle k, (empty.run done).Issues i x →
        (empty.run es).renewals i k < (empty.run done).renewals i k + 2 ^ 32 →
        ∀ j, ¬(empty.run es).Accepts j x) ∧
    (∀ done e rest, es = done ++ e :: rest → ∀ i,
      (∀ xs, e.act = .call i (.deleteVars xs) → ∀ j (c : Cons),
        (empty.run done).Accepts j c → (empty.run (done ++ [e])).Accepts j c) ∧
      (∀ cs, e.act = .call i (.deleteConss cs) → ∀ j (x : Var),
        (empty.run done).Accepts j x → (empty.run (done ++ [e])).Accepts j x)) ∧
    ∀ done rest, es = done ++ rest → ∀ i k (f : Field k) a j j',
      (empty.run done).identity? i k j = some a → (empty.run es).identity? i k j' = some a →
      (empty.run done).Spares rest i f a →
      (empty.run es).datum? i f j' = (empty.run done).datum? i f j := by
  obtain ⟨hvalid, -⟩ := valid_empty.run hlegal
  refine ⟨⟨hvalid.record?_isSome, fun i k j j' a => hvalid.index_unique, ?between⟩, ?accepted,
    ?issued, ?discarded, ?others, ?moved⟩
  case between =>
    rintro done between rest rfl i k j j' a hj hj'
    obtain ⟨hdone, hlater⟩ := hlegal.append
    obtain ⟨hvalid₀, -⟩ := valid_empty.run hdone
    obtain ⟨hvalid₁, hcont₁⟩ := hvalid₀.run hlater.append.1
    obtain ⟨-, hcont₂⟩ := hvalid₁.run hlater.append.2
    rw [run_append, run_append] at hj'
    rw [run_append]
    exact hvalid₀.identity_between hcont₁ hcont₂ hj hj'
  case accepted =>
    refine fun i k x => ⟨hvalid.accepts_iff, fun hx => ?_⟩
    obtain ⟨a, ha, -⟩ := hvalid.identity (.refl _) (hvalid.accepts_iff.1 hx) rfl
    exact ⟨a, ha⟩
  case issued =>
    rintro done rest rfl i k x hx hrenewals
    obtain ⟨hdone, hrest⟩ := hlegal.append
    obtain ⟨hvalid', -⟩ := valid_empty.run hdone
    obtain ⟨-, hcont⟩ := hvalid'.run hrest
    rw [run_append] at hvalid hrenewals ⊢
    refine ⟨fun j hj => ?_, fun hsame => ?_⟩
    · obtain ⟨rfl, hsame⟩ := (hvalid'.issued hvalid hcont hx hrenewals).1 hj
      obtain ⟨a, ha, ha'⟩ := hvalid'.identity hcont hx hsame
      refine ⟨rfl, ⟨a, ha, ha'⟩, fun f hf => ?_⟩
      exact hvalid'.datum?_run hrest ha ha' (hvalid'.spares_of_issues hrest hx hsame ha hf)
    · exact (hvalid'.issued hvalid hcont hx hrenewals).2 ⟨rfl, hsame⟩
  case discarded =>
    rintro done between e rest rfl i c t a he ht ha k hc x hx hrenewals j hj
    obtain ⟨hdone, hlater⟩ := hlegal.append
    obtain ⟨hbetween, hrest⟩ := hlater.append
    obtain ⟨hvalid₀, -⟩ := valid_empty.run hdone
    obtain ⟨hvalid₁, hcont₁⟩ := hvalid₀.run hbetween
    obtain ⟨hvalid₂, hcall⟩ := hvalid₁.after (hrest [] e rest rfl)
    obtain ⟨-, hcont₃⟩ := hvalid₂.run
      (LegalRun.append (show LegalRun _ ([e] ++ rest) from hrest)).2
    rw [run_append] at ht
    rw [run_append, run_append, run_cons] at hvalid hrenewals hj
    exact hvalid₀.rejects hvalid hcont₁ hcall hcont₃ hx he hc ht ha hrenewals hj
  case others =>
    rintro done e rest rfl i
    obtain ⟨hvalid', -⟩ := valid_empty.run hlegal.append.1
    have he := hlegal done e rest rfl
    rw [run_append, run_cons, run_nil]
    refine ⟨fun xs hact j c hc => ?_, fun cs hact j x hx => ?_⟩
    · exact accepts_after_call hvalid' he hact (fun t => t.renewals_deleteVars xs) hc
    · exact accepts_after_call hvalid' he hact (fun t => t.renewals_deleteConss cs) hx
  case moved =>
    rintro done rest rfl i k f a j j' hj hj' hspares
    obtain ⟨hdone, hrest⟩ := hlegal.append
    rw [run_append] at hj' ⊢
    exact (valid_empty.run hdone).1.datum?_run hrest hj hj' hspares

/-- A host on which so many models were created. -/
def hostWith (models : ℕ) : Host ScriptedSolver := { solver := {}, models }

/-- A model is built, and three variables are added. -/
def additionMoves : List (Move ScriptedSolver) := [
  ⟨.create (.empty .plain false none) none, hostWith 0⟩,
  ⟨.call 0 (.addVars 3 false), hostWith 1⟩]

/-- The second one of them is deleted. -/
def deletionMove : Move ScriptedSolver := ⟨.call 0 (.deleteVars [⟨0, 1, 1⟩]), hostWith 1⟩

/-- The model is copied. -/
def copyMove : Move ScriptedSolver := ⟨.copy 0 none, hostWith 1⟩

/-- The third variable is the second one in the end, under a new handle, and it is described as it
was. No model accepts the old handle, and no other model the new one. -/
theorem accepted_handles_denote_survivor :
    let w := empty.run (additionMoves ++ [deletionMove, copyMove])
    (w.Accepts 0 (⟨0, 1, 2⟩ : Var) ∧ w.identity? 0 .variable 1 = some 2) ∧
      (∀ f : Field .variable, w.datum? 0 f 1 = (empty.run additionMoves).datum? 0 f 2) ∧
      (∀ j, w.Accepts j (⟨0, 1, 2⟩ : Var) → j = 0) ∧ ∀ j, ¬w.Accepts j (⟨0, 2, 1⟩ : Var) := by
  intro w
  have hlegal {act : Act} {n : ℕ} {w : World} (hn : w.created ≤ n)
      (hact : ∀ i file parts, act ≠ .call i (.readTask file parts)) :
      (⟨act, hostWith n⟩ : Move ScriptedSolver).Legal w :=
    ⟨nofun, hn, fun i _ c hc _ ⟨file, parts, _, hcall, _⟩ =>
      hact i file parts (hc.trans (congrArg (Act.call i) hcall))⟩
  have hrun : empty.LegalRun (additionMoves ++ [deletionMove, copyMove]) :=
    .cons (hlegal le_rfl nofun) <| .cons (hlegal (by decide +kernel) nofun) <|
      .cons (hlegal (by decide +kernel) nofun) <| .cons (hlegal (by decide +kernel) nofun) <| .nil _
  obtain ⟨-, haccepts, hissued, hdiscarded, -, hmoved⟩ := accepted_handles_denote _ hrun
  have hnow : w.Issues 0 (⟨0, 1, 2⟩ : Var) := by decide +kernel
  have hthen : (empty.run additionMoves).Issues 0 (⟨0, 2, 1⟩ : Var) := by decide +kernel
  have hid : w.identity? 0 .variable 1 = some 2 := by decide +kernel
  refine ⟨⟨(haccepts 0 .variable ⟨0, 1, 2⟩).1.2 hnow, hid⟩, fun f => ?_, fun j hj => ?_,
    fun j => ?_⟩
  · refine hmoved additionMoves _ rfl 0 .variable f 2 2 1 (by decide +kernel) hid ?_
    -- Neither a deletion nor a copy writes anything.
    rintro done e rest hsplit j - ⟨c, hact, hc⟩
    have he : e ∈ [deletionMove, copyMove] := hsplit ▸ List.mem_append_cons_self
    obtain rfl | rfl : e = deletionMove ∨ e = copyMove := by simpa using he
    · cases hact
      exact hc
    · cases hact
  · exact ((hissued _ [] (List.append_nil _).symm 0 .variable ⟨0, 1, 2⟩ hnow
      (Nat.lt_add_of_pos_right (by decide))).1 j hj).1
  · have hlt : 0 < (empty.run (additionMoves ++ [])).models.length := by decide +kernel
    have hok : ((Call.deleteVars [⟨0, 1, 1⟩]).run.run
        (empty.run (additionMoves ++ [])).models[0].model deletionMove.host).1.1.toBool = true := by
      decide +kernel +revert
    cases hresult : ((Call.deleteVars [⟨0, 1, 1⟩]).run.run
        (empty.run (additionMoves ++ [])).models[0].model deletionMove.host).1.1 with
    | error err => rw [hresult] at hok; cases hok
    | ok a =>
      exact hdiscarded additionMoves [] deletionMove [copyMove] rfl 0 (.deleteVars [⟨0, 1, 1⟩]) _ a
        rfl (List.getElem?_eq_getElem hlt) hresult .variable trivial ⟨0, 2, 1⟩ hthen
        (by decide +kernel) j

end World

end MathProgram

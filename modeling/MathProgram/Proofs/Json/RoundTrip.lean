import MathProgram.Proofs.Json.Steps
import MathProgram.Proofs.Json.Tokens

/-!
# Documents are read back

A printed document is read as the document with `null` for every NaN, unless it is nested too
deeply, and then it is an error. The induction is on the document. For each value, each run of
items and each run of members it says which token comes first and what the reader that starts with
this token comes to, whatever delimited bytes follow and however much nesting is allowed.

Conversely, what is read at all is nested no deeper than allowed and holds no NaN (`legal_of_read`),
so printing it and reading it again gives it back.
-/

namespace MathProgram.Json

open Utf8 (bytes)

mutual

/-- The document with `null` for every NaN. -/
def withoutNaN : Json → Json
  | num x => if x.isNaN then null else num x
  | arr items => arr (itemsWithoutNaN items)
  | obj members => obj (membersWithoutNaN members)
  | v => v

/-- The items with `null` for every NaN in them. -/
def itemsWithoutNaN : List Json → List Json
  | [] => []
  | v :: vs => withoutNaN v :: itemsWithoutNaN vs

/-- The members with `null` for every NaN in them. -/
def membersWithoutNaN : List (String × Json) → List (String × Json)
  | [] => []
  | (k, v) :: ms => (k, withoutNaN v) :: membersWithoutNaN ms

end

mutual

/-- No number of the document is a NaN. -/
def NaNFree : Json → Prop
  | num x => x.isNaN = false
  | arr items => ItemsNaNFree items
  | obj members => MembersNaNFree members
  | _ => True

/-- No number of the items is a NaN. -/
def ItemsNaNFree : List Json → Prop
  | [] => True
  | v :: vs => NaNFree v ∧ ItemsNaNFree vs

/-- No number of the members is a NaN. -/
def MembersNaNFree : List (String × Json) → Prop
  | [] => True
  | (_, v) :: ms => NaNFree v ∧ MembersNaNFree ms

end

/-! ## Printed documents -/

section Printed

variable {c : Cursor} {r : ReadFrom c} {fits fits' : Prop} {v : Json} {after : Cursor}

/-- A condition may be put in other words. -/
theorem Outcome.congr (h : Outcome r fits v after) (hiff : fits ↔ fits') :
    Outcome r fits' v after :=
  ⟨fun hf => h.reads (hiff.2 hf), fun hf => h.fails (hiff.not.2 hf)⟩

end Printed

/-- A written word is read as a token. -/
theorem next_bytes_word {s : String} {v : Json} {rest : List UInt8} (offset : ℕ)
    (hrest : Delimited rest) (hs : bytes s ≠ []) (hletter : (bytes s).all isLetter)
    (hv : word? (bytes s) = some v) : ∃ offset', Cursor.next ⟨bytes s ++ rest, offset⟩ =
      .ok (.token (.scalar v) ⟨rest, offset'⟩) :=
  ⟨_, next_word hs (List.all_eq_true.1 hletter) hrest hv⟩

/-- A text, a number or a word is read as one token. -/
theorem next_scalar {v : Json} {rest : List UInt8} (offset : ℕ) (hrest : Delimited rest)
    (harr : ∀ vs, v ≠ arr vs) (hobj : ∀ ms, v ≠ obj ms) :
    ∃ offset', Cursor.next ⟨v.pieces.flatMap bytes ++ rest, offset⟩ =
      .ok (.token (.scalar v.withoutNaN) ⟨rest, offset'⟩) := by
  have hnull := next_bytes_word (s := "null") offset hrest (by decide) rfl (if_pos rfl)
  match v with
  | null =>
    simpa [pieces, withoutNaN] using hnull
  | bool true =>
    simpa [pieces, withoutNaN] using next_bytes_word (s := "true") offset hrest (by decide) rfl
      (by rw [word?, if_neg (by decide), if_pos rfl])
  | bool false =>
    simpa [pieces, withoutNaN] using next_bytes_word (s := "false") offset hrest (by decide) rfl
      (by rw [word?, if_neg (by decide), if_neg (by decide), if_pos rfl])
  | int i =>
    -- The literal of a whole number has no point and no exponent, so it is read as one.
    have hint := next_numberText (numberText_toString i.toInt) offset hrest (number?_int i)
    simp only [pieces, withoutNaN, List.flatMap_singleton]
    exact ⟨_, hint⟩
  | num x =>
    simp only [pieces, withoutNaN, List.flatMap_singleton]
    cases hx : x.isNaN
    · obtain ⟨htext, hread⟩ := number?_num hx
      exact ⟨_, next_numberText htext offset hrest hread⟩
    · rw [numberLiteral, (Binary.ofFloat_eq_nan_iff x).2 hx]
      exact hnull
  | text s =>
    simp only [pieces, withoutNaN]
    exact ⟨_, next_text s rest offset⟩
  | arr vs => exact absurd rfl (harr vs)
  | obj ms => exact absurd rfl (hobj ms)

/-- Further items follow a comma. -/
theorem itemPieces_cons (v : Json) (vs : List Json) :
    itemPieces false (v :: vs) = "," :: itemPieces true (v :: vs) := by
  simp [itemPieces]

/-- Further members follow a comma and a line break. -/
theorem memberPieces_cons (m : String × Json) (ms : List (String × Json)) :
    memberPieces false (m :: ms) = ",\n" :: memberPieces true (m :: ms) := by
  simp [memberPieces]

/-- A printed scalar is read whatever nesting is allowed. -/
theorem outcome_scalar_pieces {v : Json} {rest : List UInt8} (offset : ℕ) (hrest : Delimited rest)
    (harr : ∀ vs, v ≠ arr vs) (hobj : ∀ ms, v ≠ obj ms) :
    ∃ t c₁ offset', Cursor.next ⟨v.pieces.flatMap bytes ++ rest, offset⟩ = .ok (.token t c₁) ∧
      (∀ b, t ≠ .closing b) ∧
      ∀ room, Outcome (valueFrom room t c₁) (v.nesting ≤ room) v.withoutNaN ⟨rest, offset'⟩ := by
  obtain ⟨offset', hnext⟩ := next_scalar offset hrest harr hobj
  have hflat : v.nesting = 0 := by
    cases v <;> first | rfl | exact absurd rfl (harr _) | exact absurd rfl (hobj _)
  refine ⟨_, _, offset', hnext, by simp, fun room => ?_⟩
  exact (outcome_scalar room _ _).congr (by simp [hflat])

mutual

/-- A printed value starts with a token from which it is read, if it is not nested too deeply. -/
theorem outcome_pieces (v : Json) (rest : List UInt8) (offset : ℕ) (hrest : Delimited rest) :
    ∃ t c₁ offset', Cursor.next ⟨v.pieces.flatMap bytes ++ rest, offset⟩ = .ok (.token t c₁) ∧
      (∀ b, t ≠ .closing b) ∧
      ∀ room, Outcome (valueFrom room t c₁) (v.nesting ≤ room) v.withoutNaN ⟨rest, offset'⟩ := by
  match v with
  | arr [] =>
    have hopen : Cursor.next ⟨(arr []).pieces.flatMap bytes ++ rest, offset⟩ =
        .ok (.token (.opening .square) ⟨byte ']' :: rest, offset + 1⟩) := next_punctuation rfl
    refine ⟨_, _, offset + 1 + 1, hopen, by simp, fun room => outcome_square fun room => ?_⟩
    exact (outcome_array_nil (next_punctuation rfl)).congr (by simp [nestingItems])
  | arr (v :: vs) =>
    have hopen : Cursor.next ⟨(arr (v :: vs)).pieces.flatMap bytes ++ rest, offset⟩ =
        .ok (.token (.opening .square) ⟨(itemPieces true (v :: vs)).flatMap bytes ++
          byte ']' :: rest, offset + 1⟩) := by
      rw [pieces, List.flatMap_cons, List.flatMap_append, List.append_assoc, List.append_assoc]
      exact next_punctuation rfl
    obtain ⟨t, c₁, offset', hnext, ht, hitems⟩ := outcome_itemPieces v vs rest (offset + 1)
    refine ⟨_, _, offset', hopen, by simp, fun room => outcome_square fun room => ?_⟩
    exact outcome_array_items hnext (ht _) (hitems room [])
  | obj [] =>
    have hopen : Cursor.next ⟨(obj []).pieces.flatMap bytes ++ rest, offset⟩ =
        .ok (.token (.opening .curly) ⟨byte '\x7d' :: rest, offset + 1⟩) := next_punctuation rfl
    refine ⟨_, _, offset + 1 + 1, hopen, by simp, fun room => outcome_curly fun room => ?_⟩
    exact (outcome_object_nil (next_punctuation rfl)).congr (by simp [nestingMembers])
  | obj (m :: ms) =>
    have hopen : Cursor.next ⟨(obj (m :: ms)).pieces.flatMap bytes ++ rest, offset⟩ =
        .ok (.token (.opening .curly) ⟨(memberPieces true (m :: ms)).flatMap bytes ++
          byte '\x7d' :: rest, offset + 1⟩) := by
      rw [pieces, List.flatMap_cons, List.flatMap_append, List.append_assoc, List.append_assoc]
      exact next_punctuation rfl
    obtain ⟨t, c₁, offset', hnext, ht, hmembers⟩ := outcome_memberPieces m ms rest (offset + 1)
    refine ⟨_, _, offset', hopen, by simp, fun room => outcome_curly fun room => ?_⟩
    exact outcome_object_members hnext (ht _) (hmembers room [])
  | null | bool _ | int _ | num _ | text _ =>
    exact outcome_scalar_pieces offset hrest (by simp) (by simp)
  termination_by sizeOf v

/-- Printed items start with a token from which they are read. -/
theorem outcome_itemPieces (v : Json) (vs : List Json) (rest : List UInt8) (offset : ℕ) :
    ∃ t c₁ offset', Cursor.next ⟨(itemPieces true (v :: vs)).flatMap bytes ++ byte ']' :: rest,
        offset⟩ = .ok (.token t c₁) ∧
      (∀ b, t ≠ .closing b) ∧
      ∀ room before, Outcome (items room before t c₁) (nestingItems (v :: vs) ≤ room)
        (.arr (before.reverse ++ itemsWithoutNaN (v :: vs))) ⟨rest, offset'⟩ := by
  match vs with
  | [] =>
    -- The last item is followed by the closing bracket.
    obtain ⟨t, c₁, offset', hnext, ht, hvalue⟩ := outcome_pieces v (byte ']' :: rest) offset
      (delimited_punctuation rest (by decide))
    refine ⟨t, c₁, offset' + 1, ?_, ht, fun room before => ?_⟩
    · simpa [itemPieces] using hnext
    · refine (outcome_items_last (hvalue room) (next_punctuation rfl)).congr ?_
      simp [nestingItems]
  | w :: ws =>
    -- Any other item is followed by a comma, from which the induction goes on.
    obtain ⟨t, c₁, offset', hnext, ht, hvalue⟩ := outcome_pieces v
      (byte ',' :: ((itemPieces true (w :: ws)).flatMap bytes ++ byte ']' :: rest)) offset
      (delimited_punctuation _ (by decide))
    obtain ⟨t₂, c₂, offset₂, hnext₂, -, hitems⟩ := outcome_itemPieces w ws rest (offset' + 1)
    refine ⟨t, c₁, offset₂, ?_, ht, fun room before => ?_⟩
    · rw [itemPieces, itemPieces_cons, if_pos rfl, List.nil_append, List.flatMap_append,
        List.flatMap_cons, List.append_assoc, List.append_assoc]
      exact hnext
    · have hrest := outcome_items_cons before (hvalue room) (next_punctuation rfl) hnext₂
        (hitems room (v.withoutNaN :: before))
      rw [List.reverse_cons, List.append_assoc] at hrest
      refine hrest.congr ?_
      simp [nestingItems]
  termination_by sizeOf (v :: vs)

/-- Printed members start with a token from which they are read. -/
theorem outcome_memberPieces (m : String × Json) (ms : List (String × Json)) (rest : List UInt8)
    (offset : ℕ) :
    ∃ t c₁ offset', Cursor.next ⟨(memberPieces true (m :: ms)).flatMap bytes ++
        byte '\x7d' :: rest, offset⟩ = .ok (.token t c₁) ∧
      (∀ b, t ≠ .closing b) ∧
      ∀ room before, Outcome (members room before t c₁) (nestingMembers (m :: ms) ≤ room)
        (.obj (before.reverse ++ membersWithoutNaN (m :: ms))) ⟨rest, offset'⟩ := by
  match m, ms with
  | (k, v), [] =>
    set offset₀ := offset + ((quotedPieces k).flatMap bytes).length
    have hname : Cursor.next ⟨(memberPieces true [(k, v)]).flatMap bytes ++ byte '\x7d' :: rest,
        offset⟩ = .ok (.token (.scalar (.text k)) ⟨byte ':' :: (v.pieces.flatMap bytes ++
          byte '\x7d' :: rest), offset₀⟩) := by
      rw [memberPieces, memberPieces, if_pos rfl, List.nil_append, List.append_nil,
        List.flatMap_append, List.flatMap_append, List.append_assoc, List.append_assoc]
      exact next_text k _ offset
    -- The last member is followed by the closing bracket.
    obtain ⟨t, c₁, offset', hnext, -, hvalue⟩ := outcome_pieces v (byte '\x7d' :: rest)
      (offset₀ + 1) (delimited_punctuation rest (by decide))
    refine ⟨_, _, offset' + 1, hname, by simp, fun room before => ?_⟩
    refine (outcome_members_last (next_punctuation rfl) (outcome_value hnext (hvalue room))
      (next_punctuation rfl)).congr ?_
    simp [nestingMembers]
  | (k, v), n :: ns =>
    set offset₀ := offset + ((quotedPieces k).flatMap bytes).length
    set rest₁ := byte ',' :: byte '\n' ::
      ((memberPieces true (n :: ns)).flatMap bytes ++ byte '\x7d' :: rest)
    have hname : Cursor.next ⟨(memberPieces true ((k, v) :: n :: ns)).flatMap bytes ++
        byte '\x7d' :: rest, offset⟩ = .ok (.token (.scalar (.text k))
          ⟨byte ':' :: (v.pieces.flatMap bytes ++ rest₁), offset₀⟩) := by
      rw [memberPieces, memberPieces_cons, if_pos rfl, List.nil_append, List.flatMap_append,
        List.flatMap_append, List.flatMap_append, List.flatMap_cons, List.append_assoc,
        List.append_assoc, List.append_assoc, List.append_assoc]
      exact next_text k _ offset
    obtain ⟨t, c₁, offset₁, hnext, -, hvalue⟩ := outcome_pieces v rest₁ (offset₀ + 1)
      (delimited_punctuation _ (by decide))
    -- Between two members there is a line break, which the lexer skips.
    obtain ⟨t₂, c₂, offset₂, hnext₂, -, hmembers⟩ :=
      outcome_memberPieces n ns rest (offset₁ + 1 + 1)
    refine ⟨_, _, offset₂, hname, by simp, fun room before => ?_⟩
    have hcolon : Cursor.next ⟨byte ':' :: (v.pieces.flatMap bytes ++ rest₁), offset₀⟩ =
        .ok (.token .colon ⟨v.pieces.flatMap bytes ++ rest₁, offset₀ + 1⟩) := next_punctuation rfl
    have hrest := outcome_members_cons hcolon (outcome_value hnext (hvalue room))
      (next_punctuation rfl) ((next_blank (by decide)).trans hnext₂)
      (hmembers room ((k, v.withoutNaN) :: before))
    rw [List.reverse_cons, List.append_assoc] at hrest
    refine hrest.congr ?_
    simp [nestingMembers]
  termination_by sizeOf (m :: ms)

end

/-! ## What is read -/

/-- The items are nested as deeply as the deepest of them. -/
theorem nestingItems_le_iff {vs : List Json} {n : ℕ} :
    nestingItems vs ≤ n ↔ ∀ v ∈ vs, v.nesting ≤ n := by
  induction vs with
  | nil => simp [nestingItems]
  | cons v vs ih => simp [nestingItems, ih]

/-- The members are nested as deeply as the deepest of them. -/
theorem nestingMembers_le_iff {ms : List (String × Json)} {n : ℕ} :
    nestingMembers ms ≤ n ↔ ∀ m ∈ ms, m.2.nesting ≤ n := by
  induction ms with
  | nil => simp [nestingMembers]
  | cons m ms ih => simp [nestingMembers, ih]

/-- Items are free of NaNs one by one. -/
theorem itemsNaNFree_iff {vs : List Json} : ItemsNaNFree vs ↔ ∀ v ∈ vs, v.NaNFree := by
  induction vs with
  | nil => simp [ItemsNaNFree]
  | cons v vs ih => simp [ItemsNaNFree, ih]

/-- Members are free of NaNs one by one. -/
theorem membersNaNFree_iff {ms : List (String × Json)} :
    MembersNaNFree ms ↔ ∀ m ∈ ms, m.2.NaNFree := by
  induction ms with
  | nil => simp [MembersNaNFree]
  | cons m ms ih => simp [MembersNaNFree, ih]

/-- A value that may stand where `room` levels of nesting are allowed. -/
structure Legal (room : ℕ) (v : Json) : Prop where
  nesting_le : v.nesting ≤ room
  nanFree : v.NaNFree

/-- An array of legal items is legal one level up. -/
theorem legal_arr {room : ℕ} {vs : List Json} (h : ∀ v ∈ vs, Legal room v) :
    Legal (room + 1) (arr vs) :=
  ⟨Nat.succ_le_succ (nestingItems_le_iff.2 fun v hv => (h v hv).nesting_le),
    itemsNaNFree_iff.2 fun v hv => (h v hv).nanFree⟩

/-- An object of legal members is legal one level up. -/
theorem legal_obj {room : ℕ} {ms : List (String × Json)} (h : ∀ m ∈ ms, Legal room m.2) :
    Legal (room + 1) (obj ms) :=
  ⟨Nat.succ_le_succ (nestingMembers_le_iff.2 fun m hm => (h m hm).nesting_le),
    membersNaNFree_iff.2 fun m hm => (h m hm).nanFree⟩

/-- A token that is a value by itself may stand anywhere. -/
def Token.Legal : Token → Prop
  | .scalar v => Json.Legal 0 v
  | _ => True

/-- A number that is read is no NaN. -/
theorem legal_number {w : List UInt8} {v : Json} (h : number? w = some v) : Legal 0 v := by
  unfold number? at h
  dsimp only at h
  split at h
  · obtain rfl := Option.some.inj h
    exact ⟨Nat.le_refl 0, trivial⟩
  · obtain ⟨d, -, rfl⟩ := Option.map_eq_some_iff.1 h
    exact ⟨Nat.le_refl 0, d.isNaN_toFloat⟩

/-- A word is no number. -/
theorem legal_word {w : List UInt8} {v : Json} (h : word? w = some v) : Legal 0 v := by
  unfold word? at h
  split_ifs at h <;> obtain rfl := Option.some.inj h <;> exact ⟨Nat.le_refl 0, trivial⟩

/-- Every token that is read is legal. -/
theorem legal_of_next {c c₁ : Cursor} {t : Token} (h : c.next = .ok (.token t c₁)) : t.Legal := by
  have hrun {c : Cursor} {belongs : UInt8 → Bool} {value? : List UInt8 → Option Json} {f : Fault}
      (hvalue : ∀ w v, value? w = some v → Legal 0 v)
      (h : readRun c belongs value? f = .ok (.token t c₁)) : t.Legal := by
    unfold readRun at h
    dsimp only at h
    split at h
    · rename_i v hv
      cases h
      exact hvalue _ v hv
    · cases h
  -- Punctuation is no value; texts, numbers and words are not nested.
  unfold Cursor.next Cursor.tokenHere at h
  split at h
  · cases h
  · split at h
    · rename_i hpunctuation
      cases h
      unfold punctuation? at hpunctuation
      split_ifs at hpunctuation <;> obtain rfl := Option.some.inj hpunctuation <;> exact trivial
    · split_ifs at h
      · unfold readText at h
        split at h
        · cases h
        · split at h
          · cases h
            exact ⟨Nat.le_refl 0, trivial⟩
          · cases h
      · exact hrun (fun _ _ => legal_number) h
      · exact hrun (fun _ _ => legal_word) h

/-- A value that may stand with some nesting allowed may stand with more. -/
theorem Legal.mono {n room : ℕ} {v : Json} (h : Legal n v) (hle : n ≤ room) : Legal room v :=
  ⟨h.nesting_le.trans hle, h.nanFree⟩

mutual

/-- A value that is read from a token on is legal. -/
theorem legal_of_valueFrom {room : ℕ} {t : Token} {c after : Cursor} {v : Json} (ht : t.Legal)
    (h : Reads (valueFrom room t c) v after) : Legal room v := by
  obtain ⟨hle, h⟩ := h
  rw [valueFrom.eq_def] at h
  -- A scalar stands anywhere; a bracket has used up one level of the room.
  split at h
  · cases h
    exact ht.mono (Nat.zero_le room)
  · split_ifs at h with hroom
    split at h
    · have := legal_of_array ⟨hle, h⟩
      exact this.mono (by omega)
    · have := legal_of_object ⟨hle, h⟩
      exact this.mono (by omega)
  · cases h
  termination_by (c.rest.length, 1)

/-- A value that is read is legal. -/
theorem legal_of_value {room : ℕ} {c after : Cursor} {v : Json}
    (h : Reads (value room c) v after) : Legal room v := by
  obtain ⟨hle, h⟩ := h
  rw [value] at h
  split at h
  · cases h
  · cases h
  · rename_i t c₁ hnext
    have hlt := Cursor.next_lt hnext
    dsimp only at h
    split at h
    · cases h
    · rename_i hr
      cases h
      exact legal_of_valueFrom (legal_of_next hnext) ⟨_, hr⟩
  termination_by (c.rest.length, 0)

/-- An array that is read is legal one level up. -/
theorem legal_of_array {room : ℕ} {c after : Cursor} {v : Json}
    (h : Reads (array room c) v after) : Legal (room + 1) v := by
  obtain ⟨hle, h⟩ := h
  rw [array] at h
  split at h
  · cases h
  · cases h
  · cases h
    exact legal_arr (by simp)
  · rename_i t c₁ _ hnext
    have hlt := Cursor.next_lt hnext
    dsimp only at h
    split at h
    · cases h
    · rename_i hr
      cases h
      exact legal_of_items (by simp) (legal_of_next hnext) ⟨_, hr⟩
  termination_by (c.rest.length, 0)

/-- Items that are read after legal ones are legal one level up. -/
theorem legal_of_items {room : ℕ} {before : List Json} {t : Token} {c after : Cursor} {v : Json}
    (hbefore : ∀ w ∈ before, Legal room w) (ht : t.Legal)
    (h : Reads (items room before t c) v after) : Legal (room + 1) v := by
  obtain ⟨hle, h⟩ := h
  rw [items] at h
  split at h
  · cases h
  · rename_i w c₁ hle₁ hr
    have hw := legal_of_valueFrom ht ⟨_, hr⟩
    have hall : ∀ u ∈ w :: before, Legal room u := List.forall_mem_cons.2 ⟨hw, hbefore⟩
    -- What is left gets shorter with each item, which ends the recursion.
    have hle₁ : c₁.rest.length ≤ c.rest.length := hle₁
    split at h
    · cases h
    · cases h
    · cases h
      exact legal_arr fun u hu => hall u (List.mem_reverse.1 hu)
    · rename_i c₂ hcomma
      have hlt₂ := Cursor.next_lt hcomma
      split at h
      · cases h
      · cases h
      · rename_i t₃ c₃ hnext
        have hlt₃ := Cursor.next_lt hnext
        dsimp only at h
        split at h
        · cases h
        · rename_i hr'
          cases h
          exact legal_of_items hall (legal_of_next hnext) ⟨_, hr'⟩
    · cases h
  termination_by (c.rest.length, 2)

/-- An object that is read is legal one level up. -/
theorem legal_of_object {room : ℕ} {c after : Cursor} {v : Json}
    (h : Reads (object room c) v after) : Legal (room + 1) v := by
  obtain ⟨hle, h⟩ := h
  rw [object] at h
  split at h
  · cases h
  · cases h
  · cases h
    exact legal_obj (by simp)
  · rename_i t c₁ _ hnext
    have hlt := Cursor.next_lt hnext
    dsimp only at h
    split at h
    · cases h
    · rename_i hr
      cases h
      exact legal_of_members (by simp) ⟨_, hr⟩
  termination_by (c.rest.length, 0)

/-- Members that are read after legal ones are legal one level up. -/
theorem legal_of_members {room : ℕ} {before : List (String × Json)} {t : Token}
    {c after : Cursor} {v : Json} (hbefore : ∀ m ∈ before, Legal room m.2)
    (h : Reads (members room before t c) v after) : Legal (room + 1) v := by
  obtain ⟨hle, h⟩ := h
  rw [members.eq_def] at h
  split at h
  · rename_i name
    split at h
    · cases h
    · cases h
    · rename_i c₁ hcolon
      have hlt₁ := Cursor.next_lt hcolon
      dsimp only at h
      split at h
      · cases h
      · rename_i w c₂ hle₂ hr
        have hw := legal_of_value ⟨_, hr⟩
        have hall : ∀ m ∈ (name, w) :: before, Legal room m.2 :=
          List.forall_mem_cons.2 ⟨hw, hbefore⟩
        -- What is left gets shorter with each member, which ends the recursion.
        have hle₂ : c₂.rest.length ≤ c₁.rest.length := hle₂
        split at h
        · cases h
        · cases h
        · cases h
          exact legal_obj fun m hm => hall m (List.mem_reverse.1 hm)
        · rename_i c₃ hcomma
          have hlt₃ := Cursor.next_lt hcomma
          split at h
          · cases h
          · cases h
          · rename_i t₄ c₄ hnext
            have hlt₄ := Cursor.next_lt hnext
            split at h
            · cases h
            · rename_i hr'
              cases h
              exact legal_of_members hall ⟨_, hr'⟩
        · cases h
    · cases h
  · cases h
  termination_by (c.rest.length, 0)

end

/-! ## Whole documents -/

/-- A document that is read may stand at the top. -/
theorem legal_of_read {input : List UInt8} {v : Json} (h : read input = .ok v) :
    Legal maxNesting v := by
  unfold read at h
  split at h
  · cases h
  · rename_i hr
    split at h
    · cases h
    · cases h
      exact legal_of_value ⟨_, hr⟩
    · cases h

/-- A printed document is read back without its NaNs, if it is not nested too deeply. -/
theorem read_render (v : Json) :
    (v.nesting ≤ maxNesting → read (bytes v.render) = .ok v.withoutNaN) ∧
      (maxNesting < v.nesting → ∃ e, read (bytes v.render) = .error e) := by
  -- Nothing follows the document, and nothing delimits as well as punctuation does.
  obtain ⟨t, c₁, offset', hnext, -, hvalue⟩ := outcome_pieces v [] 0 delimited_nil
  have hout := outcome_value hnext (hvalue maxNesting)
  rw [List.append_nil] at hout
  rw [render, Utf8.bytes_join]
  refine ⟨fun hfits => ?_, fun hdeep => ?_⟩
  · obtain ⟨hle, hr⟩ := hout.reads hfits
    rw [read, hr]
    rfl
  · obtain ⟨e, hr⟩ := hout.fails (Nat.not_le_of_lt hdeep)
    exact ⟨e, by rw [read, hr]⟩

mutual

/-- Without NaNs there is nothing to replace. -/
theorem withoutNaN_of_nanFree {v : Json} (h : v.NaNFree) : v.withoutNaN = v := by
  match v with
  | num x => rw [withoutNaN, if_neg (by simpa [NaNFree] using h)]
  | arr vs => rw [withoutNaN, itemsWithoutNaN_of_nanFree h]
  | obj ms => rw [withoutNaN, membersWithoutNaN_of_nanFree h]
  | null | bool _ | int _ | text _ => rfl

/-- Without NaNs there is nothing to replace in the items. -/
theorem itemsWithoutNaN_of_nanFree {vs : List Json} (h : ItemsNaNFree vs) :
    itemsWithoutNaN vs = vs := by
  match vs with
  | [] => rfl
  | v :: vs => rw [itemsWithoutNaN, withoutNaN_of_nanFree h.1, itemsWithoutNaN_of_nanFree h.2]

/-- Without NaNs there is nothing to replace in the members. -/
theorem membersWithoutNaN_of_nanFree {ms : List (String × Json)} (h : MembersNaNFree ms) :
    membersWithoutNaN ms = ms := by
  match ms with
  | [] => rfl
  | (k, v) :: ms =>
    rw [membersWithoutNaN, withoutNaN_of_nanFree h.1, membersWithoutNaN_of_nanFree h.2]

end

/-- Reading undoes printing, and the limit on nesting is exact: a document nested at most 64 deep is
read back with `null` for every NaN, and a deeper one is an error. Whatever is read at all is within
the limit, holds no NaN, and is read back as it is once it is printed. -/
theorem read_render_round_trip :
    (∀ v : Json, (v.nesting ≤ 64 → read (bytes v.render) = .ok v.withoutNaN) ∧
      (64 < v.nesting → ∃ e, read (bytes v.render) = .error e)) ∧
    ∀ (input : List UInt8) (v : Json), read input = .ok v →
      v.nesting ≤ 64 ∧ v.NaNFree ∧ read (bytes v.render) = .ok v := by
  refine ⟨read_render, fun input v h => ?_⟩
  obtain ⟨hnesting, hnan⟩ := legal_of_read h
  have hback := (read_render v).1 hnesting
  rw [withoutNaN_of_nanFree hnan] at hback
  exact ⟨hnesting, hnan, hback⟩

/-- Brackets around brackets, `n + 1` deep. -/
def brackets : ℕ → Json
  | 0 => arr []
  | n + 1 => arr [brackets n]

/-- Brackets are nested as deep as there are of them. -/
theorem nesting_brackets (n : ℕ) : (brackets n).nesting = n + 1 := by
  induction n with
  | zero => rfl
  | succ n ih => rw [brackets, nesting, nestingItems, ih, nestingItems, Nat.max_zero]

/-- A document with a negative zero, a control character and a name that stands twice is read back;
brackets are read back 64 deep and are an error 65 deep. -/
theorem read_render_round_trip_examples :
    let v := obj [("a\n", num (-0.0)), ("a\n", arr [int 3, num 3, null])]
    read (bytes v.render) = .ok v ∧ v.NaNFree ∧
      read (bytes (brackets 63).render) = .ok (brackets 63).withoutNaN ∧
      ∃ e, read (bytes (brackets 64).render) = .error e := by
  intro v
  have hread : read (bytes v.render) = .ok v := by
    have h := (read_render_round_trip.1 v).1 (by decide)
    have hv : v.withoutNaN = v := by
      simp only [v, withoutNaN, membersWithoutNaN, itemsWithoutNaN]
      rw [if_neg (by decide), if_neg (by decide)]
    rwa [hv] at h
  obtain ⟨-, hnan, -⟩ := read_render_round_trip.2 (bytes v.render) v hread
  exact ⟨hread, hnan, (read_render_round_trip.1 (brackets 63)).1 (nesting_brackets 63).le,
    (read_render_round_trip.1 (brackets 64)).2 (nesting_brackets 64).ge⟩

end MathProgram.Json

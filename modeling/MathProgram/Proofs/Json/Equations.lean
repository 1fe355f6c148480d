import Mathlib.Tactic.SplitIfs
import MathProgram.Json.Reader

/-!
# The equations of the reader

The readers of values, items and members return proofs that no byte was gained, which they need to
call each other. Without these proofs they are computations that carry a place along
(`Reading`), each made of the others by reading one token after another; `run_value`, `run_array`,
`run_items`, `run_object` and `run_members` are their equations. `run_itemsHere` and
`run_membersHere` say the same of items and members whose first token is still to be read.
-/

namespace MathProgram.Json

/-- A computation that goes through a document, or ends with an error. -/
abbrev Reading := StateT Cursor (Except ReadError)

/-- The token that was read, if there was one left, and the place after it. -/
def Lexed.split : Lexed → Option Token × Cursor
  | finish offset => (none, ⟨[], offset⟩)
  | token t after => (some t, after)

namespace Reading

variable {α β : Type}

/-- Reads a token; at the end of the document there is none. -/
def token : Reading (Option Token) := fun c => c.next.map Lexed.split

/-- Ends with an error here. -/
def fault (f : Fault) : Reading α := fun c => .error ⟨c.offset, f⟩

/-- A reader without its proof. -/
def of (reader : (c : Cursor) → ReadFrom c) : Reading Json := fun c =>
  (reader c).map Subtype.val

/-- Reads the value that starts with a token, if there is one. -/
def valueFrom (room : Nat) : Option Token → Reading Json
  | some t => of (Json.valueFrom room t)
  | none => fault .unexpectedEnd

/-- The reader of what is inside of a container. -/
def inside (room : Nat) : Bracket → Reading Json
  | .square => of (array room)
  | .curly => of (object room)

/-- Reads the items of an array from a token on, if there is one. -/
def items (room : Nat) (before : List Json) : Option Token → Reading Json
  | some t => of (Json.items room before t)
  | none => fault .unexpectedEnd

/-- Reads the members of an object from a token on, if there is one. -/
def members (room : Nat) (before : List (String × Json)) : Option Token → Reading Json
  | some t => of (Json.members room before t)
  | none => fault .expectedMemberName

/-- The run of one computation after another: that is left out if the first fails. -/
theorem run_bind (x : Reading α) (y : α → Reading β) (c : Cursor) : (x >>= y) c =
    match x c with
    | .ok (a, after) => y a after
    | .error e => .error e := by
  show (x c).bind (fun p => y p.1 p.2) = _
  cases x c <;> rfl

/-- The result of a reader without its proof. -/
theorem map_val_ok {c : Cursor} {r : Json × Cursor} (h : r.2.rest.length ≤ c.rest.length) :
    Except.map Subtype.val (.ok ⟨r, h⟩ : ReadFrom c) = .ok r := rfl

/-- A token that is left is read. -/
theorem run_token {c after : Cursor} {t : Token} (h : c.next = .ok (.token t after)) :
    token c = .ok (some t, after) := by
  rw [token, h]
  rfl

/-- At the end of the document no token is left. -/
theorem run_token_finish {c : Cursor} {offset : Nat} (h : c.next = .ok (.finish offset)) :
    token c = .ok (none, ⟨[], offset⟩) := by
  rw [token, h]
  rfl

/-- What is no token ends the reading. -/
theorem run_token_error {c : Cursor} {e : ReadError} (h : c.next = .error e) :
    token c = .error e := by
  rw [token, h]
  rfl

/-- Without a token the end of the document is reached. -/
theorem rest_of_token_none {c after : Cursor} (h : token c = .ok (none, after)) :
    after.rest = [] := by
  rw [token] at h
  rcases hnext : c.next with e | ⟨offset⟩ | ⟨t, c₁⟩ <;> rw [hnext] at h <;> cases h
  rfl

/-- A token uses up at least one byte. -/
theorem rest_of_token_some {c after : Cursor} {t : Token} (h : token c = .ok (some t, after)) :
    after.rest.length < c.rest.length := by
  rw [token] at h
  rcases hnext : c.next with e | ⟨offset⟩ | ⟨t, c₁⟩ <;> rw [hnext] at h <;> cases h
  exact Cursor.next_lt hnext

variable (room : Nat) (c : Cursor)

/-- A value starts with a token. -/
theorem run_value : of (value room) c = (do valueFrom room (← token)) c := by
  rw [run_bind, of, value]
  split <;> rename_i h
  · rw [run_token_error h]
    rfl
  · rw [run_token_finish h]
    rfl
  · rw [run_token h]
    dsimp only [valueFrom, of]
    cases Json.valueFrom room _ _ <;> rfl

/-- Inside brackets there is one level of nesting less. -/
theorem run_valueFrom (t : Option Token) : valueFrom room t c =
    match t with
    | some (.scalar v) => .ok (v, c)
    | some (.opening b) =>
      if room = 0 then fault .nestingTooDeep c
      else match b with
        | .square => of (array (room - 1)) c
        | .curly => of (object (room - 1)) c
    | some _ => fault .unexpectedToken c
    | none => fault .unexpectedEnd c := by
  cases t with
  | none => rfl
  | some t =>
    rw [valueFrom, of, Json.valueFrom.eq_def]
    cases t with
    | opening b =>
      dsimp only
      split_ifs
      · rfl
      · cases b <;> rfl
    | closing | comma | colon | scalar => rfl

/-- An array starts with a token: the closing bracket, or that of its first item. -/
theorem run_array : of (array room) c = (do
    match ← token with
    | some (.closing .square) => return Json.arr []
    | t => items room [] t) c := by
  rw [run_bind, of, array]
  split <;> rename_i h
  · rw [run_token_error h]
    rfl
  · rw [run_token_finish h]
    rfl
  · rw [run_token h]
    rfl
  · rename_i t c₁ hne
    rw [run_token h]
    have hitems : (match some t with
        | some (.closing .square) => return Json.arr []
        | t => items room [] t) = items room [] (some t) := by
      split
      · rename_i heq
        cases heq
        exact (hne rfl).elim
      · rfl
    dsimp only
    rw [hitems]
    dsimp only [items, of]
    cases Json.items room [] t c₁ <;> rfl

/-- An item is followed by a comma and a further item, or by the closing bracket. -/
theorem run_items (before : List Json) (t : Token) : items room before (some t) c = (do
    let v ← valueFrom room (some t)
    match ← token with
    | some .comma => items room (v :: before) (← token)
    | some (.closing .square) => return Json.arr (v :: before).reverse
    | _ => fault .expectedItemEnd) c := by
  rw [run_bind, items, valueFrom, of, of, Json.items]
  cases Json.valueFrom room t c with
  | error e => rfl
  | ok r =>
    obtain ⟨⟨v, c₁⟩, hle⟩ := r
    rw [map_val_ok]
    dsimp only
    rw [run_bind]
    split <;> rename_i h
    · rw [run_token_error h]
      rfl
    · rw [run_token_finish h]
      rfl
    · rw [run_token h]
      rfl
    · rw [run_token h]
      dsimp only
      rw [run_bind]
      split <;> rename_i h
      · rw [run_token_error h]
        rfl
      · rw [run_token_finish h]
        rfl
      · rw [run_token h]
        dsimp only [items, of]
        cases Json.items room _ _ _ <;> rfl
    · rename_i t' c₂ hsquare hcomma
      rw [run_token h]
      cases t' with
      | comma => exact (hcomma rfl).elim
      | closing b =>
        cases b with
        | square => exact (hsquare rfl).elim
        | curly => rfl
      | opening | colon | scalar => rfl

/-- An object starts with a token: the closing bracket, or that of its first member. -/
theorem run_object : of (object room) c = (do
    match ← token with
    | some (.closing .curly) => return Json.obj []
    | t => members room [] t) c := by
  rw [run_bind, of, object]
  split <;> rename_i h
  · rw [run_token_error h]
    rfl
  · rw [run_token_finish h]
    rfl
  · rw [run_token h]
    rfl
  · rename_i t c₁ hne
    rw [run_token h]
    have hmembers : (match some t with
        | some (.closing .curly) => return Json.obj []
        | t => members room [] t) = members room [] (some t) := by
      split
      · rename_i heq
        cases heq
        exact (hne rfl).elim
      · rfl
    dsimp only
    rw [hmembers]
    dsimp only [members, of]
    cases Json.members room [] t c₁ <;> rfl

/-- A member is a name, a colon and a value, followed by a comma and a further member, or by the
closing bracket. -/
theorem run_members (before : List (String × Json)) (t : Option Token) :
    members room before t c =
      match t with
      | some (.scalar (.text name)) => (do
          match ← token with
          | some .colon =>
            let v ← of (value room)
            match ← token with
            | some .comma => members room ((name, v) :: before) (← token)
            | some (.closing .curly) => return Json.obj ((name, v) :: before).reverse
            | _ => fault .expectedMemberEnd
          | _ => fault .expectedColon : Reading Json) c
      | _ => fault .expectedMemberName c := by
  cases t with
  | none => rfl
  | some t =>
    rw [members, of, Json.members.eq_def]
    split
    · rename_i name
      dsimp only
      rw [run_bind]
      split <;> rename_i h
      · rw [run_token_error h]
        rfl
      · rw [run_token_finish h]
        rfl
      · rw [run_token h]
        dsimp only
        rw [run_bind, of]
        cases value room _ with
        | error e => rfl
        | ok r =>
          obtain ⟨⟨v, c₂⟩, hle⟩ := r
          rw [map_val_ok]
          dsimp only
          rw [run_bind]
          split <;> rename_i h
          · rw [run_token_error h]
            rfl
          · rw [run_token_finish h]
            rfl
          · rw [run_token h]
            rfl
          · rw [run_token h]
            dsimp only
            rw [run_bind]
            split <;> rename_i h
            · rw [run_token_error h]
              rfl
            · rw [run_token_finish h]
              rfl
            · rw [run_token h]
              dsimp only [members, of]
              cases Json.members room _ _ _ <;> rfl
          · rename_i t' c₃ hcurly hcomma
            rw [run_token h]
            cases t' with
            | comma => exact (hcomma rfl).elim
            | closing b =>
              cases b with
              | curly => exact (hcurly rfl).elim
              | square => rfl
            | opening | colon | scalar => rfl
      · rename_i t' c₁ hcolon
        rw [run_token h]
        cases t' with
        | colon => exact (hcolon rfl).elim
        | opening | closing | comma | scalar => rfl
    · rename_i hname
      cases t with
      | scalar v =>
        cases v with
        | text name => exact (hname name rfl).elim
        | null | bool | int | num | arr | obj => rfl
      | opening | closing | comma | colon => rfl

/-! ## From a place on

The items of an array and the members of an object, from the place where the first token of them is
still to be read. -/

/-- Reads the items of an array from here on. -/
def itemsHere (before : List Json) : Reading Json := do items room before (← token)

/-- Reads the members of an object from here on. -/
def membersHere (before : List (String × Json)) : Reading Json := do members room before (← token)

/-- Items start with a value. -/
theorem run_itemsHere (before : List Json) : itemsHere room before c = (do
    let v ← of (value room)
    match ← token with
    | some .comma => itemsHere room (v :: before)
    | some (.closing .square) => return Json.arr (v :: before).reverse
    | _ => fault .expectedItemEnd) c := by
  rw [itemsHere, run_bind, run_bind, run_value, run_bind]
  rcases token c with e | ⟨_ | t, c₁⟩
  · rfl
  · rfl
  · dsimp only
    rw [run_items, run_bind]
    rfl

/-- A token that is read starts here. -/
theorem next_of_run_token {c c₁ : Cursor} {t : Token} (h : token c = .ok (some t, c₁)) :
    c.next = .ok (.token t c₁) := by
  rw [token] at h
  rcases hnext : c.next with e | ⟨offset⟩ | ⟨t', c₂⟩ <;> rw [hnext] at h <;> cases h
  rfl

/-- Reads the value of a member and what follows it. -/
def memberValue (before : List (String × Json)) (name : String) : Reading Json := do
  let v ← of (value room)
  match ← token with
  | some .comma => membersHere room ((name, v) :: before)
  | some (.closing .curly) => return Json.obj ((name, v) :: before).reverse
  | _ => fault .expectedMemberEnd

/-- Members start with a name and a colon. -/
theorem run_membersHere (before : List (String × Json)) : membersHere room before c = (do
    match ← token with
    | some (.scalar (.text name)) => (do
      match ← token with
      | some .colon => memberValue room before name
      | _ => fault .expectedColon)
    | _ => fault .expectedMemberName) c := by
  rw [membersHere, run_bind, run_bind]
  rcases token c with e | ⟨t, c₁⟩
  · rfl
  · dsimp only
    rw [run_members]
    match t with
    | some (.scalar (.text _)) => rfl
    | some (.scalar .null) | some (.scalar (.bool _)) | some (.scalar (.int _))
    | some (.scalar (.num _)) | some (.scalar (.arr _)) | some (.scalar (.obj _)) => rfl
    | none | some (.opening _) | some (.closing _) | some .comma | some .colon => rfl

/-- An array that does not end at once starts with its items. -/
theorem run_array_items (h : ∀ c₁, c.next ≠ .ok (.token (.closing .square) c₁)) :
    of (array room) c = itemsHere room [] c := by
  rw [run_array, itemsHere, run_bind, run_bind]
  rcases htoken : token c with e | ⟨_ | t, c₁⟩
  · rfl
  · rfl
  · have hne : t ≠ .closing .square := fun ht => h c₁ (ht ▸ next_of_run_token htoken)
    match t, hne with
    | .closing .square, hne => exact absurd rfl hne
    | .closing .curly, _ | .opening _, _ | .comma, _ | .colon, _ | .scalar _, _ => rfl

/-- An object that does not end at once starts with its members. -/
theorem run_object_members (h : ∀ c₁, c.next ≠ .ok (.token (.closing .curly) c₁)) :
    of (object room) c = membersHere room [] c := by
  rw [run_object, membersHere, run_bind, run_bind]
  rcases htoken : token c with e | ⟨_ | t, c₁⟩
  · rfl
  · rfl
  · have hne : t ≠ .closing .curly := fun ht => h c₁ (ht ▸ next_of_run_token htoken)
    match t, hne with
    | .closing .curly, hne => exact absurd rfl hne
    | .closing .square, _ | .opening _, _ | .comma, _ | .colon, _ | .scalar _, _ => rfl

/-- A bracket takes one level of nesting from the reader of what is inside. -/
theorem run_value_opening {c c₁ : Cursor} {b : Bracket}
    (h : c.next = .ok (.token (.opening b) c₁)) :
    of (value room) c = if room = 0 then fault .nestingTooDeep c₁ else inside (room - 1) b c₁ := by
  rw [run_value, run_bind, run_token h]
  dsimp only
  rw [run_valueFrom]
  cases b <;> rfl

/-- Reads a value with no token after it. -/
def document : Reading Json := do
  let v ← of (value maxNesting)
  match ← token with
  | none => return v
  | some _ => fault .trailingData

/-- A whole document is a value with no token after it. -/
theorem read_eq (bytes : List UInt8) : read bytes = (document ⟨bytes, 0⟩).map Prod.fst := by
  rw [document, run_bind, of, read]
  cases value maxNesting ⟨bytes, 0⟩ with
  | error e => rfl
  | ok r =>
    obtain ⟨⟨v, c⟩, hle⟩ := r
    rw [map_val_ok]
    dsimp only
    rw [run_bind]
    split <;> rename_i h
    · rw [run_token_error h]
      rfl
    · rw [run_token_finish h]
      rfl
    · rw [run_token h]
      rfl

end Reading

end MathProgram.Json

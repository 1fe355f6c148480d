import MathProgram.Json.Lexer

/-!
# Reading JSON

`Json.read` reads a whole document: one value with nothing but blanks after it, arrays and objects
nested at most `maxNesting` deep. The readers of values, items and members call each other; every
call starts at a later place than the one before it or at the same place with a smaller rank, and
a result carries the proof that its place is not before the start.
-/

namespace MathProgram.Json

/-- How deep arrays and objects may be nested. -/
def maxNesting : Nat := 64

/-- A value read from a place on: the value, the place after it, and that no byte was gained. -/
abbrev ReadFrom (c : Cursor) : Type :=
  Except ReadError {r : Json × Cursor // r.2.rest.length ≤ c.rest.length}

mutual

/-- Reads the value that starts with a token, whose place after it is given. Inside it, `room`
further levels of nesting are allowed. -/
def valueFrom (room : Nat) (t : Token) (c : Cursor) : ReadFrom c :=
  match t with
  | .scalar v => .ok ⟨(v, c), Nat.le_refl _⟩
  | .opening b =>
    if room = 0 then .error ⟨c.offset, .nestingTooDeep⟩
    else match b with
      | .square => array (room - 1) c
      | .curly => object (room - 1) c
  | _ => .error ⟨c.offset, .unexpectedToken⟩
  termination_by (c.rest.length, 1)

/-- Reads a value. -/
def value (room : Nat) (c : Cursor) : ReadFrom c :=
  match h : c.next with
  | .error e => .error e
  | .ok (.finish offset) => .error ⟨offset, .unexpectedEnd⟩
  | .ok (.token t c₁) =>
    have h₁ := Cursor.next_lt h
    match valueFrom room t c₁ with
    | .error e => .error e
    | .ok ⟨r, hr⟩ => .ok ⟨r, by omega⟩
  termination_by (c.rest.length, 0)

/-- Reads an array whose opening bracket has been read. -/
def array (room : Nat) (c : Cursor) : ReadFrom c :=
  match h : c.next with
  | .error e => .error e
  | .ok (.finish offset) => .error ⟨offset, .unexpectedEnd⟩
  | .ok (.token (.closing .square) c₁) => .ok ⟨(.arr [], c₁), Nat.le_of_lt (Cursor.next_lt h)⟩
  | .ok (.token t c₁) =>
    have h₁ := Cursor.next_lt h
    match items room [] t c₁ with
    | .error e => .error e
    | .ok ⟨r, hr⟩ => .ok ⟨r, by omega⟩
  termination_by (c.rest.length, 0)

/-- Reads the items of an array from a token on; `before` holds, reversed, those read before. -/
def items (room : Nat) (before : List Json) (t : Token) (c : Cursor) : ReadFrom c :=
  match valueFrom room t c with
  | .error e => .error e
  | .ok ⟨(v, c₁), h₁⟩ =>
    have h₁ : c₁.rest.length ≤ c.rest.length := h₁
    match h₂ : c₁.next with
    | .error e => .error e
    | .ok (.finish offset) => .error ⟨offset, .expectedItemEnd⟩
    | .ok (.token (.closing .square) c₂) =>
      .ok ⟨(.arr (v :: before).reverse, c₂),
        Nat.le_trans (Nat.le_of_lt (Cursor.next_lt h₂)) h₁⟩
    | .ok (.token .comma c₂) =>
      have := Cursor.next_lt h₂
      match h₃ : c₂.next with
      | .error e => .error e
      | .ok (.finish offset) => .error ⟨offset, .unexpectedEnd⟩
      | .ok (.token t₃ c₃) =>
        have := Cursor.next_lt h₃
        match items room (v :: before) t₃ c₃ with
        | .error e => .error e
        | .ok ⟨r, hr⟩ => .ok ⟨r, by omega⟩
    | .ok (.token _ c₂) => .error ⟨c₂.offset, .expectedItemEnd⟩
  termination_by (c.rest.length, 2)

/-- Reads an object whose opening bracket has been read. -/
def object (room : Nat) (c : Cursor) : ReadFrom c :=
  match h : c.next with
  | .error e => .error e
  | .ok (.finish offset) => .error ⟨offset, .expectedMemberName⟩
  | .ok (.token (.closing .curly) c₁) => .ok ⟨(.obj [], c₁), Nat.le_of_lt (Cursor.next_lt h)⟩
  | .ok (.token t c₁) =>
    have h₁ := Cursor.next_lt h
    match members room [] t c₁ with
    | .error e => .error e
    | .ok ⟨r, hr⟩ => .ok ⟨r, by omega⟩
  termination_by (c.rest.length, 0)

/-- Reads the members of an object from a token on; `before` holds, reversed, those read
before. -/
def members (room : Nat) (before : List (String × Json)) (t : Token) (c : Cursor) : ReadFrom c :=
  match t with
  | .scalar (.text name) =>
    match h₁ : c.next with
    | .error e => .error e
    | .ok (.finish offset) => .error ⟨offset, .expectedColon⟩
    | .ok (.token .colon c₁) =>
      have := Cursor.next_lt h₁
      match value room c₁ with
      | .error e => .error e
      | .ok ⟨(v, c₂), h₂⟩ =>
        have h₂ : c₂.rest.length ≤ c₁.rest.length := h₂
        match h₃ : c₂.next with
        | .error e => .error e
        | .ok (.finish offset) => .error ⟨offset, .expectedMemberEnd⟩
        | .ok (.token (.closing .curly) c₃) =>
          .ok ⟨(.obj ((name, v) :: before).reverse, c₃), by
            have := Cursor.next_lt h₃
            simp only
            omega⟩
        | .ok (.token .comma c₃) =>
          have := Cursor.next_lt h₃
          match h₄ : c₃.next with
          | .error e => .error e
          | .ok (.finish offset) => .error ⟨offset, .expectedMemberName⟩
          | .ok (.token t₄ c₄) =>
            have := Cursor.next_lt h₄
            match members room ((name, v) :: before) t₄ c₄ with
            | .error e => .error e
            | .ok ⟨r, hr⟩ => .ok ⟨r, by omega⟩
        | .ok (.token _ c₃) => .error ⟨c₃.offset, .expectedMemberEnd⟩
    | .ok (.token _ c₁) => .error ⟨c₁.offset, .expectedColon⟩
  | _ => .error ⟨c.offset, .expectedMemberName⟩
  termination_by (c.rest.length, 0)

end

/-- Reads a whole document. -/
def read (bytes : List UInt8) : Except ReadError Json :=
  match value maxNesting ⟨bytes, 0⟩ with
  | .error e => .error e
  | .ok ⟨(v, c), _⟩ =>
    match c.next with
    | .error e => .error e
    | .ok (.finish _) => .ok v
    | .ok (.token _ c₁) => .error ⟨c₁.offset, .trailingData⟩

end MathProgram.Json

import MathProgram.Json.Reader

/-!
# A scanner of documents

The reader goes through a document without a counter of its own: a place is what is left of the
document, and a bound on the nesting is handed down. `Scanner` is the machine that it stands for.
It has one state, with an offset and a counter of the nesting, which stays when a computation ends
with an error. The state also notes how deep the counter ever was, and how many containers were
being read at a time. Nothing in the code of the scanner bounds its loops, so they run on fuel here.
-/

namespace MathProgram.Json

/-- A level that goes up and down, and the highest it ever was. -/
structure Gauge where
  now : Nat
  most : Nat

/-- One level up. -/
def Gauge.up (g : Gauge) : Gauge := ⟨g.now + 1, max g.most (g.now + 1)⟩

/-- One level down. -/
def Gauge.down (g : Gauge) : Gauge := ⟨g.now - 1, g.most⟩

/-- The state of a scanner. -/
structure Scan where
  /-- How many bytes came before. -/
  offset : Nat
  /-- The counter of the nesting. -/
  depth : Gauge
  /-- The containers that are being read. -/
  active : Gauge

namespace Scan

/-- The state at the start of a document. -/
def start : Scan := ⟨0, ⟨0, 0⟩, ⟨0, 0⟩⟩

/-- Goes on by some bytes. -/
def move (s : Scan) (n : Nat) : Scan := { s with offset := s.offset + n }

/-- One level deeper. -/
def deepen (s : Scan) : Scan := { s with depth := s.depth.up }

/-- Back from one level deeper. -/
def surface (s : Scan) : Scan := { s with depth := s.depth.down }

/-- A container is begun. -/
def enter (s : Scan) : Scan := { s with active := s.active.up }

/-- A container is left. -/
def leave (s : Scan) : Scan := { s with active := s.active.down }

end Scan

/-- A computation of the scanner: it ends with a result or an error, and a state, or runs out of
fuel. -/
abbrev Scanner := ExceptT ReadError (StateT Scan Option)

namespace Scanner

variable {α β : Type} (src : List UInt8)

/-! ## Tokens -/

/-- The byte that comes next. -/
def peek : Scanner (Option UInt8) := do return src[(← get).offset]?

/-- Goes on by some bytes. -/
def advance (n : Nat) : Scanner Unit := modify (·.move n)

/-- Ends with an error here. -/
def fault (f : Fault) : Scanner α := do throw ⟨(← get).offset, f⟩

/-- There is no fuel left. -/
def exhausted : Scanner α := fun _ => none

/-- Takes the next byte. -/
def bump : Scanner UInt8 := do
  match ← peek src with
  | some b => do
    advance 1
    return b
  | none => fault .unexpectedEnd

/-- Goes on to what is no blank. -/
def skipBlanks : Nat → Scanner Unit
  | 0 => exhausted
  | fuel + 1 => do
    if (← peek src).any isBlank then
      advance 1
      skipBlanks fuel

/-- Takes the bytes of a text up to the closing quote; `acc` holds, reversed, those taken before. -/
def quotedFrom : Nat → (acc : List UInt8) → Scanner (List UInt8)
  | 0, _ => exhausted
  | fuel + 1, acc => do
    let b ← bump src
    if b == byte '"' then return acc.reverse
    else if b == byte '\\' then
      let e ← bump src
      if e == byte 'u' then
        let places := (src.drop (← get).offset).take 4
        match if places.length = 4 then escapedChar? places else none with
        | some c => do
          advance 4
          quotedFrom fuel ((String.utf8EncodeChar c).reverse ++ acc)
        | none => fault .badUnicodeEscape
      else quotedFrom fuel (unescape e :: acc)
    else quotedFrom fuel (b :: acc)

/-- The text of bytes that have been taken. -/
def decoded (bytes : List UInt8) : Scanner String :=
  match Utf8.text? bytes with
  | some t => return t
  | none => fault .invalidUtf8

/-- Takes a text, with its quotes. -/
def quoted (fuel : Nat) : Scanner String := do
  discard <| bump src
  decoded (← quotedFrom src fuel [])

/-- Takes the longest run of bytes that belong to a class as one value. -/
def run (belongs : UInt8 → Bool) (value? : List UInt8 → Option Json) (f : Fault) :
    Scanner Json := do
  let start := (← get).offset
  let bytes := (src.drop start).takeWhile belongs
  advance bytes.length
  match value? bytes with
  | some v => return v
  | none => throw ⟨start, f⟩

/-- Takes the token that starts here; at the end of the document there is none. -/
def tokenHere (fuel : Nat) : Scanner (Option Token) := do
  match ← peek src with
  | none => return none
  | some b =>
    match punctuation? b with
    | some t => do
      advance 1
      return some t
    | none =>
      if b == byte '"' then return some (.scalar (.text (← quoted src fuel)))
      else if b == byte '-' || isDigit b then
        return some (.scalar (← run src isNumberPart number? .badNumber))
      else return some (.scalar (← run src isLetter word? .unexpectedInput))

/-- Skips blanks and takes a token. -/
def token (fuel : Nat) : Scanner (Option Token) := do
  skipBlanks src fuel
  tokenHere src fuel

/-! ## Values -/

/-- Changes the state after a computation, whatever becomes of it. -/
def after {α : Type} (change : Scan → Scan) (act : Scanner α) : Scanner α :=
  fun s => (act s).map fun (r, s') => (r, change s')

mutual

/-- Takes a value. -/
def document : Nat → Scanner Json
  | 0 => exhausted
  | fuel + 1 => do valueOf fuel (← token src fuel)

/-- Takes the value that starts with a token. The counter goes back whatever becomes of a
container. -/
def valueOf : Nat → Option Token → Scanner Json
  | 0, _ => exhausted
  | fuel + 1, t =>
    match t with
    | some (.scalar v) => return v
    | some (.opening b) => do
      if (← get).depth.now = maxNesting then fault .nestingTooDeep
      else
        modify Scan.deepen
        after Scan.surface (container fuel b)
    | none => fault .unexpectedEnd
    | some _ => fault .unexpectedToken

/-- Takes a container whose opening bracket has been taken. -/
def container : Nat → Bracket → Scanner Json
  | 0, _ => exhausted
  | fuel + 1, b => do
    modify Scan.enter
    after Scan.leave (inside fuel b)

/-- Takes what is inside of a container, with its closing bracket. -/
def inside : Nat → Bracket → Scanner Json
  | 0, _ => exhausted
  | fuel + 1, .square => do
    match ← token src fuel with
    | some (.closing .square) => return Json.arr []
    | t => itemsFrom fuel [] t
  | fuel + 1, .curly => do
    match ← token src fuel with
    | some (.closing .curly) => return Json.obj []
    | t => membersFrom fuel [] t

/-- Takes the items of an array from a token on; `before` holds, reversed, those taken before. -/
def itemsFrom : Nat → (before : List Json) → Option Token → Scanner Json
  | 0, _, _ => exhausted
  | fuel + 1, before, t => do
    let v ← valueOf fuel t
    match ← token src fuel with
    | some .comma => itemsFrom fuel (v :: before) (← token src fuel)
    | some (.closing .square) => return Json.arr (v :: before).reverse
    | _ => fault .expectedItemEnd

/-- Takes the members of an object from a token on; `before` holds, reversed, those taken before. -/
def membersFrom : Nat → (before : List (String × Json)) → Option Token → Scanner Json
  | 0, _, _ => exhausted
  | fuel + 1, before, t =>
    match t with
    | some (.scalar (.text name)) => do
      match ← token src fuel with
      | some .colon =>
        let v ← document fuel
        match ← token src fuel with
        | some .comma => membersFrom fuel ((name, v) :: before) (← token src fuel)
        | some (.closing .curly) => return Json.obj ((name, v) :: before).reverse
        | _ => fault .expectedMemberEnd
      | _ => fault .expectedColon
    | _ => fault .expectedMemberName

end

/-- Takes a whole document. -/
def parse (fuel : Nat) : Scanner Json := do
  let v ← document src fuel
  match ← token src fuel with
  | none => return v
  | some _ => fault .trailingData

end Scanner

end MathProgram.Json

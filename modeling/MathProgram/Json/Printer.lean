import MathProgram.Json.Tree
import MathProgram.Decimal.Shortest
import MathProgram.Text.Utf8

/-!
# Printing JSON

A document is printed as a sequence of pieces; `Json.render` joins them, and a `Sink` of limited
room takes them one after another until one no longer fits. Nothing is printed between tokens but
a line break after the comma of an object. Infinite numbers are written as literals too large for
a double, which read back as infinities, and a NaN is written as `null`.
-/

namespace MathProgram

namespace Json

/-- The hexadecimal digits of a number below 65536, four of them. -/
def hex4 (n : Nat) : String :=
  let digits := Nat.toDigits 16 n
  String.ofList (List.replicate (4 - digits.length) '0' ++ digits)

/-- A character as it stands in a quoted text. -/
def escape (c : Char) : String :=
  if c = '"' then "\\\""
  else if c = '\\' then "\\\\"
  else if c = '\n' then "\\n"
  else if c = '\r' then "\\r"
  else if c = '\t' then "\\t"
  else if c.toNat < 0x20 then "\\u" ++ hex4 c.toNat
  else String.singleton c

/-- The pieces of a quoted text. -/
def quotedPieces (s : String) : List String :=
  "\"" :: (s.toList.map escape ++ ["\""])

/-- The literal of a double. -/
def numberLiteral (x : Float) : String :=
  match Binary.ofFloat x with
  | .nan => "null"
  | .infinite negative => if negative then "-1e400" else "1e400"
  | .finite .. => Float.scientific x

mutual

/-- The pieces of a document, in the order in which they are written. -/
def pieces : Json → List String
  | null => ["null"]
  | bool b => [if b then "true" else "false"]
  | int i => [toString i.toInt]
  | num x => [numberLiteral x]
  | text s => quotedPieces s
  | arr items => "[" :: (itemPieces true items ++ ["]"])
  | obj members => "\x7b" :: (memberPieces true members ++ ["\x7d"])

/-- The pieces of the items of an array; all but the first are preceded by a comma. -/
def itemPieces (first : Bool) : List Json → List String
  | [] => []
  | v :: vs => (if first then [] else [","]) ++ pieces v ++ itemPieces false vs

/-- The pieces of the members of an object; all but the first are preceded by a comma and a line
break. -/
def memberPieces (first : Bool) : List (String × Json) → List String
  | [] => []
  | (k, v) :: ms =>
    (if first then [] else [",\n"]) ++ quotedPieces k ++ [":"] ++ pieces v ++ memberPieces false ms

end

/-- The text of a document. -/
def render (v : Json) : String := String.join v.pieces

end Json

/-- A writer that takes a limited number of bytes. -/
structure Sink where
  /-- How many more bytes it takes. -/
  room : Nat
  /-- What it has taken. -/
  taken : List UInt8
  deriving DecidableEq, Repr

namespace Sink

/-- Takes as much of a piece as fits, and says whether all of it did. -/
def put (s : Sink) (bs : List UInt8) : Bool × Sink :=
  (bs.length ≤ s.room, { room := s.room - bs.length, taken := s.taken ++ bs.take s.room })

/-- Takes pieces in order up to the first that does not fit, and says whether all did. -/
def putAll (s : Sink) : List String → Bool × Sink
  | [] => (true, s)
  | p :: ps =>
    match s.put (Utf8.bytes p) with
    | (true, s) => s.putAll ps
    | (false, s) => (false, s)

end Sink

/-- Prints a document into a writer that takes `room` bytes: whether all of it was taken, and what
was taken. -/
def Json.printInto (v : Json) (room : Nat) : Bool × List UInt8 :=
  let (done, s) := Sink.putAll ⟨room, []⟩ v.pieces
  (done, s.taken)

end MathProgram

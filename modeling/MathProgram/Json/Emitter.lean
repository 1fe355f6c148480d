import MathProgram.Json.Printer

/-!
# Writing JSON by recursion

`Json.emit` writes a document by recursion on its tree, token by token and character by character,
to a writer of limited room, and stops at the first write that fails.
-/

namespace MathProgram.Json

open Utf8 (bytes)

/-- Writing to a writer of limited room, up to the first write that fails. -/
abbrev Emission := OptionT (StateM Sink) Unit

/-- The success of a write as an outcome. -/
def outcome (r : Bool × Sink) : Option Unit × Sink := (if r.1 then some () else none, r.2)

/-- Writes a piece. -/
def write (p : String) : Emission := OptionT.mk fun s => outcome (s.put (bytes p))

/-- Writes a quoted text, character by character. -/
def emitText (s : String) : Emission := do
  write "\""
  s.toList.forM fun c => write (escape c)
  write "\""

/-- Writes a separator before all items but the first. -/
def separate (first : Bool) (p : String) : Emission := if first then pure () else write p

mutual

/-- Writes a document. -/
def emit : Json → Emission
  | null => write "null"
  | bool b => write (if b then "true" else "false")
  | int i => write (toString i.toInt)
  | num x => write (numberLiteral x)
  | text s => emitText s
  | arr items => do
    write "["
    emitItems true items
    write "]"
  | obj members => do
    write "\x7b"
    emitMembers true members
    write "\x7d"

/-- Writes the items of an array, with a comma before all but the first. -/
def emitItems (first : Bool) : List Json → Emission
  | [] => pure ()
  | v :: vs => do
    separate first ","
    emit v
    emitItems false vs

/-- Writes the members of an object, with a comma and a line break before all but the first. -/
def emitMembers (first : Bool) : List (String × Json) → Emission
  | [] => pure ()
  | (k, v) :: ms => do
    separate first ",\n"
    emitText k
    write ":"
    emit v
    emitMembers false ms

end

end MathProgram.Json

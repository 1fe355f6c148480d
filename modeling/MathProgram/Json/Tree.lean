import MathProgram.Decimal.Literal

/-!
# JSON documents

The tree of a JSON document. A number literal is a whole number when it fits 64 bits, and a double
otherwise; the members of an object keep their order, and the first of several members of one name
is the one that is found. `Json.same` is equality of documents: numbers are compared as doubles
are, so a NaN differs from itself and the two zeros agree.
-/

namespace MathProgram

/-- The tree of a JSON document. -/
inductive Json where
  | null
  | bool (b : Bool)
  /-- A whole number of 64 bits. -/
  | int (i : Int64)
  /-- Any other number. -/
  | num (x : Float)
  | text (s : String)
  | arr (items : List Json)
  | obj (members : List (String × Json))
  deriving Inhabited

namespace Json

/-- The first member of that name, if the value is an object. -/
def member? (name : String) : Json → Option Json
  | obj members => (members.find? (·.1 == name)).map (·.2)
  | _ => none

/-- The value as a double, if it is a number of either kind. -/
def num? : Json → Option Float
  | num x => some x
  | int i => some i.toFloat
  | _ => none

/-- The value as a whole number, if it is one. -/
def int? : Json → Option Int64
  | int i => some i
  | _ => none

/-- The value as a text, if it is one. -/
def text? : Json → Option String
  | text s => some s
  | _ => none

/-- The items, if the value is an array. -/
def items? : Json → Option (List Json)
  | arr items => some items
  | _ => none

/-- An array of doubles. -/
def nums (xs : List Float) : Json := arr (xs.map num)

/-- An array of whole numbers. -/
def ints (is : List Int64) : Json := arr (is.map int)

mutual

/-- Equality of documents, with numbers compared as doubles are. -/
def same : Json → Json → Bool
  | null, null => true
  | bool a, bool b => a == b
  | int a, int b => a == b
  | num a, num b => a == b
  | text a, text b => a == b
  | arr a, arr b => sameItems a b
  | obj a, obj b => sameMembers a b
  | _, _ => false

/-- Equality of the items of two arrays, in order. -/
def sameItems : List Json → List Json → Bool
  | [], [] => true
  | a :: as, b :: bs => same a b && sameItems as bs
  | _, _ => false

/-- Equality of the members of two objects, in order. -/
def sameMembers : List (String × Json) → List (String × Json) → Bool
  | [], [] => true
  | (k, a) :: as, (l, b) :: bs => k == l && same a b && sameMembers as bs
  | _, _ => false

end

mutual

/-- How deep arrays and objects are nested. -/
def nesting : Json → Nat
  | arr items => nestingItems items + 1
  | obj members => nestingMembers members + 1
  | _ => 0

/-- The deepest nesting among the items of an array. -/
def nestingItems : List Json → Nat
  | [] => 0
  | v :: vs => max (nesting v) (nestingItems vs)

/-- The deepest nesting among the members of an object. -/
def nestingMembers : List (String × Json) → Nat
  | [] => 0
  | (_, v) :: ms => max (nesting v) (nestingMembers ms)

end

end Json

end MathProgram

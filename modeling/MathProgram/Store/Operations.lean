import MathProgram.Store.Attributes
import MathProgram.TaskFile.Load

/-!
# Operations on a store

`Op` lists the operations that change a store, with their arguments; `Op.run` runs one, whether it
succeeds or fails, and `afterOps` runs any number of them on a new store.
-/

namespace MathProgram.Store

/-- An operation that changes a store, with its arguments. -/
inductive Op where
  | addCol (c : ColData) (rows : List Nat) (vals : List Float)
  | addRow (r : RowData) (cols : List Nat) (vals : List Float)
  | deleteCols (cols : List Nat)
  | deleteRows (rows : List Nat)
  | setElements (rows cols : List Nat) (vals : List Float)
  | deleteElements (rows cols : List Nat)
  | deleteAllElements
  | setQuadElements (cols₁ cols₂ : List Nat) (vals : List Float)
  | deleteQuadElements (cols₁ cols₂ : List Nat)
  | deleteAllQuadElements
  | setIntAttr (name : String) (index : Option Nat) (v : Int32)
  | setRealAttr (name : String) (index : Option Nat) (v : Float)
  | setStrAttr (name : String) (index : Option Nat) (v : String)
  | setParam (name : String) (v : ParamValue)
  | setName (name : String)
  | setMinSense (minSense : Bool)
  | setObjConst (objConst : Float)
  | replaceProblem (cols : List ColData) (rows : List RowData)
    (entries quad : List (Nat × Nat × Float))
  /-- Loads sections of a file of any bytes. -/
  | readTask (bytes : List UInt8) (parts : Sections)
  | setSolution (solution : Solution)
  | setIis (rows cols : List Int32)
  | invalidate
  | recordJob (result : Int32)
  | setLog (log : LogSink)

open TaskFile (attempt) in
/-- Runs an operation. One that fails changes nothing, unless it is the loading of a file. -/
def Op.run : Op → Store → Except ResultCode Unit × Store
  | addCol c rows vals => attempt (·.edit (·.addCol c rows vals))
  | addRow r cols vals => attempt (·.edit (·.addRow r cols vals))
  | deleteCols cols => attempt (·.edit (·.deleteCols cols))
  | deleteRows rows => attempt (·.edit (·.deleteRows rows))
  | setElements rows cols vals => attempt (·.edit (·.setElements rows cols vals))
  | deleteElements rows cols => attempt (·.edit (·.deleteElements rows cols))
  | deleteAllElements => attempt (·.edit fun p => .ok p.deleteAllElements)
  | setQuadElements cols₁ cols₂ vals => attempt (·.edit (·.setQuadElements cols₁ cols₂ vals))
  | deleteQuadElements cols₁ cols₂ => attempt (·.edit (·.deleteQuadElements cols₁ cols₂))
  | deleteAllQuadElements => attempt (·.edit fun p => .ok p.deleteAllQuadElements)
  | setIntAttr name index v => attempt (·.setIntAttr name index v)
  | setRealAttr name index v => attempt (·.setRealAttr name index v)
  | setStrAttr name index v => attempt (·.setStrAttr name index v)
  | setParam name v => attempt (·.setParam name v)
  | setName name => fun s => (.ok (), s.setName name)
  | setMinSense minSense => fun s => (.ok (), s.setMinSense minSense)
  | setObjConst objConst => fun s => (.ok (), s.setObjConst objConst)
  | replaceProblem cols rows entries quad =>
    attempt (·.edit (·.replaceData cols rows entries quad))
  | readTask bytes parts => TaskFile.loadBytes bytes parts
  | setSolution solution => fun s => (.ok (), s.setSolution solution)
  | setIis rows cols => fun s => (.ok (), s.setIis rows cols)
  | invalidate => fun s => (.ok (), s.invalidate)
  | recordJob result => fun s => (.ok (), (s.recordJob result).2)
  | setLog log => fun s => (.ok (), { s with log })

/-- The store after operations on a new store, each of which may succeed or fail. -/
def afterOps (name : Option String) (ops : List Op) : Store :=
  ops.foldl (fun s op => (op.run s).2) (.empty name)

end MathProgram.Store

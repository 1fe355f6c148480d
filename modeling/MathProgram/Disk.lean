import MathProgram.Text.Utf8

/-!
# Files

A folder of files and further folders, addressed by names whose parts are separated by slashes. A
name is followed part by part: every part but the last has to lead to a folder that exists, `.`
stays in it and `..` leaves it. So a file can be created only in a folder that exists. Above the
folder there are only further folders that can be passed through. `/dev/full` names a device that
can be opened and takes no byte.
-/

namespace MathProgram

/-- What a name stands for in a folder. -/
inductive Node where
  | file (content : List UInt8)
  | folder
  deriving DecidableEq, Repr

/-- The parts that lead to a file or folder, the last of them first. -/
abbrev DiskPath := List String

/-- Files and folders by their paths. -/
structure Disk where
  nodes : List (DiskPath × Node) := []
  deriving DecidableEq, Repr, Inhabited

/-- A folder that exists. -/
inductive Folder where
  /-- The folder itself, if the path is empty, or a folder in it. -/
  | inside (path : DiskPath)
  /-- A folder above. -/
  | above
  deriving DecidableEq, Repr

/-- Where a name leads. -/
inductive Place where
  /-- The device that takes no byte. -/
  | full
  /-- A folder that the name reaches without naming it last. -/
  | folder
  /-- A file or folder, there or not, in a folder that exists; a name that ends in a slash can only
  be a folder's. -/
  | inside (path : DiskPath) (folderOnly : Bool)
  /-- Nowhere. -/
  | nowhere
  deriving DecidableEq, Repr

/-- The most bytes that a part of a name can have. -/
def maxPartBytes : Nat := 255

/-- The most bytes that a name can have: 4096 less the end mark and what leads to the folder. -/
def maxNameBytes : Nat := 4064

/-- Where the last part of a name leads from a folder. -/
def Folder.place (folder : Folder) (part : String) (folderOnly : Bool) : Place :=
  if part == "." || part == ".." then .folder
  else match folder with
    | .above => .nowhere
    | .inside path =>
      if part.utf8ByteSize ≤ maxPartBytes then .inside (part :: path) folderOnly else .nowhere

/-- What reading a name finds. -/
inductive Found where
  | missing
  | folder
  | file (content : List UInt8)
  deriving DecidableEq, Repr

namespace Disk

/-- The node of a path. -/
def node? (d : Disk) (path : DiskPath) : Option Node := d.nodes.lookup path

/-- Puts a node at a path. -/
def put (d : Disk) (path : DiskPath) (n : Node) : Disk :=
  ⟨(path, n) :: d.nodes.filter fun e => e.1 != path⟩

/-- The folder that a part of a name leads to from a folder. -/
def enter? (d : Disk) (folder : Folder) (part : String) : Option Folder :=
  match part, folder with
  | ".", _ => some folder
  | "..", .inside (_ :: up) => some (.inside up)
  | "..", _ => some .above
  | _, .above => none
  | name, .inside path =>
    if d.node? (name :: path) == some .folder then some (.inside (name :: path)) else none

/-- Where a name leads. -/
def place (d : Disk) (name : String) : Place :=
  let parts := (name.splitOn "/").filter (· != "")
  let start : Folder := if name.startsWith "/" then .above else .inside []
  if name.contains '\x00' || maxNameBytes < name.utf8ByteSize then .nowhere
  else if name == "/dev/full" then .full
  else match parts.getLast?, parts.dropLast.foldlM d.enter? start with
    | none, _ => .folder
    | _, none => .nowhere
    | some part, some folder => folder.place part (name.endsWith "/")

/-- Reads a name. -/
def find (d : Disk) (name : String) : Found :=
  match d.place name with
  | .folder => .folder
  | .inside path folderOnly =>
    match d.node? path with
    | some .folder => .folder
    | some (.file content) => if folderOnly then .missing else .file content
    | none => .missing
  | .full | .nowhere => .missing

/-- The path at which a file of this name can be written, if it can. -/
def writable? (d : Disk) (name : String) : Option DiskPath :=
  match d.place name with
  | .inside path false => if d.node? path != some .folder then some path else none
  | _ => none

/-- Writes a file in place of what it held, and says whether all was written. -/
def write (d : Disk) (name : String) (content : List UInt8) : Bool × Disk :=
  match d.writable? name with
  | some path => (true, d.put path (.file content))
  | none => (d.place name == .full && content.isEmpty, d)

/-- What a file holds that can be written; nothing if there is none yet. -/
def heldBy (d : Disk) (path : DiskPath) : List UInt8 :=
  match d.node? path with
  | some (.file content) => content
  | _ => []

/-- Opens a file to append to it, creating it if there is none, and says whether that worked. -/
def openToAppend (d : Disk) (name : String) : Bool × Disk :=
  match d.writable? name with
  | some path => (true, d.put path (.file (d.heldBy path)))
  | none => (d.place name == .full, d)

/-- Appends to a file, creating it if there is none. Where that fails nothing changes. -/
def append (d : Disk) (name : String) (content : List UInt8) : Disk :=
  match d.writable? name with
  | some path => d.put path (.file (d.heldBy path ++ content))
  | none => d

/-- Makes a folder, and says whether that worked. -/
def makeFolder (d : Disk) (name : String) : Bool × Disk :=
  match d.place name with
  | .inside path _ =>
    if (d.node? path).isNone then (true, d.put path .folder) else (false, d)
  | _ => (false, d)

/-- Removes a file, and says whether that worked. -/
def remove (d : Disk) (name : String) : Bool × Disk :=
  match d.writable? name with
  | some path =>
    if (d.node? path).isSome then (true, ⟨d.nodes.filter fun e => e.1 != path⟩) else (false, d)
  | none => (false, d)

end Disk

end MathProgram

import Flowchart.Disk.Path
import Flowchart.Text.Quoted

/-!
# Disks

A disk holds files and directories. A path is followed name by name, and all that is passed on the way must be
a directory; what stands at the end of it may be a file, a directory or nothing.

A write either fails before the file is opened or puts the whole content into it. A disk that is full, and any
other failure halfway through a write, are left out. So are paths with surrogates in them.
-/

namespace Flowchart

/-- What stands at a place. -/
inductive Disk.Item where
  | file (content : List UInt8)
  | directory

/-- The items of a disk by their places, which are the names on the way to them. The empty place is a
directory. -/
structure Disk where
  items : List (List String × Disk.Item) := []

namespace Disk

/-- Why a file cannot be opened or a directory made. -/
inductive Fault where
  | absent (path : String)
  | notDirectory (path : String)
  | directory (path : String)
  | occupied (path : String)
  /-- the path or one of its names is too long -/
  | tooLong (path : String)
  /-- the path has a null character in it -/
  | nullCharacter
  deriving DecidableEq, Repr

/-- The wording of a fault. -/
def Fault.message : Fault → Text
  | .absent path => "[Errno 2] No such file or directory: " ++ Text.quoted path
  | .notDirectory path => "[Errno 20] Not a directory: " ++ Text.quoted path
  | .directory path => "[Errno 21] Is a directory: " ++ Text.quoted path
  | .occupied path => "[Errno 17] File exists: " ++ Text.quoted path
  | .tooLong path => "[Errno 36] File name too long: " ++ Text.quoted path
  | .nullCharacter => "embedded null byte"

/-- The greatest number of bytes in a name. -/
def nameLimit : Nat := 255

/-- The greatest number of bytes in a path. -/
def pathLimit : Nat := 4095

/-- What stands at a place, if anything. -/
def item? (d : Disk) (place : List String) : Option Item :=
  if place.isEmpty then some .directory else d.items.lookup place

/-- The place that a name denotes in the directory at `place`. -/
def step (place : List String) (name : String) : List String :=
  if name == "." then place else if name == ".." then place.dropLast else place ++ [name]

/-- Goes along `names` from the directory at `place`. -/
def walk (d : Disk) (path : String) : List String → List String → Except Fault (List String)
  | place, [] => .ok place
  | place, name :: names =>
    match d.item? place with
    | some .directory =>
      if name.utf8ByteSize ≤ nameLimit then d.walk path (step place name) names
      else .error (.tooLong path)
    | some (.file _) => .error (.notDirectory path)
    | none => .error (.absent path)

/-- Whether a path can be followed at all, before any of its names is looked up. -/
def checkPath (path : String) : Except Fault Unit :=
  if path.toList.contains '\x00' then .error .nullCharacter
  else if path == "" then .error (.absent path)
  else if path.utf8ByteSize ≤ pathLimit then .ok ()
  else .error (.tooLong path)

/-- The place that a path leads to, which may be vacant. -/
def resolve (d : Disk) (path : String) : Except Fault (List String) := do
  checkPath path
  d.walk path [] (Path.steps path)

/-- The place of the file that a path leads to, which may be vacant. At a path that ends in a slash there is
no place for a file, even if nothing stands there. -/
def resolveFile (d : Disk) (path : String) : Except Fault (List String) := do
  checkPath path
  if Path.endsInSlash path then
    let _ ← d.walk path [] ((Path.names path).dropLast ++ ["."])
    throw (.directory path)
  else d.walk path [] (Path.names path)

/-- The content of a file. -/
def read (d : Disk) (path : String) : Except Fault (List UInt8) := do
  let place ← d.resolve path
  match d.item? place with
  | some (.file content) => return content
  | some .directory => throw (.directory path)
  | none => throw (.absent path)

/-- Whether something stands at a path. A name that is too long is a fault; any other path that cannot be
followed is vacant. -/
def occupied (d : Disk) (path : String) : Except Fault Bool :=
  match d.resolve path with
  | .ok place => .ok (d.item? place).isSome
  | .error (.tooLong path) => .error (.tooLong path)
  | .error _ => .ok false

/-- The disk with an item at a place. -/
def put (d : Disk) (place : List String) (item : Item) : Disk :=
  ⟨if d.items.any (·.1 == place) then
      d.items.map fun e => if e.1 == place then (place, item) else e
    else d.items ++ [(place, item)]⟩

/-- Writes a file, over its old content if it exists. -/
def write (d : Disk) (path : String) (content : List UInt8) : Except Fault Disk := do
  let place ← d.resolveFile path
  match d.item? place with
  | some .directory => throw (.directory path)
  | _ => return d.put place (.file content)

/-- Makes a directory at a path where nothing stands yet. The directory above it must be there. -/
def makeDirectory (d : Disk) (path : String) : Except Fault Disk := do
  checkPath path
  let place ← d.walk path [] (Path.names path)
  if (d.item? place).isSome then throw (.occupied path) else return d.put place .directory

end Disk

end Flowchart

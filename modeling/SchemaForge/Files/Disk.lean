import SchemaForge.Files.Store

/-!
A disk in memory: what each location holds, and a directory that relative paths start at. A location is the list of
names from the root. A path is looked up name by name, and every name but the last has to be a directory's. There are
no symbolic links and no permissions, and a disk is never full.
-/

namespace SchemaForge

/-- What a file holds: a text, or bytes that are no text. -/
inductive FileContent where
  | text (s : String)
  | bytes (b : List UInt8)
  deriving DecidableEq

abbrev Location := List String

inductive Disk.Node where
  | file (content : FileContent)
  | directory
  deriving DecidableEq

structure Disk where
  entries : List (Location × Disk.Node)
  /-- The directory that relative paths start at. -/
  here : Location

namespace Disk

/-- A disk with one empty directory, the working directory. -/
def empty : Disk := ⟨[(["work"], .directory)], ["work"]⟩

/-- What a location holds. The root is always a directory. -/
def node? (d : Disk) (l : Location) : Option Node := if l = [] then some .directory else d.entries.lookup l

/-- Puts something at a location, in place of what it held. -/
def put (d : Disk) (l : Location) (n : Node) : Disk := { d with entries := (l, n) :: d.entries.filter (·.1 ≠ l) }

/-- Removes a location and everything below it. -/
def remove (d : Disk) (l : Location) : Disk := { d with entries := d.entries.filter fun e => !l.isPrefixOf e.1 }

/-- The longest name that a directory may hold, in bytes. -/
def maxName : Nat := 255

/-- The longest path, in bytes. -/
def maxPath : Nat := 4095

/-- The location that a name leads to from another; it may hold nothing. -/
def enter (d : Disk) (l : Location) (name : String) : Except FileError Location :=
  match d.node? l with
  | none => .error .notFound
  | some (.file _) => .error .notDirectory
  | some .directory =>
    if name = "" ∨ name = "." then .ok l
    else if name = ".." then .ok l.dropLast
    else if maxName < name.utf8ByteSize then .error .nameTooLong
    else .ok (l ++ [name])

/-- The location that names lead to. -/
def follow (d : Disk) (l : Location) (names : List String) : Except FileError Location := names.foldlM d.enter l

/-- Paths that are refused before they are looked up. -/
def checkPath (path : String) : Except FileError Unit :=
  if path.toList.contains '\x00' then .error .nulInName
  else if path.isEmpty then .error .notFound
  else if maxPath < path.utf8ByteSize then .error .nameTooLong
  else .ok ()

/-- The directory that a path starts at. -/
def origin (d : Disk) (path : String) : Location := if Path.isAbsolute path then [] else d.here

/-- The location of a path. -/
def locate (d : Disk) (path : String) : Except FileError Location := do
  checkPath path
  d.follow (d.origin path) (Path.names path)

/-- What a path leads to, if it leads to anything. -/
def find? (d : Disk) (path : String) : Option Node :=
  match d.locate path with
  | .ok l => d.node? l
  | .error _ => none

def holds (d : Disk) (path : String) : Bool := (d.find? path).isSome

def holdsDirectory (d : Disk) (path : String) : Bool := d.find? path = some .directory

def readText (d : Disk) (path : String) : Except FileError String := do
  match d.node? (← d.locate path) with
  | some (.file (.text s)) => return s
  | some (.file (.bytes _)) => .error .notText
  | some .directory => .error .isDirectory
  | none => .error .notFound

/-- The location that a path names, without regard to slashes at its end; it may hold nothing. -/
def target (d : Disk) (path : String) : Except FileError Location := do
  checkPath path
  d.follow (d.origin path) (Path.names (Path.trimSlashes path))

/-- Makes a directory. -/
def makeDirectory (d : Disk) (path : String) : Except FileError Disk := do
  let l ← d.target path
  match d.node? l with
  | some _ => .error .alreadyExists
  | none => return d.put l .directory

/-- Writes a file, in place of what the file held. The directory of the path comes first; a slash at the end asks
    for a directory, whatever the name before it. -/
def write (d : Disk) (path : String) (content : FileContent) : Except FileError Disk := do
  checkPath path
  let names := Path.names (Path.trimSlashes path)
  let holder ← d.follow (d.origin path) (names.dropLast ++ [""])
  if Path.endsInSlash path then .error .isDirectory
  let l ← d.enter holder (names.getLastD "")
  match d.node? l with
  | some .directory => .error .isDirectory
  | _ => return d.put l (.file content)

/-- A failed operation leaves the disk as it was. -/
def attempt (operation : Disk → Except FileError Disk) : StateM Disk (Except FileError Unit) := fun d =>
  match operation d with
  | .ok d => (.ok (), d)
  | .error e => (.error e, d)

instance : FileStore (StateM Disk) where
  holds path := fun d => (d.holds path, d)
  holdsDirectory path := fun d => (d.holdsDirectory path, d)
  readText path := fun d => (d.readText path, d)
  makeDirectory path := attempt fun d => d.makeDirectory path
  writeText path text := attempt fun d => d.write path (.text text)

/-- The paths below the working directory, those of directories with a slash at the end, in order. -/
def listing (d : Disk) : List String :=
  let below := d.entries.filterMap fun e =>
    if d.here.isPrefixOf e.1 ∧ d.here.length < e.1.length then
      some (String.intercalate "/" (e.1.drop d.here.length) ++ (if e.2 = .directory then "/" else ""))
    else none
  below.mergeSort fun a b => a ≤ b

end Disk

end SchemaForge

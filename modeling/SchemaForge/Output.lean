import SchemaForge.Files.Store
import SchemaForge.Plan
import SchemaForge.Text.Blank

/-!
Writing planned files, or showing what would be written, and comparing them with what is on the disk. White space at
the end of a file does not count in a comparison.
-/

namespace SchemaForge

inductive WriteResult where
  | written (path : String) (bytes : Nat)
  /-- Nothing was written: the file that would have been. -/
  | preview (path content : String)
  deriving DecidableEq

inductive WriteError where
  | directory (path : String) (e : FileError)
  | file (path : String) (e : FileError)
  deriving DecidableEq

def WriteError.message : WriteError → String
  | directory path e => "Failed to create directory " ++ path ++ ": " ++ e.message
  | file path e => "Failed to write file " ++ path ++ ": " ++ e.message

/-- How a planned file compares with the disk. -/
inductive FileStatus where
  | upToDate | stale | missing
  deriving DecidableEq

namespace OutputFile
variable {m : Type → Type} [Monad m] [FileStore m]

/-- Makes the directory of the file if it is missing. -/
def prepare (f : OutputFile) : m (Except WriteError Unit) :=
  match Path.parent? f.path with
  | none => return .ok ()
  | some parent => do
    if parent.isEmpty then return .ok ()
    else if ← FileStore.holds parent then return .ok ()
    else
      match ← FileStore.makeDirectories parent with
      | .ok () => return .ok ()
      | .error e => return .error (.directory parent e)

/-- Writes the file, with its directory; in a dry run only says what it would write. -/
def write (dryRun : Bool) (f : OutputFile) : m (Except WriteError WriteResult) := do
  if dryRun then return .ok (.preview f.path f.content)
  else
    match ← f.prepare with
    | .error e => return .error e
    | .ok () =>
      match ← FileStore.writeText f.path f.content with
      | .ok () => return .ok (.written f.path f.content.utf8ByteSize)
      | .error e => return .error (.file f.path e)

/-- Writes files in their order, up to the first that cannot be written. -/
def writeAll (dryRun : Bool) : List OutputFile → m (Except WriteError (List WriteResult))
  | [] => return .ok []
  | f :: fs => do
    match ← f.write dryRun with
    | .error e => return .error e
    | .ok result =>
      match ← writeAll dryRun fs with
      | .error e => return .error e
      | .ok results => return .ok (result :: results)

/-- The texts are equal but for white space at their ends. -/
def agreesWith (f : OutputFile) (text : String) : Bool := Text.trimEnd text = Text.trimEnd f.content

/-- Compares the file with the disk. -/
def check (f : OutputFile) : m (Except FileError FileStatus) := do
  if ← FileStore.holds f.path then
    match ← FileStore.readText f.path with
    | .ok text => return .ok (if f.agreesWith text then .upToDate else .stale)
    | .error e => return .error e
  else return .ok .missing

end OutputFile

end SchemaForge

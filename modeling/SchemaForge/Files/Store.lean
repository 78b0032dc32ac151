import SchemaForge.Files.Path

/-!
Files as programs see them. `FileStore m` is what a monad `m` has to offer; directories with their missing parents are
made on top of it.
-/

namespace SchemaForge

/-- Why an operation on a file failed. -/
inductive FileError where
  | notFound
  | alreadyExists
  | notDirectory
  | isDirectory
  | nameTooLong
  | nulInName
  | noRoot
  | notText
  | other (message : String)
  deriving DecidableEq

def FileError.message : FileError → String
  | notFound => "No such file or directory (os error 2)"
  | alreadyExists => "File exists (os error 17)"
  | notDirectory => "Not a directory (os error 20)"
  | isDirectory => "Is a directory (os error 21)"
  | nameTooLong => "File name too long (os error 36)"
  | nulInName => "file name contained an unexpected NUL byte"
  | noRoot => "failed to create whole tree"
  | notText => "stream did not contain valid UTF-8"
  | other message => message

/-- Operations on files. A path that cannot be looked up holds nothing. -/
class FileStore (m : Type → Type) where
  holds : String → m Bool
  holdsDirectory : String → m Bool
  readText : String → m (Except FileError String)
  /-- Makes one directory; its parent has to be there. -/
  makeDirectory : String → m (Except FileError Unit)
  /-- Writes a whole file, in place of what it held. -/
  writeText : String → String → m (Except FileError Unit)

namespace FileStore
variable {m : Type → Type} [Monad m] [FileStore m]

/-- The result of making a directory, where one that is there already is as good. -/
def settle (path : String) (result : Except FileError Unit) : m (Except FileError Unit) :=
  match result with
  | .ok () => return .ok ()
  | .error e => do
    if ← holdsDirectory path then return .ok () else return .error e

/-- Makes the first of a list of directories, each of which is inside the next. Parents are made only when one is
    missing. -/
def makeNested : List String → m (Except FileError Unit)
  | [] => return .error .noRoot
  | path :: outer => do
    if path.isEmpty then return .ok ()
    match ← makeDirectory path with
    | .error .notFound =>
      match ← makeNested outer with
      | .ok () => settle path (← makeDirectory path)
      | .error e => return .error e
    | result => settle path result

/-- Makes a directory and its missing parents. -/
def makeDirectories (path : String) : m (Except FileError Unit) := makeNested (Path.ancestors path)

end FileStore

end SchemaForge

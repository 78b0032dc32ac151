import SchemaForge.CommandLine

/-!
The program: it runs the command that its arguments ask for on the files of the machine, prints what the command
reports, and exits with its code.
-/

namespace SchemaForge

/-- The reason of a failed system call. -/
def FileError.ofSystem : IO.Error → FileError
  | .noFileOrDirectory _ _ _ => .notFound
  | .alreadyExists _ _ _ => .alreadyExists
  | .inappropriateType _ code _ => if code = 20 then .notDirectory else .isDirectory
  | .invalidArgument path code details =>
    if code = 36 then .nameTooLong else .other (toString (IO.Error.invalidArgument path code details))
  | e => .other (toString e)

/-- The result of an action on files. -/
def FileError.attempt {α : Type} (action : IO α) : IO (Except FileError α) := do
  try
    return .ok (← action)
  catch e =>
    return .error (.ofSystem e)

/-- Opens a file or directory for reading. -/
def openForReading (path : String) : IO (Except FileError IO.FS.Handle) :=
  FileError.attempt (IO.FS.Handle.mk path .read)

instance : FileStore IO where
  holds path := do
    match ← openForReading path with
    | .ok _ => return true
    | .error _ => return false
  holdsDirectory path := do
    match ← openForReading path with
    | .ok handle =>
      match ← FileError.attempt (handle.read 1) with
      | .error .isDirectory => return true
      | _ => return false
    | .error _ => return false
  readText path := do
    match ← FileError.attempt (IO.FS.readBinFile path) with
    | .error e => return .error e
    | .ok bytes =>
      match String.fromUTF8? bytes with
      | some text => return .ok text
      | none => return .error .notText
  makeDirectory path := FileError.attempt (IO.FS.createDir path)
  writeText path text := FileError.attempt (IO.FS.writeFile path text)

/-- Prints a report and gives its exit code. -/
def Report.print (r : Report) : IO UInt32 := do
  for line in r.lines do
    IO.println line
  match r.failure with
  | some failure => IO.eprintln ("Error: " ++ failure.message)
  | none => pure ()
  return r.exitCode.toUInt32

end SchemaForge

open SchemaForge in
def main (arguments : List String) : IO UInt32 := do
  match CommandLine.parse arguments with
  | .ok command => (← (command.run : IO Report)).print
  | .error .version => do
    IO.print CommandLine.versionText
    return 0
  | .error .help => do
    IO.print CommandLine.helpText
    return 0
  | .error .usage => do
    IO.eprint CommandLine.helpText
    return 2

import SchemaForge.Output

/-!
The commands: generating the schemas of a document, writing a configuration file, and checking that generated schemas
are up to date. A command reports lines of output and perhaps a failure.
-/

namespace SchemaForge

inductive LoadError where
  | notFound (path : String)
  | unreadable (path : String) (e : FileError)
  | invalid (path : String) (e : Document.Error)

inductive SettingsError where
  | unreadable (path : String) (e : FileError)
  | invalid (path : String) (e : Settings.Error)

/-- Why a command failed. -/
inductive Failure where
  | load (e : LoadError)
  | settings (e : SettingsError)
  | write (e : WriteError)
  | validation (what : String)
  | io (e : FileError)

def LoadError.message : LoadError → String
  | notFound path => "Input file not found: " ++ path
  | unreadable path e => "Failed to read " ++ path ++ ": " ++ e.message
  | invalid path e => path ++ ": " ++ e.message

def SettingsError.message : SettingsError → String
  | unreadable path e => "Failed to read config " ++ path ++ ": " ++ e.message
  | invalid path .malformed => "Invalid TOML in " ++ path ++ ": TOML parse error"
  | invalid path (.invalid e text) => "Invalid TOML in " ++ path ++ ": " ++ e.message text
  | invalid _ .emptyInputSuffix =>
    Settings.invalidValue "output.input_suffix" "must not be empty, input files would overwrite canonical ones"
  | invalid _ .blankLibrary => Settings.invalidValue "generator.library" "must not be empty"

def Failure.message : Failure → String
  | load e => "Failed to load document: " ++ e.message
  | settings e => "Failed to load configuration: " ++ e.message
  | write e => "Failed to write output: " ++ e.message
  | validation what => "Validation failed: " ++ what
  | io e => "IO error: " ++ e.message

/-- The exit code of a failed command. -/
def Failure.exitCode : Failure → Nat
  | validation _ => 2
  | _ => 1

/-- What a command says. -/
structure Report where
  lines : List String
  failure : Option Failure := none

namespace Report

def exitCode (r : Report) : Nat := (r.failure.map Failure.exitCode).getD 0

end Report

/-- What `generate` and `validate` work on. -/
structure Selection where
  input : String
  overrides : Overrides := {}
  config : Option String := none
  deriving DecidableEq

inductive Command where
  | generate (selection : Selection) (dryRun : Bool)
  | init (output : String) (force : Bool)
  | validate (selection : Selection)
  deriving DecidableEq

section
variable {m : Type → Type} [Monad m] [FileStore m]

/-- The document in a file. -/
def Document.load (path : String) : m (Except LoadError Document) := do
  if ← FileStore.holds path then
    match ← FileStore.readText path with
    | .error e => return .error (.unreadable path e)
    | .ok text =>
      match Document.parse text with
      | .error e => return .error (.invalid path e)
      | .ok d => return .ok d
  else return .error (.notFound path)

/-- The validated settings in a file; the defaults if there is no such file. -/
def Settings.load (path : Option String) : m (Except SettingsError Settings) := do
  let path := path.getD Settings.defaultPath
  if ← FileStore.holds path then
    match ← FileStore.readText path with
    | .error e => return .error (.unreadable path e)
    | .ok text =>
      match Settings.parse text with
      | .error e => return .error (.invalid path e)
      | .ok s =>
        match s.validate with
        | .error e => return .error (.invalid path e)
        | .ok () => return .ok s
  else return .ok {}

/-- The settings of a run: those of the file with the flags over them, validated before and after. -/
def Selection.settings (s : Selection) : m (Except SettingsError Settings) := do
  match ← Settings.load s.config with
  | .error e => return .error e
  | .ok settings =>
    let merged := settings.merge s.overrides
    match merged.validate with
    | .error e => return .error (.invalid (s.config.getD Settings.defaultPath) e)
    | .ok () => return .ok merged

namespace Command

/-- A line that sets a shown file off. -/
def rule : String := String.ofList (List.replicate 60 '─')

def resultLines : WriteResult → List String
  | .written path bytes => ["✓ Written " ++ toString bytes ++ " bytes to " ++ path]
  | .preview path content => ["[dry-run] Would write to " ++ path ++ ":", rule, content, rule]

/-- Says how many models and enums a document has. -/
def foundLine (d : Document) : String :=
  "  Found " ++ toString d.models.length ++ " model(s) and " ++ toString d.enums.length ++ " enum(s)"

def warningLines (p : Plan) : List String :=
  if 0 < p.unresolvedCount then
    ["Warning: " ++ toString p.unresolvedCount ++ " unresolved reference(s) left as placeholders"]
  else []

/-- Generates the files of a document. -/
def runGenerate (s : Selection) (dryRun : Bool) : m Report := do
  match ← s.settings with
  | .error e => return ⟨[], some (.settings e)⟩
  | .ok settings =>
    let loading := ["Loading " ++ s.input]
    match ← Document.load s.input with
    | .error e => return ⟨loading, some (.load e)⟩
    | .ok d =>
      let plan := settings.plan d
      let progress := loading ++ [foundLine d, "Generating TypeBox schemas..."] ++ warningLines plan
      match ← OutputFile.writeAll dryRun plan.files with
      | .error e => return ⟨progress, some (.write e)⟩
      | .ok results =>
        return ⟨progress ++ results.flatMap resultLines ++
          ["  Generated " ++ toString plan.files.length ++ " file(s)"], none⟩

/-- Writes a configuration file with the defaults. -/
def runInit (output : String) (force : Bool) : m Report := do
  let there ← FileStore.holds output
  if there ∧ force = false then
    return ⟨["Error: Configuration file already exists: " ++ output, "  Use --force to overwrite"],
      some (.validation "Configuration file already exists")⟩
  else
    match ← FileStore.writeText output Settings.defaultText with
    | .error e => return ⟨[], some (.io e)⟩
    | .ok () => return ⟨["✓ Created configuration file: " ++ output], none⟩

/-- The files that are stale or missing, with the lines that say so, up to the first that cannot be read. -/
def checkAll : List OutputFile → m (Except (List String × FileError) (List String))
  | [] => return .ok []
  | f :: fs => do
    match ← f.check with
    | .error e => return .error ([], e)
    | .ok status =>
      let line := match status with
        | .upToDate => []
        | .stale => ["  stale " ++ f.path]
        | .missing => ["  missing " ++ f.path]
      match ← checkAll fs with
      | .error (lines, e) => return .error (line ++ lines, e)
      | .ok lines => return .ok (line ++ lines)

/-- Compares the files of a document with the disk. -/
def runValidate (s : Selection) : m Report := do
  let validating := ["Validating schemas..."]
  match ← s.settings with
  | .error e => return ⟨validating, some (.settings e)⟩
  | .ok settings =>
    match ← Document.load s.input with
    | .error e => return ⟨validating, some (.load e)⟩
    | .ok d =>
      match ← checkAll (settings.plan d).files with
      | .error (lines, e) => return ⟨validating ++ lines, some (.io e)⟩
      | .ok [] => return ⟨validating ++ ["✓ Schemas are up-to-date"], none⟩
      | .ok outdated =>
        return ⟨validating ++ outdated ++
          ["✗ Schemas are out of date", "  Run 'prisma-typebox generate' to update"],
          some (.validation (toString outdated.length ++ " file(s) out of date"))⟩

/-- Runs a command. -/
def run : Command → m Report
  | generate s dryRun => runGenerate s dryRun
  | init output force => runInit output force
  | validate s => runValidate s

end Command

end

end SchemaForge

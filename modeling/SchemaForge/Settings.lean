import SchemaForge.Files.Path
import SchemaForge.Format
import SchemaForge.Text.Blank
import SchemaForge.Toml.Decode
import SchemaForge.Toml.Reader

/-!
Settings of a run: where files go and how they are written. They come from a configuration file, over the defaults,
and flags of the command line override some of them.
-/

namespace SchemaForge

structure OutputSettings where
  /-- The directory of the generated files. -/
  directory : String := "./generated"
  /-- What the names of input files have after the model's name. -/
  inputSuffix : String := "Input"
  deriving DecidableEq

structure Settings where
  output : OutputSettings := {}
  generator : Options := {}
  deriving DecidableEq

/-- Settings that are given as flags. -/
structure Overrides where
  output : Option String := none
  inputSuffix : Option String := none
  library : Option String := none
  deriving DecidableEq

namespace Settings

/-- Why a configuration file has no settings, or settings are refused. -/
inductive Error where
  /-- The file is not well formed. -/
  | malformed
  | invalid (e : Toml.Error) (text : String)
  | emptyInputSuffix
  | blankLibrary

/-- The error's place in the settings and what is wrong there. -/
def invalidValue (key what : String) : String := "Invalid configuration value for '" ++ key ++ "': " ++ what

/-! ### Reading -/

def putOutput (o : OutputSettings) (key : String) (n : Toml.Node) : Option (Except Toml.Error OutputSettings) :=
  match key with
  | "dir" => some do return { o with directory := ← n.string .path }
  | "input_suffix" => some do return { o with inputSuffix := ← n.string .string }
  | _ => none

/-- The overrides of a table, one for each tag. -/
def overrides (entries : List (String × String)) : List (String × String) :=
  entries.foldl (fun l e => Assoc.insert e.1 e.2 l) []

def putGenerator (o : Options) (key : String) (n : Toml.Node) : Option (Except Toml.Error Options) :=
  match key with
  | "library" => some do return { o with library := ← n.string .string }
  | "enum_import_prefix" => some do return { o with enumImportPrefix := ← n.string .string }
  | "indent" => some do return { o with indent := ← n.choice Indent.table }
  | "line_ending" => some do return { o with lineEnding := ← n.choice LineEnding.table }
  | "type_overrides" => some do return { o with typeOverrides := overrides (← n.strings) }
  | _ => none

def outputOfNode (n : Toml.Node) : Except Toml.Error OutputSettings :=
  n.record "OutputConfig" ["dir", "input_suffix"] {} putOutput

def generatorOfNode (n : Toml.Node) : Except Toml.Error Options :=
  n.record "GeneratorSection" ["library", "enum_import_prefix", "indent", "line_ending", "type_overrides"] {}
    putGenerator

def put (s : Settings) (key : String) (n : Toml.Node) : Option (Except Toml.Error Settings) :=
  match key with
  | "output" => some do return { s with output := ← outputOfNode n }
  | "generator" => some do return { s with generator := ← generatorOfNode n }
  | _ => none

/-- The settings that the entries of a file give. -/
def ofEntries (entries : Toml.Entries) : Except Toml.Error Settings :=
  Toml.Node.record "Config" ["output", "generator"] {} put ⟨.table .header entries, ⟨0, 0⟩⟩

/-- The settings that the text of a file gives, not yet validated. -/
def parse (text : String) : Except Error Settings :=
  match Toml.parse? text with
  | none => .error .malformed
  | some entries =>
    match ofEntries entries with
    | .ok s => .ok s
    | .error e => .error (.invalid e text)

/-- Checks what the form of a file alone does not rule out. -/
def validate (s : Settings) : Except Error Unit :=
  if s.output.inputSuffix.isEmpty then .error .emptyInputSuffix
  else if Text.allBlank s.generator.library then .error .blankLibrary
  else .ok ()

/-- The settings with flags in place of what they override. -/
def merge (s : Settings) (o : Overrides) : Settings :=
  { s with
    output :=
      { directory := o.output.getD s.output.directory
        inputSuffix := o.inputSuffix.getD s.output.inputSuffix }
    generator := { s.generator with library := o.library.getD s.generator.library } }

/-- The settings are the defaults, where the directory may be written in another way. -/
def isDefault (s : Settings) : Bool :=
  let defaults : Settings := {}
  Path.same s.output.directory defaults.output.directory &&
    s.output.inputSuffix = defaults.output.inputSuffix && s.generator = defaults.generator

/-- The configuration file that is read when none is named. -/
def defaultPath : String := "prisma-typebox.toml"

/-- A configuration file with the defaults, explained. -/
def defaultText : String :=
  "# prisma-typebox configuration file\n" ++
  "\n" ++
  "[output]\n" ++
  "# Output directory for generated TypeScript files\n" ++
  "dir = \"./generated\"\n" ++
  "\n" ++
  "# Suffix of input-variant files (Post.ts / PostInput.ts)\n" ++
  "input_suffix = \"Input\"\n" ++
  "\n" ++
  "[generator]\n" ++
  "# Module providing the Type and Static helpers\n" ++
  "library = \"@sinclair/typebox\"\n" ++
  "\n" ++
  "# Prefix of enum imports (import \x7b Role \x7d from './Role')\n" ++
  "enum_import_prefix = \"./\"\n" ++
  "\n" ++
  "# Indentation: \"tabs\", \"spaces2\" or \"spaces4\"\n" ++
  "indent = \"tabs\"\n" ++
  "\n" ++
  "# Line endings: \"lf\" or \"crlf\"\n" ++
  "line_ending = \"lf\"\n" ++
  "\n" ++
  "# Custom scalar mappings\n" ++
  "[generator.type_overrides]\n" ++
  "# DateTime = \"Type.String(\x7b format: 'date-time' \x7d)\"\n"

end Settings

end SchemaForge

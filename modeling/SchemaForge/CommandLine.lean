import SchemaForge.Command

/-!
Reading the command line. An option is given by its long name, with its value after `=` or as the next argument, or by
its letter; letters of options without a value may stand together, and the rest of such a cluster is the value of the
first option that takes one. Each option may be given once.
-/

namespace SchemaForge

namespace CommandLine

/-- An option of a command. -/
structure OptionForm where
  long : String
  short : Option Char := none
  /-- `none` for an option without a value; otherwise whether an empty value will do. -/
  value : Option Bool := none

/-- Why no command is run: the arguments are wrong, or ask for something else. -/
inductive Stop where
  | usage
  | help
  | version
  deriving DecidableEq

/-- The options that were given, by long name, with their values. -/
abbrev Given := List (String × Option String)

/-- Takes an option that was given, with the value that came with it. -/
def take (form : OptionForm) (value : Option String) (given : Given) : Except Stop Given :=
  if form.long = "help" then .error .help
  else if form.long = "version" then .error .version
  else if (given.lookup form.long).isSome then .error .usage
  else if form.value = some false ∧ value = some "" then .error .usage
  else .ok ((form.long, value) :: given)

/-- Arguments that start with a dash are options, a single dash excepted. -/
def looksLikeOption (argument : String) : Bool :=
  match argument.toList with
  | '-' :: _ :: _ => true
  | _ => false

/-- What a cluster of letters leaves to be read: nothing, or the value of an option. -/
inductive Pending where
  | nothing
  | valueOf (form : OptionForm)

/-- Reads a cluster of letters. -/
def takeCluster (forms : List OptionForm) : List Char → Given → Except Stop (Pending × Given)
  | [], given => .ok (.nothing, given)
  | c :: rest, given =>
    match forms.find? fun f => f.short = some c with
    | none => .error .usage
    | some form =>
      if form.value.isNone then do
        let given ← take form none given
        takeCluster forms rest given
      else
        match rest with
        | [] => .ok (.valueOf form, given)
        | '=' :: value => do return (.nothing, ← take form (some (String.ofList value)) given)
        | value => do return (.nothing, ← take form (some (String.ofList value)) given)

/-- Reads an option by its long name, with a value after `=` if there is one. -/
def takeLong (forms : List OptionForm) (chars : List Char) (given : Given) : Except Stop (Pending × Given) :=
  let name := chars.takeWhile (· ≠ '=')
  match forms.find? fun f => f.long.toList = name with
  | none => .error .usage
  | some form =>
    match form.value, chars.drop name.length with
    | none, [] => do return (.nothing, ← take form none given)
    | none, _ => .error .usage
    | some _, [] => .ok (.valueOf form, given)
    | some _, _ :: value => do return (.nothing, ← take form (some (String.ofList value)) given)

/-- Reads one argument that is an option. -/
def takeOption (forms : List OptionForm) (argument : String) (given : Given) : Except Stop (Pending × Given) :=
  match argument.toList with
  | '-' :: '-' :: chars => takeLong forms chars given
  | _ :: chars => takeCluster forms chars given
  | [] => .error .usage

/-- Reads the options at the start of the arguments, up to the first that is none; two dashes end them. -/
def takeOptions (forms : List OptionForm) (given : Given) : List String → Except Stop (Given × List String)
  | [] => .ok (given, [])
  | "--" :: rest => if rest.isEmpty then .ok (given, []) else .error .usage
  | argument :: rest =>
    if looksLikeOption argument then
      match takeOption forms argument given with
      | .error stop => .error stop
      | .ok (.nothing, given) => takeOptions forms given rest
      | .ok (.valueOf form, given) =>
        match rest with
        | [] => .error .usage
        | value :: rest =>
          if looksLikeOption value then .error .usage
          else
            match take form (some value) given with
            | .error stop => .error stop
            | .ok given => takeOptions forms given rest
    else .ok (given, argument :: rest)

/-! ### The commands -/

def verboseForm : OptionForm := ⟨"verbose", some 'v', none⟩

def helpForm : OptionForm := ⟨"help", some 'h', none⟩

def topForms : List OptionForm := [verboseForm, helpForm, ⟨"version", some 'V', none⟩]

def selectionForms : List OptionForm :=
  [⟨"input", some 'i', some false⟩, ⟨"output", some 'o', some false⟩, ⟨"input-suffix", none, some true⟩,
    ⟨"library", none, some true⟩, ⟨"config", some 'c', some false⟩, verboseForm, helpForm]

def generateForms : List OptionForm := ⟨"dry-run", none, none⟩ :: selectionForms

def initForms : List OptionForm :=
  [⟨"output", some 'o', some false⟩, ⟨"force", none, none⟩, verboseForm, helpForm]

/-- The value of an option. -/
def valueOf (given : Given) (long : String) : Option String := (given.lookup long).join

/-- What a command works on; the input has to be given. -/
def selection (given : Given) : Except Stop Selection :=
  match valueOf given "input" with
  | none => .error .usage
  | some input =>
    .ok ⟨input, ⟨valueOf given "output", valueOf given "input-suffix", valueOf given "library"⟩,
      valueOf given "config"⟩

/-- The options of a command, which takes no other arguments. -/
def onlyOptions (forms : List OptionForm) (arguments : List String) : Except Stop Given := do
  match ← takeOptions forms [] arguments with
  | (given, []) => .ok given
  | _ => .error .usage

/-- The command of this name with its arguments. -/
def command (name : String) (arguments : List String) : Except Stop Command :=
  match name with
  | "generate" => do
    let given ← onlyOptions generateForms arguments
    return .generate (← selection given) (given.lookup "dry-run").isSome
  | "init" => do
    let given ← onlyOptions initForms arguments
    return .init ((valueOf given "output").getD Settings.defaultPath) (given.lookup "force").isSome
  | "validate" => do
    let given ← onlyOptions selectionForms arguments
    return .validate (← selection given)
  | "help" =>
    match arguments with
    | [] | ["generate"] | ["init"] | ["validate"] | ["help"] => .error .help
    | _ => .error .usage
  | _ => .error .usage

/-- The command that arguments ask for. -/
def parse (arguments : List String) : Except Stop Command := do
  match ← takeOptions topForms [] arguments with
  | (_, name :: rest) => command name rest
  | (_, []) => .error .usage

/-- What the program says about its version. -/
def versionText : String := "prisma-typebox 0.1.0\n"

def helpText : String :=
  "Generate TypeBox schemas from Prisma DMMF documents\n" ++
  "\n" ++
  "Usage: prisma-typebox [OPTIONS] <COMMAND>\n" ++
  "\n" ++
  "Commands:\n" ++
  "  generate  Generate TypeBox schemas from a DMMF document\n" ++
  "  init      Initialize a new prisma-typebox configuration file\n" ++
  "  validate  Validate that generated schemas are up-to-date\n" ++
  "  help      Print this message or the help of the given subcommand(s)\n" ++
  "\n" ++
  "Options:\n" ++
  "  -v, --verbose  Enable debug logging\n" ++
  "  -h, --help     Print help\n" ++
  "  -V, --version  Print version\n"

end CommandLine

end SchemaForge

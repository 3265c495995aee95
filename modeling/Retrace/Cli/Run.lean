import Retrace.Cli.Report
import Retrace.Config.Discovery
import Retrace.Config.Schema
import Retrace.Document.Fixture

/-!
# Running the program

The program reads its arguments, does what it is asked to on the files it is
given, and answers with the text for its two channels and its exit code. The code
is 2 for arguments that cannot be used, and 1 if the command fails or an
alignment reports an error. The schema of configurations names a schema of its own
if the program is run with the address of one.
-/

namespace Retrace.Cli

variable {m : Type → Type} [Monad m]

/-- What the program leaves behind. -/
structure Response where
  exit : Nat
  output : String
  error : String
deriving DecidableEq

/-- What went wrong, in the order from the command to the cause. -/
abbrev Failure := List String

/-- The wording of a failure. The causes follow the first line. -/
def failureText : Failure → String
  | [] => "Error:\n"
  | [only] => "Error: " ++ only ++ "\n"
  | first :: causes =>
    "Error: " ++ first ++ "\n\nCaused by:\n" ++ ofLines (causes.map ("    " ++ ·))

/-- A failed command. -/
def Response.ofFailure (f : Failure) : Response := ⟨1, "", failureText f⟩

/-- The name and version of the program. -/
def versionText : String := "morphmap 0.1.0\n"

/-- How the program is used. -/
def helpText : String :=
  ofLines ["Usage: morphmap [OPTIONS] [COMMAND]", "", "Commands:",
    "  align   Align a fixture and print its ranges, character classes and diagnostics",
    "  query   Show which ranges hold an offset and where it maps to",
    "  config  Configuration file management"]

/-- The answer to arguments that lead to no command. -/
def Response.ofStop : Stop → Response
  | .usage => ⟨2, "", "error: invalid arguments\n\n" ++ helpText⟩
  | .help => ⟨0, helpText, ""⟩
  | .version => ⟨0, versionText, ""⟩

/-- The configuration in effect, if there is any. -/
def loadConfig (files : Files m) (path : Option String) : ExceptT Failure m (Option Config) := do
  match ← ExceptT.lift (Config.load files path ".") with
  | .error fault => throw [fault.message]
  | .ok config => return config

/-- The options in effect. -/
def loadOptions (files : Files m) (path : Option String) : ExceptT Failure m Options := do
  return ((← loadConfig files path).map Config.options).getD Options.default

/-- The fixture at a path. -/
def loadFixture (files : Files m) (path : String) : ExceptT Failure m Fixture := do
  let loaded : Except Fault Fixture :=
    match ← files.read path with
    | .error fault => .error (.file path fault)
    | .ok text => Fixture.parse text
  match loaded with
  | .error fault => throw ["cannot load fixture " ++ path, fault.message]
  | .ok f => return f

/-- Aligns a fixture. -/
def runAlign (files : Files m) (config : Option String) (path : String) (format : ReportFormat) :
    ExceptT Failure m Response := do
  let options ← loadOptions files config
  let f ← loadFixture files path
  let a := f.align options
  return ⟨if a.hasErrors then 1 else 0, alignmentReport format f a, ""⟩

/-- Looks up an offset in the alignment of a fixture. -/
def runQuery (files : Files m) (config : Option String) (path : String) (offset : Nat)
    (side : Side) (format : ReportFormat) : ExceptT Failure m Response := do
  let options ← loadOptions files config
  let f ← loadFixture files path
  let size := (Text.ofString (match side with | .source => f.source | .output => f.output)).size
  if size < offset then
    throw ["offset " ++ toString offset ++ " is past the end of the " ++ side.title ++ " text (" ++
      toString size ++ " bytes)"]
  return ⟨0, queryReport format (.of (f.align options) side offset), ""⟩

/-- The name of a configuration to start from. -/
def StarterFormat.fileName : StarterFormat → String
  | .json => ".morphmaprc.json"
  | .toml => ".morphmaprc.toml"

/-- The configuration to start from. -/
def StarterFormat.contents : StarterFormat → String
  | .json => Config.starter.toJson.pretty
  | .toml => Toml.render Config.starter.toJson

/-- Writes a configuration to start from. A file that is there is kept unless it is
to be replaced. -/
def runInit (files : Files m) (format : StarterFormat) (force : Bool) :
    ExceptT Failure m Response := do
  let name := format.fileName
  if (← files.isPresent name) && !force then
    throw ["Configuration file '" ++ name ++ "' already exists. Use --force to overwrite."]
  match ← files.write name format.contents with
  | .error fault => throw ["cannot write " ++ name, fault.message]
  | .ok _ => return ⟨0, ofLines ["✅ Created configuration file: " ++ name], ""⟩

/-- Shows the settings in effect. -/
def runShow (files : Files m) (config : Option String) : ExceptT Failure m Response := do
  let loaded ← loadConfig files config
  return ⟨0, optionsReport loaded.isSome (loaded.getD Config.empty).options, ""⟩

/-- Does what the program is asked to. -/
def runCommand (files : Files m) (metaSchema : Option String) (i : Invocation) :
    ExceptT Failure m Response :=
  match i.command with
  | .align fixture format => runAlign files i.config fixture format
  | .query fixture offset side format => runQuery files i.config fixture offset side format
  | .initConfig format force => runInit files format force
  | .showConfig => runShow files i.config
  | .showSchema => return ⟨0, ofLines [(Config.schemaDocument metaSchema).pretty], ""⟩

/-- Runs the program. -/
def run (files : Files m) (arguments : List String) (metaSchema : Option String := none) :
    m Response :=
  match Invocation.parse arguments with
  | .error stop => return .ofStop stop
  | .ok i => do
    match ← (runCommand files metaSchema i).run with
    | .error failure => return .ofFailure failure
    | .ok response => return response

end Retrace.Cli

import Retrace.Cli.Grammar
import Retrace.Span

/-!
# Commands

What the program can be asked to do, and how the arguments say it. The path of a
configuration can be given at every level of a command; the innermost counts.
-/

namespace Retrace.Cli

/-- The formats of reports. -/
inductive ReportFormat where
  | human
  | json
  | compact
deriving DecidableEq

/-- The formats in which a configuration to start from can be written. -/
inductive StarterFormat where
  | json
  | toml
deriving DecidableEq

/-- What the program is asked to do. -/
inductive Command where
  | align (fixture : String) (format : ReportFormat)
  | query (fixture : String) (offset : Nat) (side : Side) (format : ReportFormat)
  | initConfig (format : StarterFormat) (force : Bool)
  | showConfig
  | showSchema
deriving DecidableEq

/-- A command and the configuration it is to use. -/
structure Invocation where
  command : Command
  config : Option String
deriving DecidableEq

/-- The format of a report with a given name. -/
def ReportFormat.ofName? : String → Option ReportFormat
  | "human" => some .human
  | "json" => some .json
  | "compact" => some .compact
  | _ => none

/-- The format of a configuration with a given name. -/
def StarterFormat.ofName? : String → Option StarterFormat
  | "json" => some .json
  | "toml" => some .toml
  | _ => none

/-- The side with a given name. -/
def sideOfName? : String → Option Side
  | "source" => some .source
  | "output" => some .output
  | _ => none

/-- The digits of a number and whether it is below zero, if its sign is written. -/
def signOf : List Char → Bool × List Char
  | '-' :: digits => (true, digits)
  | '+' :: digits => (false, digits)
  | digits => (false, digits)

/-- Reads an offset. A sign is allowed as long as the number is in range. -/
def offsetOf? (text : String) : Option Nat :=
  let (negative, digits) := signOf text.toList
  if digits.isEmpty || !digits.all Char.isDigit then none
  else
    let n := digits.foldl (fun n d => n * 10 + (d.toNat - '0'.toNat)) 0
    if n < offsetBound && (!negative || n = 0) then some n else none

/-- The switch for the path of a configuration. -/
def configSwitch : Switch := ⟨"config", some 'c', true, false, fun value => !value.isEmpty⟩

/-- A switch without a value. -/
def flag (long : String) : Switch := ⟨long, none, false, false, fun _ => true⟩

/-- The switches that every command knows. -/
def commonSwitches : List Switch :=
  [configSwitch, ⟨"verbose", some 'v', false, true, fun _ => true⟩, flag "no-color"]

/-- The switch for the format of a report. -/
def formatSwitch : Switch :=
  ⟨"format", some 'f', true, false, fun value => (ReportFormat.ofName? value).isSome⟩

/-- The grammar of a command that comes before others. -/
def groupGrammar (commands : List String) (hasVersion : Bool) : Grammar :=
  ⟨commonSwitches, 0, "help" :: commands, hasVersion⟩

/-- The grammar of a command that does something. -/
def leafGrammar (switches : List Switch) (operands : Nat) : Grammar :=
  ⟨switches ++ commonSwitches, operands, [], false⟩

/-- The commands of the program. -/
def topCommands : List String := ["align", "query", "config"]

/-- The commands that deal with configurations. -/
def configCommands : List String := ["init", "show", "schema"]

/-- The grammar of an alignment. -/
def alignGrammar : Grammar := leafGrammar [formatSwitch] 1

/-- The grammar of a query. -/
def queryGrammar : Grammar :=
  leafGrammar
    [⟨"offset", none, true, false, fun value => (offsetOf? value).isSome⟩,
      ⟨"side", none, true, false, fun value => (sideOfName? value).isSome⟩, formatSwitch] 1

/-- The grammar of writing a configuration. -/
def initGrammar : Grammar :=
  leafGrammar
    [⟨"format", none, true, false, fun value => (StarterFormat.ofName? value).isSome⟩,
      flag "force"] 0

/-- Requests for help can name commands, each one of those before it. -/
def readHelp {α : Type} : List String → Except Stop α
  | [] => .error .help
  | ["config"] => .error .help
  | ["config", name] => .error (if name ∈ "help" :: configCommands then .help else .usage)
  | [name] => .error (if name ∈ "help" :: topCommands then .help else .usage)
  | _ => .error .usage

/-- The value that a switch has, or else its default. -/
def Given.choice {α : Type} (g : Given) (long : String) (ofName? : String → Option α)
    (default : α) : α :=
  ((g.value? long).bind ofName?).getD default

/-- Reads the arguments of a command that does something. -/
def readLeaf (grammar : Grammar) (arguments : List String) : Except Stop Given :=
  (read grammar arguments).map (·.1)

/-- Reads the arguments of an alignment. -/
def readAlign (arguments : List String) : Except Stop (Command × Given) := do
  let g ← readLeaf alignGrammar arguments
  match g.operands with
  | [fixture] => return (.align fixture (g.choice "format" ReportFormat.ofName? .human), g)
  | _ => throw .usage

/-- Reads the arguments of a query. -/
def readQuery (arguments : List String) : Except Stop (Command × Given) := do
  let g ← readLeaf queryGrammar arguments
  match g.operands, (g.value? "offset").bind offsetOf? with
  | [fixture], some offset =>
    let side := g.choice "side" sideOfName? .output
    return (.query fixture offset side (g.choice "format" ReportFormat.ofName? .human), g)
  | _, _ => throw .usage

/-- Reads the arguments of a command on configurations. -/
def readConfigAction (name : String) (arguments : List String) :
    Except Stop (Command × Given) := do
  if name = "init" then
    let g ← readLeaf initGrammar arguments
    return (.initConfig (g.choice "format" StarterFormat.ofName? .json) (g.has "force"), g)
  else if name = "show" then
    return (.showConfig, ← readLeaf (leafGrammar [] 0) arguments)
  else if name = "schema" then
    return (.showSchema, ← readLeaf (leafGrammar [] 0) arguments)
  else readHelp ("config" :: arguments)

/-- Reads the arguments of the commands on configurations. The answer has what
was given on both levels, the inner one first. -/
def readConfig (arguments : List String) : Except Stop (Command × List Given) := do
  match ← read (groupGrammar configCommands false) arguments with
  | (_, none) => throw .usage
  | (outer, some (name, rest)) =>
    let (command, inner) ← readConfigAction name rest
    return (command, [inner, outer])

/-- Reads the arguments of the program. Without a command, help is shown. -/
def Invocation.parse (arguments : List String) : Except Stop Invocation := do
  match ← read (groupGrammar topCommands true) arguments with
  | (_, none) => throw .help
  | (outer, some (name, rest)) =>
    let (command, given) ←
      if name = "align" then (readAlign rest).map fun (command, g) => (command, [g])
      else if name = "query" then (readQuery rest).map fun (command, g) => (command, [g])
      else if name = "config" then readConfig rest
      else readHelp rest
    return ⟨command, (given ++ [outer]).findSome? (·.value? "config")⟩

end Retrace.Cli

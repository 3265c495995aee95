/-!
# Arguments of a command

Arguments are switches, operands and the name of a command. What a command takes
is its grammar. Switches have a long name after two hyphens and may have a short
one after a single hyphen. A value follows as the next argument, after an equals
sign, or right after a short name; short names can share one hyphen. Two hyphens
by themselves end the switches.

Reading goes from left to right and stops at the first fault, at a request for
help or the version, or at the name of a command, which takes over the rest.
-/

namespace Retrace.Cli

/-- Why arguments lead to no command. -/
inductive Stop where
  | usage
  | help
  | version
deriving DecidableEq

/-- A switch that a command knows. -/
structure Switch where
  long : String
  short : Option Char
  takesValue : Bool
  /-- The switch can be given more than once. -/
  many : Bool
  /-- The value can be used. -/
  accepts : String → Bool

/-- What a command takes. -/
structure Grammar where
  switches : List Switch
  /-- The number of operands there can be. -/
  operands : Nat
  /-- The names of the commands it can go on with. -/
  commands : List String
  /-- The version can be asked for. -/
  hasVersion : Bool

/-- What was given to a command. Flags have no value. -/
structure Given where
  switches : List (String × String)
  operands : List String

namespace Given

/-- Nothing was given. -/
def empty : Given := ⟨[], []⟩

/-- The value of a switch. -/
def value? (g : Given) (long : String) : Option String := g.switches.lookup long

/-- The flag was given. -/
def has (g : Given) (long : String) : Bool := (g.value? long).isSome

/-- Adds a switch with a value that it accepts. -/
def addSwitch (g : Given) (s : Switch) (value : String) : Except Stop Given :=
  if s.accepts value && (s.many || !g.has s.long) then
    .ok { g with switches := g.switches ++ [(s.long, value)] }
  else .error .usage

/-- Adds an operand, which cannot be empty. -/
def addOperand (g : Given) (grammar : Grammar) (operand : String) : Except Stop Given :=
  if g.operands.length < grammar.operands && !operand.isEmpty then
    .ok { g with operands := g.operands ++ [operand] }
  else .error .usage

end Given

/-- What the next argument may be. -/
inductive Mode where
  | anything
  | operands
  | value (s : Switch)

/-- The argument is taken for a switch. -/
def looksLikeSwitch (argument : String) : Bool :=
  argument.startsWith "-" && argument ≠ "-"

/-- Reads short switches that share a hyphen. The last one may wait for its
value. -/
def readShort (grammar : Grammar) (g : Given) : List Char → Except Stop (Given × Mode)
  | [] => .ok (g, .anything)
  | c :: rest =>
    if c = 'h' then .error .help
    else if c = 'V' && grammar.hasVersion then .error .version
    else
      match grammar.switches.find? fun s => s.short = some c with
      | none => .error .usage
      | some s =>
        if s.takesValue then
          match rest with
          | [] => .ok (g, .value s)
          | '=' :: value => (g.addSwitch s (String.ofList value)).map (·, .anything)
          | value => (g.addSwitch s (String.ofList value)).map (·, .anything)
        else
          match g.addSwitch s "" with
          | .error stop => .error stop
          | .ok g => readShort grammar g rest

/-- Splits a long switch into its name and the value after an equals sign. -/
def splitLong (text : String) : String × Option String :=
  let name := text.toList.takeWhile (· ≠ '=')
  match text.toList.dropWhile (· ≠ '=') with
  | [] => (String.ofList name, none)
  | _ :: value => (String.ofList name, some (String.ofList value))

/-- Reads a long switch. -/
def readLong (grammar : Grammar) (g : Given) (text : String) : Except Stop (Given × Mode) :=
  let (name, attached) := splitLong text
  if name = "help" then .error (if attached.isNone then .help else .usage)
  else if name = "version" && grammar.hasVersion then
    .error (if attached.isNone then .version else .usage)
  else
    match grammar.switches.find? fun s => s.long = name with
    | none => .error .usage
    | some s =>
      match s.takesValue, attached with
      | true, none => .ok (g, .value s)
      | true, some value => (g.addSwitch s value).map (·, .anything)
      | false, none => (g.addSwitch s "").map (·, .anything)
      | false, some _ => .error .usage

/-- Reads arguments. If they come to the name of a command, the answer has the
name and the arguments after it. -/
def readFrom (grammar : Grammar) (g : Given) (mode : Mode) :
    List String → Except Stop (Given × Option (String × List String))
  | [] =>
    match mode with
    | .value _ => .error .usage
    | _ => .ok (g, none)
  | argument :: rest =>
    match mode with
    | .operands =>
      match g.addOperand grammar argument with
      | .error stop => .error stop
      | .ok g => readFrom grammar g .operands rest
    | .value s =>
      if looksLikeSwitch argument then .error .usage
      else
        match g.addSwitch s argument with
        | .error stop => .error stop
        | .ok g => readFrom grammar g .anything rest
    | .anything =>
      if argument = "--" then readFrom grammar g .operands rest
      else if looksLikeSwitch argument then
        let read :=
          match argument.toList with
          | '-' :: '-' :: name => readLong grammar g (String.ofList name)
          | _ :: names => readShort grammar g names
          | [] => .error .usage
        match read with
        | .error stop => .error stop
        | .ok (g, mode) => readFrom grammar g mode rest
      else if argument ∈ grammar.commands then .ok (g, some (argument, rest))
      else
        match g.addOperand grammar argument with
        | .error stop => .error stop
        | .ok g => readFrom grammar g .anything rest

/-- Reads the arguments of a command. -/
def read (grammar : Grammar) (arguments : List String) :
    Except Stop (Given × Option (String × List String)) :=
  readFrom grammar .empty .anything arguments

end Retrace.Cli

import Retrace.Cli.Run

/-!
# The command line

Runs the program on the files of the machine.
-/

namespace Retrace.Cli

/-- The fault that an error of the machine stands for. -/
def faultOf : IO.Error → FileFault
  | .noFileOrDirectory .. => .missing
  | .inappropriateType .. => .notDirectory
  | error => .other (toString error)

/-- Does something with files and hands on what goes wrong. -/
def attempt {α : Type} (action : IO α) : IO (Except FileFault α) :=
  try
    return .ok (← action)
  catch error => return .error (faultOf error)

/-- There is something at the path, and it is a directory as asked. -/
def isAt (directory : Bool) (path : String) : IO Bool := do
  try
    let full ← IO.FS.realPath path
    if ← full.pathExists then return (← full.isDir) == directory else return false
  catch _ => return false

/-- The contents of a file of the machine. -/
def readMachine (path : String) : IO (Except FileFault String) := do
  if ← isAt true path then return .error .isDirectory else attempt (IO.FS.readFile path)

/-- The full path of what is at a path, and of every directory it lies in. -/
def ancestorsOnMachine (path : String) : IO (Except FileFault (List String)) := do
  let full ← IO.FS.realPath path
  if !(← full.pathExists) then return .error .missing
  let parts := Path.parts full.toString |>.filter (· ≠ "")
  return .ok ((List.range (parts.length + 1)).map fun n =>
    "/" ++ String.intercalate "/" (parts.take n)).reverse

/-- The files of the machine. -/
def machineFiles : Files IO where
  read := readMachine
  write path contents := attempt (IO.FS.writeFile path contents)
  isPresent path := return (← isAt true path) || (← isAt false path)
  isFile := isAt false
  ancestors := ancestorsOnMachine

end Retrace.Cli

/-- Runs the program with the arguments of the command line. -/
def main (arguments : List String) : IO UInt32 := do
  let response ← Retrace.Cli.run Retrace.Cli.machineFiles arguments
  IO.print response.output
  IO.eprint response.error
  return response.exit.toUInt32

import Patchbay.Command

/-!
# The command line

Reads the arguments, the environment and the document file, runs the command on them and prints
what it comes to: the store on standard output, the log on standard error.
-/

namespace Patchbay.CommandLine

def usage (program : String) : String :=
  s!"usage: {program} config [triggers ...]"

/-- The family name of the environment variables of a program. -/
def family (program : String) : String :=
  program.toUpper ++ "_"

/-- The environment variables that give settings. -/
def environment (family : String) : IO (List (String × String)) :=
  Settings.names.filterMapM fun name => do
    let variableName := family ++ name.toUpper
    return (← IO.getEnv variableName).map (variableName, ·)

/-- A source of random numbers below 1 for each chart, from a seed. -/
def randomFrom (seed : Nat) (chart count : Nat) : Binary64 :=
  let generator := Nat.repeat (fun g => (stdNext g).2) (4 * count) (mkStdGen (seed + chart))
  let (n, _) := randNat generator 0 (Nat.pow 2 53 - 1)
  Binary64.ofQuotient false n (Nat.pow 2 53)

/-- The number of the first dispatch id: the time in milliseconds, then 80 random bits. -/
def firstId : IO Nat := do
  return (← IO.monoMsNow) * Nat.pow 2 80 + (← IO.rand 0 (Nat.pow 2 80 - 1))

def unreadable (path : String) : IO.Error → String
  | .noFileOrDirectory .. => "[Errno 2] No such file or directory: " ++ Text.quoted path
  | .permissionDenied .. => "[Errno 13] Permission denied: " ++ Text.quoted path
  | e => toString e

def readFile (path : String) : IO Command.File := do
  try
    return .content (← IO.FS.readBinFile path)
  catch e =>
    return .unreadable (unreadable path e)

def valueText (value : Value) : String :=
  (Json.text? value 0).getD "?"

/-- A log line, as JSON or as a line of text. -/
def lineText (asJson : Bool) (program : String) (line : Log.Line) : String :=
  if asJson then valueText (line.toValue program)
  else
    " ".intercalate ([line.level.name, line.event] ++
      (line.vars ++ line.fields).map fun field => s!"{field.1}={valueText field.2}")

/-- Prints the lines of the log that the settings ask for. -/
def printLog (settings : Settings) (program : String) (e : Engine) : IO Unit := do
  match (Command.logSetup settings).sink with
  | .error _ => return
  | .ok sink =>
    for line in sink.shown e.shared.lines.reverse do
      IO.eprintln (lineText sink.json program line)

/-- Prints how the command ended and gives its code. -/
def report : Except Command.Crash Command.Finish → IO UInt32
  | .ok finish => do
    IO.print finish.output
    return UInt32.ofNat finish.code
  | .error (.logging cause) => do
    IO.eprintln cause.message
    return 1
  | .error .undecodable => do
    IO.eprintln "the document file is not UTF-8 text"
    return 1
  | .error (.fault fault) => do
    IO.eprintln fault.report
    return 1

def run (program : String) : List String → IO UInt32
  | [] => do
    IO.eprintln (usage program)
    return 2
  | path :: triggers => do
    match Settings.check (family program) (← environment (family program)) [] with
    | .error issues =>
      IO.eprintln s!"{issues.length} settings cannot be used"
      return 1
    | .ok settings =>
      let random := randomFrom (← IO.rand 0 0x7FFFFFFF)
      let (result, e) := Command.run settings (← readFile path) triggers
        (Command.start settings (← firstId) random)
      printLog settings program e
      report result

end Patchbay.CommandLine

/-- The program, whose name is that of its file. -/
def main (args : List String) : IO UInt32 := do
  Patchbay.CommandLine.run ((← IO.appPath).fileStem.getD "patchbay") args

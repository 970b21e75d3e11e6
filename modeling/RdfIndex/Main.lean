import RdfIndex.Command.Run

/-!
# The program

Reads the command line and the file with the settings, runs the command, and writes the outcome.  If
no file is given, the environment may name one.
-/

namespace RdfIndex

/-- The wording of a failure to read a file. -/
def fileReason (e : IO.Error) : String :=
  match e with
  | .noFileOrDirectory .. => "No such file or directory (os error 2)"
  | e => toString e

/-- The text of a file, or why it cannot be read. -/
def readSettings (path : String) : IO (Except String String) := do
  try
    let bytes ← IO.FS.readBinFile path
    match Utf8.text bytes.toList with
    | .ok text => return .ok text
    | .error _ => return .error "stream did not contain valid UTF-8"
  catch e => return .error (fileReason e)

/-- Writes an outcome and gives its status. -/
def writeOutcome (o : Outcome) : IO UInt32 := do
  IO.print o.output
  if let some message := o.message then IO.eprintln message
  return UInt32.ofNat o.status

/-- Runs the program with some arguments. -/
def runProgram (args : List String) : IO UInt32 := do
  match Request.ofArguments args with
  | .error h => writeOutcome (.halt h)
  | .ok r =>
    let path := r.config.or (← IO.getEnv "QUADKEY_CONFIG")
    writeOutcome (r.run (← path.mapM readSettings))

end RdfIndex

/-- The program. -/
def main (args : List String) : IO UInt32 := RdfIndex.runProgram args

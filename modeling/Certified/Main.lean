import Certified.CommandLine.Run
import Std.Time.DateTime.Timestamp

/-!
The program: gathers what a run can see, runs, and prints and writes what the run says.
-/

namespace Certified.CommandLine

/-- The environment variable that may hold the root key. -/
def rootKeyVariable : String := "ICV_ROOT_KEY"

/-- The number of an error, which may come negated. -/
def errorNumber (code : UInt32) : Nat :=
  (min code (0 - code)).toNat

def fileError (e : IO.Error) : FileError :=
  let known := match e with
    | .noFileOrDirectory _ code _ | .inappropriateType _ code _ | .invalidArgument _ code _
    | .permissionDenied _ code _ => FileError.ofNumber? (errorNumber code)
    | _ => none
  known.getD (.other (toString e))

/-- The content of a file, if it can be read. -/
def readFile (name : String) : IO (Except FileError Bytes) := do
  try
    return .ok (← IO.FS.readBinFile name).toList
  catch e =>
    return .error (fileError e)

/-- What is left on a stream. -/
partial def readAll (stream : IO.FS.Stream) (before : ByteArray) : IO ByteArray := do
  let more ← stream.read 65536
  if more.isEmpty then return before else readAll stream (before ++ more)

/-- A page of the help: how the program or one of its commands is called. -/
def helpText : HelpPage → String
  | .program => "Usage: icv [OPTIONS] <COMMAND>\n\nCommands: " ++ ", ".intercalate commandNames ++ "\n"
  | .command name =>
    let places := (placesOf name).map fun _ => " <FILE or PATH>"
    "Usage: icv " ++ name ++ " [OPTIONS]" ++ String.join places ++ "\n"

def levelName : LogLevel → String
  | .error => "ERROR"
  | .warn => " WARN"
  | .info => " INFO"
  | .debug => "DEBUG"
  | .trace => "TRACE"

def logLine (event : LogEvent) : String :=
  levelName event.level ++ " " ++ event.target ++ ": " ++ event.message

/-- What the run of these arguments can see: the files it asks for, and standard input if it does. -/
def surroundings (arguments : List String) : IO Surroundings := do
  let invocation := Invocation.ofArguments? arguments
  let names := (invocation.map Invocation.files).getD []
  let files ← names.mapM fun name => return (name, ← readFile name)
  let blobs := (invocation.map Invocation.blobs).getD []
  let stdin ←
    if blobs.any fun name => (FileName.ofText name).isStandardInput then
      readAll (← IO.getStdin) .empty
    else pure .empty
  let now ← Std.Time.Timestamp.now
  return {
    file := fun name => (files.lookup name).getD (.error .notFound)
    refusal := fun _ => none
    stdin := stdin.toList
    rootKey := ← IO.getEnv rootKeyVariable
    now := Int64.ofInt now.toMillisecondsSinceUnixEpoch.toInt
    help := helpText }

/-- Runs, and writes the file of the run if it has one. A file that cannot be made is found out by
trying, and then the run goes as it does where that is known. -/
def runAndWrite (s : Surroundings) (arguments : List String) : IO Outcome := do
  let outcome := run s arguments
  match outcome.written with
  | none => return outcome
  | some file =>
    try
      IO.FS.writeFile file.name file.text
      return outcome
    catch e =>
      return run { s with refusal := fun _ => some (fileError e) } arguments

end Certified.CommandLine

open Certified.CommandLine in
def main (arguments : List String) : IO UInt32 := do
  let outcome ← runAndWrite (← surroundings arguments) arguments
  outcome.log.forM fun event => IO.eprintln (logLine event)
  IO.print outcome.stdout
  unless outcome.stderr.isEmpty do
    IO.eprintln outcome.stderr
  return UInt32.ofNat outcome.exitCode

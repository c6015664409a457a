import Certified.Blob
import Certified.CommandLine.Arguments
import Certified.CommandLine.Commands
import Certified.Config.Encoding
import Certified.FileSystem
import Certified.Json.Decoding

/-!
Running the program: from its arguments and its surroundings to its exit code, what it prints and
logs, and the file it writes. Nothing is printed or written before the answer is known.

Some texts are not spelled out. The pages of the help are part of the surroundings, as is what the
environment wants to be logged; how the program is used, and what is wrong with a text in JSON or TOML, is
left at a word or two. An event is logged without its time and its colours.
-/

namespace Certified.CommandLine

/-- What a run can see. -/
structure Surroundings where
  file : String → Except FileError Bytes
  /-- Why no new file can be made under a name, if none can. -/
  refusal : String → Option FileError
  stdin : Bytes
  /-- The root key from the environment. -/
  rootKey : Option String
  /-- What the clock shows in milliseconds since 1970, below zero before that. -/
  now : Int64
  /-- The events that the environment wants to be logged, if it says so. -/
  logFilter : Option (LogEvent → Bool) := none
  /-- The pages of the help as they are printed. -/
  help : HelpPage → String := fun _ => ""

/-- What a run can see among these files. -/
def Surroundings.ofFiles (fs : FileSystem) (stdin : Bytes) (rootKey : Option String) (now : Int64)
    (logFilter : Option (LogEvent → Bool) := none) (help : HelpPage → String := fun _ => "") :
    Surroundings :=
  { file := fs.read
    refusal := fun name =>
      match fs.writeLocation name with
      | .ok _ => none
      | .error e => some e
    stdin, rootKey, now, logFilter, help }

/-- Text that goes into a file. -/
structure WrittenFile where
  name : String
  text : String
deriving DecidableEq

structure Outcome where
  exitCode : Nat
  stdout : String
  /-- What standard error begins with, a line for each event. -/
  log : List LogEvent := []
  /-- What comes after that: the report on a failure, or a word in the place of the usage. -/
  stderr : String
  written : Option WrittenFile
deriving DecidableEq

/-- Why a run failed, and what was behind it, the nearest first. -/
structure Failure where
  message : String
  causes : List String
deriving DecidableEq

namespace Failure

def ofCommand (e : CommandError) : Failure := ⟨e.message, e.causes⟩

def ofConfig (e : ConfigError) : Failure := ⟨e.message, e.causes⟩

def ofLabel (e : LabelError) : Failure := ofCommand (.label e)

/-- The lines of the causes: one alone, several with their numbers. -/
def causeLines : List String → List String
  | [cause] => ["    " ++ cause]
  | causes => causes.mapIdx fun i cause => "    " ++ toString i ++ ": " ++ cause

def report (f : Failure) : String :=
  "Error: " ++ f.message ++
    if f.causes.isEmpty then "" else "\n\nCaused by:\n" ++ joinLines (causeLines f.causes)

end Failure

/-- What a run answers when it does not fail. -/
structure Success where
  stdout : String
  written : Option WrittenFile := none

/-- A line that is printed. -/
def printed (text : String) : Success :=
  { stdout := text ++ "\n" }

/-- The content of a file or of standard input, and the surroundings after it has been read. -/
def readBlob (s : Surroundings) (name : String) : Except Failure (Bytes × Surroundings) :=
  if (FileName.ofText name).isStandardInput then .ok (Blob.decode s.stdin, { s with stdin := [] })
  else
    match s.file name with
    | .ok content => .ok (Blob.decode content, s)
    | .error e => .error (.ofCommand (.file e))

/-- The text of a file. -/
def readText (s : Surroundings) (name : String) : Except FileError String := do
  match Utf8.decode? (← s.file name) with
  | some text => return text
  | none => .error .invalidText

/-- The configuration of a file, or the default one. -/
def loadConfig (s : Surroundings) : Option String → Except ConfigError Config
  | some name =>
    match s.file name with
    | .ok content => Config.ofBytes s.rootKey content
    | .error e => .error (.file e)
  | none => .ok (Config.withRootKey s.rootKey {})

/-- The certificate, the witness and, from a whole response, its payload. -/
def readSource (s : Surroundings) : Source → Except Failure (Bytes × Bytes × Option String)
  | .blobs certificate witness => do
    let (certificate, s) ← readBlob s certificate
    let (witness, _) ← readBlob s witness
    return (certificate, witness, none)
  | .response file => do
    let text ← (readText s file).mapError fun e => ⟨"reading " ++ file, [e.message]⟩
    match CertifiedResponse.ofText? text with
    | some r => return (r.certificate, r.witness, some r.response)
    | none => .error ⟨"JSON", []⟩

/-- The payload to expect, where a key is given: the given one, or else the response's own. -/
def expectedPayload (options : VerifyOptions) (own : Option String) :
    Except Failure (Option ExpectedPayload) :=
  match options.key with
  | none => .ok none
  | some key =>
    match options.expectPayload.or own with
    | none => .error ⟨"--key needs --expect-payload or --response", []⟩
    | some payload => do
      let key ← (Label.ofText key).mapError .ofLabel
      return some { key, payload := Bytes.ofText payload }

def givenRootKey (options : VerifyOptions) : Except Failure (Option Bytes) :=
  match options.rootKey with
  | none => .ok none
  | some key =>
    ((Hex.decode (Text.Blank.trim key)).map some).mapError fun e =>
      ⟨"--root-key is not valid hex", [e.message]⟩

/-- The report as it is printed. -/
def reportText (options : VerifyOptions) (report : VerificationReport) : String :=
  if options.json then report.toJson.pretty 0 else report.text

def runVerify (s : Surroundings) (configFile : Option String) (options : VerifyOptions) :
    Logged Failure Success := do
  let config ← .silent ((loadConfig s configFile).mapError .ofConfig)
  let (certificate, witness, own) ← .silent (readSource s options.source)
  let expected ← .silent (expectedPayload options own)
  let rootKey ← .silent (givenRootKey options)
  let request : Request := {
    certificate, witness, rootKey, expected
    canister := options.canister
    maxOffset := options.maxOffset }
  let report ← (request.verifyLogged config options.now s.now).mapError .ofCommand
  return printed (reportText options report)

def runLookup (s : Surroundings) (witness path : String) : Except Failure Success := do
  let (witness, _) ← readBlob s witness
  let path ← (LabelPath.ofText path).mapError .ofLabel
  let answer ← (lookupWitness witness path).mapError .ofCommand
  return printed answer

def runRootHash (s : Surroundings) (witness : String) : Except Failure Success := do
  let (witness, _) ← readBlob s witness
  let root ← (witnessRoot witness).mapError .ofCommand
  return printed root.toHex

def runInspect (s : Surroundings) (certificate : String) (json : Bool) :
    Except Failure Success := do
  let (certificate, _) ← readBlob s certificate
  let summary ← (inspectCertificate certificate).mapError .ofCommand
  return printed (if json then summary.toJson.pretty 0 else summary.text)

/-- Something is there under a name, whether it can be read or not. -/
def Surroundings.exists (s : Surroundings) (name : String) : Bool :=
  match s.file name with
  | .error .notFound | .error .notDirectory | .error .nameTooLong => false
  | _ => true

/-- Writes the default configuration where there is no file yet. -/
def runInitConfig (s : Surroundings) (output : String) : Except Failure Success :=
  if s.exists output then .error ⟨output ++ " already exists", []⟩
  else do
    let text ← ({} : Config).toText.mapError .ofConfig
    match s.refusal output with
    | some e => .error (.ofConfig (.file e))
    | none =>
      return {
        stdout := "Default configuration saved to " ++ output ++ "\n"
        written := some { name := output, text } }

/-- Of all commands only `verify` logs anything. -/
def Invocation.run (s : Surroundings) (invocation : Invocation) : Logged Failure Success :=
  match invocation.command with
  | .verify options => runVerify s invocation.config options
  | .lookup witness path => .silent (runLookup s witness path)
  | .rootHash witness => .silent (runRootHash s witness)
  | .inspect certificate json => .silent (runInspect s certificate json)
  | .initConfig output => .silent (runInitConfig s output)

/-- The least important level that is logged. -/
def levelFor (verbose : Nat) : LogLevel :=
  match verbose with
  | 0 => .info
  | 1 => .debug
  | _ => .trace

/-- The event is logged: the environment decides this, or else how much is asked for. -/
def Surroundings.shows (s : Surroundings) (verbose : Nat) (event : LogEvent) : Bool :=
  match s.logFilter with
  | some wanted => wanted event
  | none => event.level.rank ≤ (levelFor verbose).rank

/-- The whole run. Arguments that do not fit end it with exit code 2, a failure with 1. Where help is
asked for it is printed and no command runs. -/
def run (s : Surroundings) (arguments : List String) : Outcome :=
  match Invocation.ofArguments? arguments with
  | some invocation =>
    let answer := invocation.run s
    let log := answer.log.filter (s.shows invocation.verbose)
    match answer.result with
    | .ok success =>
      { exitCode := 0, stdout := success.stdout, log, stderr := "", written := success.written }
    | .error failure =>
      { exitCode := 1, stdout := "", log, stderr := failure.report, written := none }
  | none =>
    match HelpPage.ofArguments? arguments with
    | some page => { exitCode := 0, stdout := s.help page, stderr := "", written := none }
    | none => { exitCode := 2, stdout := "", stderr := "usage", written := none }

/-- The names under which a run reads bytes; a dash among them is standard input. -/
def Invocation.blobs (invocation : Invocation) : List String :=
  match invocation.command with
  | .verify options =>
    match options.source with
    | .blobs certificate witness => [certificate, witness]
    | .response _ => []
  | .lookup witness _ => [witness]
  | .rootHash witness => [witness]
  | .inspect certificate _ => [certificate]
  | .initConfig _ => []

/-- The files that a run may look at. -/
def Invocation.files (invocation : Invocation) : List String :=
  invocation.config.toList ++ invocation.blobs ++
  match invocation.command with
  | .verify options =>
    match options.source with
    | .blobs _ _ => []
    | .response file => [file]
  | .initConfig output => [output]
  | _ => []

end Certified.CommandLine

import Certified.Principal
import Certified.Text.Decimal

/-!
The arguments of the command line. Options start with two dashes, some of them also with one dash and
a letter, and stand in any order; what is not an option or the value of one has its meaning by its
place. Arguments ask for a command or for help; those that do not fit are refused without a reason.
-/

namespace Certified.CommandLine

/-! ### Values -/

/-- A file name is not empty. -/
def fileName? (text : String) : Option String :=
  if text.toList.isEmpty then none else some text

def anyText? (text : String) : Option String :=
  some text

def principal? (text : String) : Option Principal :=
  (Principal.ofText text).toOption

/-! ### Options -/

/-- An option that is understood. -/
structure Known where
  name : String
  letter : Option Char := none
  takesValue : Bool := true
  /-- The values that it takes. -/
  accepts : String → Bool := fun _ => true
  /-- It may be given more than once. -/
  repeats : Bool := false

/-- An option that was given, with its value. -/
abbrev Given := String × String

def configOption : Known :=
  { name := "config", letter := some 'c', accepts := fun value => (fileName? value).isSome }

def verboseOption : Known :=
  { name := "verbose", letter := some 'v', takesValue := false, repeats := true }

def helpOption : Known :=
  { name := "help", letter := some 'h', takesValue := false }

/-- Options that may stand before and after the command. -/
def commonOptions : List Known := [configOption, verboseOption, helpOption]

/-- Help is asked for. What comes after that is not read. -/
def asksForHelp (given : List Given) : Bool :=
  given.any (·.1 = helpOption.name)

/-- Only a lone dash may start a value with a dash. -/
def mayBeValue (argument : String) : Bool :=
  argument = "-" || argument.toList.head? ≠ some '-'

/-- The text before and after the first equals sign, if there is one. -/
def splitEquals (chars : List Char) : String × Option String :=
  let name := String.ofList (chars.takeWhile (· ≠ '='))
  match chars.dropWhile (· ≠ '=') with
  | _ :: value => (name, some (String.ofList value))
  | [] => (name, none)

/-- What an argument that starts with a dash gives: complete options, and the name of one whose value is
the next argument. -/
def longOption? (known : List Known) (chars : List Char) : Option (List Given × Option String) := do
  let (name, value) := splitEquals chars
  let option ← known.find? (·.name = name)
  match option.takesValue, value with
  | true, some value => some ([(name, value)], none)
  | true, none => some ([], some name)
  | false, none => some ([(name, "")], none)
  | false, some _ => none

/-- Letters after a single dash. What follows the letter of an option that takes a value is the value,
an equals sign in front not counted, and after the letter that asks for help nothing is read. -/
def letters? (known : List Known) : List Char → Option (List Given × Option String)
  | [] => some ([], none)
  | letter :: rest => do
    let option ← known.find? (·.letter = some letter)
    if option.takesValue then
      match rest with
      | [] => some ([], some option.name)
      | '=' :: value => some ([(option.name, String.ofList value)], none)
      | value => some ([(option.name, String.ofList value)], none)
    else if option.name = helpOption.name then some ([(option.name, "")], none)
    else do
      let (given, pending) ← letters? known rest
      some ((option.name, "") :: given, pending)

/-- The options of an argument, or none where it is no option. -/
def option? (known : List Known) (argument : String) :
    Option (Option (List Given × Option String)) :=
  match argument.toList with
  | ['-'] => some none
  | '-' :: '-' :: chars => (longOption? known chars).map some
  | '-' :: chars => (letters? known chars).map some
  | _ => some none

/-- What stands before the arguments of a command. -/
structure Ahead where
  given : List Given
  /-- The last of these options has its value in an argument of its own. -/
  late : Bool
  /-- The command and its arguments, unless help is asked for first. -/
  command : Option (String × List String)

def splitCommand? (known : List Known) : List String → Option Ahead
  | [] => none
  | argument :: rest => do
    match ← option? known argument with
    | none => some { given := [], late := false, command := some (argument, rest) }
    | some (given, none) =>
      if asksForHelp given then some { given, late := false, command := none }
      else do
        let ahead ← splitCommand? known rest
        some { ahead with given := given ++ ahead.given }
    | some (given, some name) =>
      match rest with
      | value :: rest =>
        if mayBeValue value then do
          let ahead ← splitCommand? known rest
          some { ahead with
            given := given ++ (name, value) :: ahead.given
            late := ahead.late || ahead.given.isEmpty }
        else none
      | [] => none

/-- The options of a command and its other arguments, up to where help is asked for. After two dashes
there are no options. -/
def collect? (known : List Known) : List String → Option (List Given × List String)
  | [] => some ([], [])
  | argument :: rest =>
    if argument = "--" then some ([], rest)
    else do
      match ← option? known argument with
      | none =>
        let (given, others) ← collect? known rest
        some (given, argument :: others)
      | some (given, none) =>
        if asksForHelp given then some (given, [])
        else do
          let (more, others) ← collect? known rest
          some (given ++ more, others)
      | some (given, some name) =>
        match rest with
        | value :: rest =>
          if mayBeValue value then do
            let (more, others) ← collect? known rest
            some (given ++ (name, value) :: more, others)
          else none
        | [] => none

/-! ### What is given -/

/-- The value of an option that may be given once; none of it where it is not given. -/
def single? (name : String) (given : List Given) : Option (Option String) :=
  match given.filterMap fun (n, value) => if n = name then some value else none with
  | [] => some none
  | [value] => some (some value)
  | _ => none

def flag? (name : String) (given : List Given) : Option Bool :=
  (single? name given).map Option.isSome

/-- The value of an option, read by `read`. -/
def valueOf? {α : Type} (name : String) (read : String → Option α) (given : List Given) :
    Option (Option α) := do
  match ← single? name given with
  | none => some none
  | some value => (read value).map some

/-- The option is not given, or with a value that it takes, and once unless it may be repeated. -/
def Known.fits (option : Known) (given : List Given) : Bool :=
  option.repeats ||
    match single? option.name given with
    | some value => value.all option.accepts
    | none => false

def timesGiven (name : String) (given : List Given) : Nat :=
  given.countP (·.1 = name)

/-! ### Commands -/

/-- Where a certificate and a witness come from: a file each, or one file with a whole response. -/
inductive Source where
  | blobs (certificate witness : String)
  | response (file : String)
deriving DecidableEq

structure VerifyOptions where
  source : Source
  canister : Option Principal
  rootKey : Option String
  maxOffset : Option UInt64
  now : Option UInt64
  key : Option String
  expectPayload : Option String
  json : Bool
deriving DecidableEq

inductive Command where
  | verify (options : VerifyOptions)
  | lookup (witness path : String)
  | rootHash (witness : String)
  | inspect (certificate : String) (json : Bool)
  | initConfig (output : String)
deriving DecidableEq

structure Invocation where
  config : Option String
  /-- How much more is logged. -/
  verbose : Nat
  command : Command
deriving DecidableEq

def jsonOption : Known := { name := "json", takesValue := false }

/-- The options that a command understands besides the common ones. -/
def optionsOf? (command : String) : Option (List Known) :=
  match command with
  | "verify" =>
    let file (value : String) := (fileName? value).isSome
    let number (value : String) := (Text.Decimal.readUInt64? value).isSome
    some [
      { name := "certificate", accepts := file }, { name := "witness", accepts := file },
      { name := "response", accepts := file },
      { name := "canister-id", accepts := fun value => (principal? value).isSome },
      { name := "root-key" }, { name := "max-offset-ms", accepts := number },
      { name := "now-ms", accepts := number }, { name := "key" }, { name := "expect-payload" },
      jsonOption]
  | "lookup" | "root-hash" | "init-config" => some []
  | "inspect" => some [jsonOption]
  | _ => none

/-- The default name of a new configuration file. -/
def defaultOutput : String := "icv.toml"

def source? (given : List Given) : Option Source := do
  let certificate ← valueOf? "certificate" fileName? given
  let witness ← valueOf? "witness" fileName? given
  let response ← valueOf? "response" fileName? given
  match certificate, witness, response with
  | some certificate, some witness, none => some (.blobs certificate witness)
  | none, none, some file => some (.response file)
  | _, _, _ => none

/-- A payload is expected only under a key. -/
def verifyOptions? (given : List Given) : Option VerifyOptions := do
  let options : VerifyOptions := {
    source := ← source? given
    canister := ← valueOf? "canister-id" principal? given
    rootKey := ← valueOf? "root-key" anyText? given
    maxOffset := ← valueOf? "max-offset-ms" Text.Decimal.readUInt64? given
    now := ← valueOf? "now-ms" Text.Decimal.readUInt64? given
    key := ← valueOf? "key" anyText? given
    expectPayload := ← valueOf? "expect-payload" anyText? given
    json := ← flag? "json" given }
  if options.expectPayload.isSome && options.key.isNone then none else some options

def command? (name : String) (given : List Given) (others : List String) : Option Command :=
  match name, others with
  | "verify", [] => (verifyOptions? given).map .verify
  | "lookup", [witness, path] => (fileName? witness).map fun witness => .lookup witness path
  | "root-hash", [witness] => (fileName? witness).map .rootHash
  | "inspect", [certificate] => do
    let certificate ← fileName? certificate
    let json ← flag? "json" given
    some (.inspect certificate json)
  | "init-config", [] => some (.initConfig defaultOutput)
  | "init-config", [output] => (fileName? output).map .initConfig
  | _, _ => none

/-- The command that the arguments ask for. A configuration file given after the command goes before one
given ahead of it, and so does the wish for more to be logged. -/
def Invocation.ofArguments? (arguments : List String) : Option Invocation := do
  let ahead ← splitCommand? commonOptions arguments
  let (name, rest) ← ahead.command
  let (given, others) ← collect? ((← optionsOf? name) ++ commonOptions) rest
  if asksForHelp given then none
  else
    let first ← valueOf? "config" fileName? ahead.given
    let second ← valueOf? "config" fileName? given
    let command ← command? name given others
    let verbose := timesGiven verboseOption.name given
    some {
      config := second.or first
      verbose := if verbose = 0 then timesGiven verboseOption.name ahead.given else verbose
      command }

/-! ### Help -/

/-- A page of the help. -/
inductive HelpPage where
  | program
  | command (name : String)
deriving DecidableEq

def helpCommand : String := "help"

def commandNames : List String :=
  ["verify", "lookup", "root-hash", "inspect", "init-config", helpCommand]

/-- What the arguments of a command that are not options may be, place by place. -/
def placesOf (command : String) : List (String → Bool) :=
  let file (value : String) := (fileName? value).isSome
  match command with
  | "lookup" => [file, fun _ => true]
  | "root-hash" | "inspect" | "init-config" => [file]
  | _ => []

def fitPlaces : List (String → Bool) → List String → Bool
  | _, [] => true
  | [], _ => false
  | accepts :: places, argument :: others => accepts argument && fitPlaces places others

/-- The options before the command that are looked at before it: all but a last one whose value stands
right in front of it. -/
def Ahead.settled (ahead : Ahead) : List Given :=
  if ahead.late then ahead.given.dropLast else ahead.given

/-- The page that the names after the help command lead to. -/
def HelpPage.ofNames? : List String → Option HelpPage
  | [] => some .program
  | [name] => if commandNames.contains name then some (.command name) else none
  | _ => none

/-- The page that the arguments ask for. What they say before they ask for it must fit, but need not be
complete. -/
def HelpPage.ofArguments? (arguments : List String) : Option HelpPage := do
  let ahead ← splitCommand? commonOptions arguments
  if !commonOptions.all (·.fits ahead.settled) then none
  else
    match ahead.command with
    | none => some .program
    | some (name, rest) =>
      if name = helpCommand then ofNames? rest
      else do
        let known := (← optionsOf? name) ++ commonOptions
        let (given, others) ← collect? known rest
        if asksForHelp given && known.all (·.fits given) && fitPlaces (placesOf name) others then
          some (.command name)
        else none

end Certified.CommandLine

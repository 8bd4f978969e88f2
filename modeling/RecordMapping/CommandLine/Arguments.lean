import RecordMapping.Number.Numeral
import RecordMapping.Text.Pieces

/-!
# Arguments of the command line

Options come as `--name value`, `--name=value`, `-n value` or `-nvalue`, and short flags may share
one hyphen. An option is given once at most, and its value starts with a hyphen only when it is
attached. Options of the program come before the name of the command and those of the command after
it.
-/

namespace RecordMapping

/-- What the program is asked to do. -/
inductive Command where
  | init (path : String) (name : Option String)
  | validate
  | status
  | list (entityType : String) (limit : Option Nat) (offset : Nat)
  | extract (entityType : String) (input : Option String)
  | create (entityType input : String) (save : Bool)
  deriving DecidableEq

/-- A command and the path of the project that it is about. -/
structure Invocation where
  config : String
  command : Command
  deriving DecidableEq

def versionText : String := "xentity 0.1.0"

inductive Request where
  | run (invocation : Invocation)
  | help
  | version
  deriving DecidableEq

namespace Arguments

/-- An option: its name, its letter, if it has one, and whether it takes a value. -/
structure Setting where
  name : String
  letter : Option Char
  takesValue : Bool

/-- The option that asks for help; every command has it. -/
def helpSetting : Setting := ⟨"help", some 'h', false⟩

def versionSetting : Setting := ⟨"version", some 'V', false⟩

def typeSetting : Setting := ⟨"entity-type", some 'e', true⟩

/-- The option that names a file to read. -/
def inputSetting : Setting := ⟨"input", some 'i', true⟩

def programSettings : List Setting :=
  [⟨"config", some 'c', true⟩, ⟨"verbose", some 'v', false⟩, helpSetting, versionSetting]

def commandSettings? : String → Option (List Setting)
  | "init" => some [⟨"name", some 'n', true⟩, helpSetting]
  | "validate" => some [helpSetting]
  | "status" => some [helpSetting]
  | "list" =>
    some [typeSetting, ⟨"limit", some 'l', true⟩, ⟨"offset", none, true⟩, helpSetting]
  | "extract" => some [typeSetting, inputSetting, helpSetting]
  | "create" => some [typeSetting, inputSetting, ⟨"save", none, false⟩, helpSetting]
  | _ => none

/-- Values of options by name; a flag has an empty one. -/
abbrev Given : Type := List (String × String)

inductive Outcome where
  | done (given : Given)
  | wants (name : String) (given : Given)
  | asked (request : Request)

/-- The values with one more, unless there is one already. -/
def give? (name value : String) (given : Given) : Option Given :=
  if (given.lookup name).isSome then none else some (given ++ [(name, value)])

def flag? (setting : Setting) (given : Given) : Option Outcome :=
  if setting.name = helpSetting.name then some (.asked .help)
  else if setting.name = versionSetting.name then some (.asked .version)
  else (give? setting.name "" given).map Outcome.done

def long? (settings : List Setting) (text : List Char) (given : Given) : Option Outcome :=
  let name := String.ofList (text.takeWhile (· != '='))
  match settings.find? (·.name == name), text.dropWhile (· != '=') with
  | none, _ => none
  | some setting, [] =>
    if setting.takesValue then some (.wants name given) else flag? setting given
  | some setting, _ :: value =>
    if setting.takesValue then (give? name (String.ofList value) given).map Outcome.done else none

/-- Reads the letters of an argument after its hyphen. -/
def letters? (settings : List Setting) : List Char → Given → Option Outcome
  | [], given => some (.done given)
  | c :: rest, given =>
    match settings.find? (·.letter == some c) with
    | none => none
    | some setting =>
      if setting.takesValue then
        match rest with
        | [] => some (.wants setting.name given)
        | '=' :: value => (give? setting.name (String.ofList value) given).map Outcome.done
        | value => (give? setting.name (String.ofList value) given).map Outcome.done
      else match flag? setting given with
        | some (.done given) => letters? settings rest given
        | other => other

def isHyphenated (argument : String) : Bool :=
  match argument.toList with
  | '-' :: _ :: _ => true
  | _ => false

def options? (settings : List Setting) (argument : String) (given : Given) : Option Outcome :=
  match argument.toList with
  | '-' :: '-' :: text => long? settings text given
  | '-' :: letters => letters? settings letters given
  | _ => none

/-- The options and the other arguments of a text of arguments. -/
inductive Scanned where
  | found (given : Given) (words rest : List String)
  | asked (request : Request)

/-- Reads arguments; with `stops`, up to the first one that is no option. -/
def scan? (settings : List Setting) (stops : Bool) :
    List String → Given → List String → Option Scanned
  | [], given, words => some (.found given words [])
  | argument :: rest, given, words =>
    if argument = "--" then (if stops then none else some (.found given (words ++ rest) []))
    else if isHyphenated argument then
      match options? settings argument given with
      | none => none
      | some (.asked request) => some (.asked request)
      | some (.done given) => scan? settings stops rest given words
      | some (.wants name given) =>
        match rest with
        | [] => none
        | value :: rest =>
          if isHyphenated value then none
          else match give? name value given with
            | none => none
            | some given => scan? settings stops rest given words
    else if stops then some (.found given [argument] rest)
    else scan? settings stops rest given (words ++ [argument])

/-- The count of an option that may be missing. -/
def optionalCount? (name : String) (given : Given) : Option (Option Nat) :=
  match given.lookup name with
  | none => some none
  | some text => (Numeral.count? text.toList).map some

def command? (name : String) (given : Given) (words : List String) : Option Command :=
  match name, words with
  | "init", [] => some (.init "." (given.lookup "name"))
  | "init", [path] => some (.init path (given.lookup "name"))
  | "validate", [] => some .validate
  | "status", [] => some .status
  | "list", [] => do
    let entityType ← given.lookup "entity-type"
    let limit ← optionalCount? "limit" given
    let offset ← optionalCount? "offset" given
    return .list entityType limit (offset.getD 0)
  | "extract", [] => do
    let entityType ← given.lookup "entity-type"
    return .extract entityType (given.lookup "input")
  | "create", [] => do
    let entityType ← given.lookup "entity-type"
    let input ← given.lookup "input"
    return .create entityType input (given.lookup "save").isSome
  | _, _ => none

def commandRequest? (config name : String) (arguments : List String) : Option Request :=
  match commandSettings? name with
  | none => none
  | some settings =>
    match scan? settings false arguments [] [] with
    | none => none
    | some (.asked request) => some request
    | some (.found given words _) =>
      (command? name given words).map fun command => .run ⟨config, command⟩

/-- Whether help about some words can be given: about the program or about one command. -/
def isHelpTopic : List String → Bool
  | [] => true
  | [word] => word == "help" || (commandSettings? word).isSome
  | _ => false

/-- What arguments ask for, given the path of the project unless they name one. -/
def read? (config : String) (arguments : List String) : Option Request :=
  match scan? programSettings true arguments [] [] with
  | some (.asked request) => some request
  | some (.found given [name] rest) =>
    if name = "help" then (if isHelpTopic rest then some .help else none)
    else commandRequest? ((given.lookup "config").getD config) name rest
  | _ => none

end Arguments

end RecordMapping

import Gatehouse.Decimal.Numeral
import Gatehouse.Json.Record

/-!
# The command line

A command line names a command, `token` or `verify`, and gives options in any order around it. An
option that takes a value takes the next argument unless that argument looks like an option. Its
value is judged only when the next known option or a plain argument comes, or at the end, so that
an argument that nobody knows is refused first. Behind `--` every argument is plain.
-/

namespace Gatehouse.Cli

/-- How results are printed. -/
inductive Format where
  | text
  | json
deriving DecidableEq, Repr

namespace Format

def all : List Format :=
  [text, json]

def name : Format → String
  | text => "Text"
  | json => "Json"

def toJson (f : Format) : Json.Value :=
  .string f.name

def reader (room : Nat) : Json.Reader Format :=
  Json.Reader.choice room (all.map fun f => (f.name, f))

end Format

/-- What is to be done. -/
inductive Command where
  /-- To issue a token. -/
  | token (subject role : String) (hours : Option UInt64)
  /-- To check a token. -/
  | verify (token : String)
deriving DecidableEq, Repr

/-- A command line that has been understood. -/
structure Arguments where
  /-- How the result is printed. -/
  format : Format
  /-- The secret, if one was given. -/
  secret : Option String
  /-- What is to be done. -/
  command : Command
deriving DecidableEq, Repr

/-- Why a command line is not carried out. -/
inductive Rejection where
  /-- Help was asked for. -/
  | help
  /-- The version was asked for. -/
  | version
  /-- Nothing was asked for, so help is given. -/
  | nothingGiven
  /-- There are options and no command. -/
  | noCommand
  /-- There is no such command. -/
  | unknownCommand
  /-- There is no such option, or no place for an argument. -/
  | unknownArgument
  /-- A required option or argument is missing. -/
  | missingArgument
  /-- An option lacks its value. -/
  | missingValue
  /-- An option has a value and takes none. -/
  | needlessValue
  /-- The value of an option is not in its grammar. -/
  | badValue
  /-- An option is given twice. -/
  | repeatedOption
deriving DecidableEq, Repr

/-- The exit code of a command line that is not carried out. -/
def Rejection.exitCode : Rejection → UInt32
  | .help | .version => 0
  | _ => 2

/-! ## Options -/

/-- Where on the command line options stand. -/
inductive Place where
  /-- Before the command. -/
  | top
  /-- Behind `token`. -/
  | token
  /-- Behind `verify`. -/
  | verify
deriving DecidableEq, Repr

/-- The options that take a value. -/
inductive Setting where
  | secret
  | subject
  | role
  | hours
deriving DecidableEq, Repr

/-- The option of a name at a place. -/
def Place.setting? (p : Place) (name : String) : Option Setting :=
  match p, name with
  | _, "secret" => some .secret
  | .token, "subject" => some .subject
  | .token, "role" => some .role
  | .token, "hours" => some .hours
  | _, _ => none

/-- What has been given at a place. -/
structure Given where
  json : Bool := false
  secret : Option String := none
  subject : Option String := none
  role : Option String := none
  hours : Option UInt64 := none
  /-- The plain argument. -/
  plain : Option String := none
  /-- An option that has not been judged, with its value if that has come. -/
  pending : Option (Setting × Option String) := none
  /-- Whether `--` has come. -/
  trailing : Bool := false

namespace Given

/-- A value that is given for the first time. -/
def once {α : Type} (before : Option α) (value : α) : Except Rejection (Option α) :=
  match before with
  | some _ => .error .repeatedOption
  | none => .ok (some value)

/-- What has been given, with the value of an option. -/
def store (g : Given) (option : Setting) (value : String) : Except Rejection Given :=
  match option with
  | .secret => (once g.secret value).map fun v => { g with secret := v }
  | .subject => (once g.subject value).map fun v => { g with subject := v }
  | .role => (once g.role value).map fun v => { g with role := v }
  | .hours =>
    match g.hours with
    | some _ => .error .repeatedOption
    | none =>
      match Decimal.below? 0x10000000000000000 value with
      | some n => .ok { g with hours := some n.toUInt64 }
      | none => .error .badValue

/-- What has been given, with the pending option judged. -/
def settle (g : Given) : Except Rejection Given :=
  match g.pending with
  | none => .ok g
  | some (_, none) => .error .missingValue
  | some (option, some value) => { g with pending := none }.store option value

/-- Whether the next argument is the value of an option. -/
def awaitsValue (g : Given) : Bool :=
  match g.pending with
  | some (_, none) => !g.trailing
  | _ => false

end Given

/-! ## Arguments -/

/-- The commands that can be named. -/
def commandNames : List String :=
  ["token", "verify", "help"]

/-- Takes an argument that is no option. -/
def takePlain (p : Place) (g : Given) (arg : String) : Except Rejection Given :=
  match p with
  | .top =>
    if g.trailing && commandNames.contains arg then .error .unknownArgument
    else .error .unknownCommand
  | .token => .error .unknownArgument
  | .verify =>
    match g.plain with
    | some _ => .error .unknownArgument
    | none => g.settle.map fun g => { g with plain := some arg }

/-- Takes an option that has no value. -/
def takeFlag (value : Option String) (g : Given) (use : Given → Except Rejection Given) :
    Except Rejection Given :=
  match value with
  | some _ => .error .needlessValue
  | none => g.settle.bind use

/-- Takes an option by its long name, with the value behind its equals sign if there is one. -/
def takeLong (p : Place) (g : Given) (name : String) (value : Option String) :
    Except Rejection Given :=
  if name = "help" then takeFlag value g fun _ => .error .help
  else if name = "version" ∧ p = .top then takeFlag value g fun _ => .error .version
  else if name = "json" then
    takeFlag value g fun g =>
      if g.json then .error .repeatedOption else .ok { g with json := true }
  else
    match p.setting? name with
    | none => .error .unknownArgument
    | some option =>
      g.settle.bind fun g =>
        match value with
        | some v => g.store option v
        | none => .ok { g with pending := some (option, none) }

/-- Takes options by their letters. No letter but the first is reached. -/
def takeShort (p : Place) (g : Given) (letter : Char) : Except Rejection Given :=
  if letter = 'h' then g.settle.bind fun _ => .error .help
  else if letter = 'V' ∧ p = .top then g.settle.bind fun _ => .error .version
  else .error .unknownArgument

/-- The name of a long option and the value behind its equals sign. -/
def cutValue (cs : List Char) : String × Option String :=
  match cs.dropWhile (· != '=') with
  | [] => (String.ofList cs, none)
  | _ :: value => (String.ofList (cs.takeWhile (· != '=')), some (String.ofList value))

/-- Takes the next argument. -/
def take (p : Place) (g : Given) (arg : String) : Except Rejection Given :=
  if g.trailing then takePlain p g arg
  else
    match arg.toList with
    | ['-', '-'] => .ok { g with trailing := true }
    | '-' :: '-' :: cs => takeLong p g (cutValue cs).1 (cutValue cs).2
    | '-' :: letter :: _ => takeShort p g letter
    | _ =>
      match g.pending with
      | some (option, none) => .ok { g with pending := some (option, some arg) }
      | _ => takePlain p g arg

/-- Takes the arguments behind a command. -/
def takeAll (p : Place) (g : Given) : List String → Except Rejection Given
  | [] => g.settle
  | arg :: rest => (take p g arg).bind fun g => takeAll p g rest

/-- The role of a token when none is given. -/
def standardRole : String := "user"

/-- A value that must have been given. -/
def demand {α : Type} : Option α → Except Rejection α
  | some a => .ok a
  | none => .error .missingArgument

/-- The command that has been given behind its name. -/
def Given.command (g : Given) : Place → Except Rejection Command
  | .token => do
    let subject ← demand g.subject
    return .token subject (g.role.getD standardRole) g.hours
  | .verify => do
    let token ← demand g.plain
    return .verify token
  | .top => .error .noCommand

/-- What a command and the options before and behind it come to. -/
def combine (before behind : Given) (command : Command) : Arguments :=
  { format := if before.json || behind.json then .json else .text
    secret := behind.secret.or before.secret
    command := command }

/-- Understands the arguments from a command on. -/
def parseCommand (before : Given) (p : Place) (rest : List String) :
    Except Rejection Arguments := do
  let behind ← takeAll p {} rest
  let command ← behind.command p
  let before ← before.settle
  return combine before behind command

/-- Why the arguments behind `help` give no command to be carried out. -/
def helpRejection : List String → Rejection
  | [] => .help
  | [name] => if commandNames.contains name then .help else .unknownCommand
  | _ => .unknownCommand

/-- Why options without a command are not carried out. -/
def lonelyRejection (g : Given) : Rejection :=
  match g.settle with
  | .error r => r
  | .ok g => if g.json || g.secret.isSome then .noCommand else .nothingGiven

/-- Understands the arguments behind those that have been taken. -/
def parseFrom (g : Given) : List String → Except Rejection Arguments
  | [] => .error (lonelyRejection g)
  | arg :: rest =>
    if !g.trailing && !g.awaitsValue && arg == "help" then .error (helpRejection rest)
    else if !g.trailing && !g.awaitsValue && arg == "token" then parseCommand g .token rest
    else if !g.trailing && !g.awaitsValue && arg == "verify" then parseCommand g .verify rest
    else (take .top g arg).bind fun g => parseFrom g rest

/-- Understands a command line. -/
def parse (args : List String) : Except Rejection Arguments :=
  parseFrom {} args

end Gatehouse.Cli

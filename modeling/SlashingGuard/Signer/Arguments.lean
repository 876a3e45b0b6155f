import SlashingGuard.Signer.Config

/-! # Arguments of the command line

    Options may stand before or behind the name of the command; one behind it
    counts more than the same one before it, and on one side each may stand
    once.  The value of an option follows as the next argument, behind an
    equals sign, or right behind a single letter.  Arguments are taken from
    left to right, and the first that does not fit is refused. -/

namespace SlashingGuard.CommandLine

/-! ## Commands -/

/-- What the program is asked to do. -/
inductive Command where
  | run
  | exportHistory (output : Option String)
  | importHistory (input : String)
  | prune
  deriving DecidableEq, Repr

/-- The names of commands. -/
inductive Verb where
  | run
  | exportHistory
  | importHistory
  | prune
  deriving DecidableEq, Repr

namespace Verb

def name : Verb → String
  | .run => "run"
  | .exportHistory => "export"
  | .importHistory => "import"
  | .prune => "prune"

def all : List Verb := [.run, .exportHistory, .importHistory, .prune]

def ofName? (name : String) : Option Verb := all.find? fun v => v.name == name

/-- How many arguments a command has beside options. -/
def operands : Verb → Nat
  | .importHistory => 1
  | _ => 0

end Verb

/-! ## Options -/

inductive Flag where
  | config
  | dataDirectory
  | backend
  | log
  | output
  | help
  deriving DecidableEq, Repr

namespace Flag

def long : Flag → String
  | .config => "config"
  | .dataDirectory => "data-dir"
  | .backend => "backend"
  | .log => "log"
  | .output => "output"
  | .help => "help"

def short? : Flag → Option Char
  | .config => some 'c'
  | .dataDirectory => some 'd'
  | .backend => some 'b'
  | .log => none
  | .output => some 'o'
  | .help => some 'h'

/-- The options that stand before or behind the name of a command. -/
def shared : List Flag := [.config, .dataDirectory, .backend, .log, .help]

/-- Whether a value fits an option. -/
def accepts (flag : Flag) (value : String) : Bool :=
  match flag with
  | .backend => (Backend.read value).toOption.isSome
  | .log => true
  | _ => value ≠ ""

end Flag

/-- The options known on one side of the name of a command. -/
def knownFlags : Option Verb → List Flag
  | some .exportHistory => .output :: Flag.shared
  | _ => Flag.shared

/-- Why arguments are refused; asking for help also ends them. -/
inductive Refusal where
  | help
  | unknownOption (argument : String)
  | unknownCommand (argument : String)
  | surplus (argument : String)
  | missingValue (flag : Flag)
  | badValue (flag : Flag) (value : String)
  | repeated (flag : Flag)
  | missingCommand
  | missingOperand
  deriving DecidableEq, Repr

namespace Refusal

def message : Refusal → String
  | .help =>
    "Commands: run, export [--output FILE], import FILE, prune\n" ++
      "Options: --config FILE, --data-dir DIR, --backend memory|file|rocksdb, --log FILTER"
  | .unknownOption argument => "error: unexpected argument '" ++ argument ++ "'"
  | .unknownCommand argument => "error: unrecognized command '" ++ argument ++ "'"
  | .surplus argument => "error: unexpected argument '" ++ argument ++ "'"
  | .missingValue flag => "error: a value is required for '--" ++ flag.long ++ "'"
  | .badValue flag value => "error: invalid value '" ++ value ++ "' for '--" ++ flag.long ++ "'"
  | .repeated flag => "error: '--" ++ flag.long ++ "' cannot be used multiple times"
  | .missingCommand => "error: a command is required"
  | .missingOperand => "error: a required argument was not provided"

end Refusal

/-! ## Single arguments -/

/-- What one argument is. -/
inductive Token where
  | word
  /-- What follows is no option. -/
  | ender
  /-- An option, unless it is none that is known, and its value, if it is attached. -/
  | option (flag : Option Flag) (value : Option String)
  deriving DecidableEq, Repr

/-- The part before the first equals sign, and the part behind it. -/
def cutAtEquals (chars : List Char) : List Char × Option (List Char) :=
  match chars.dropWhile (· ≠ '=') with
  | [] => (chars, none)
  | _ :: value => (chars.takeWhile (· ≠ '='), some value)

/-- The value that stands right behind the letter of an option. -/
def attachedValue : List Char → Option String
  | [] => none
  | '=' :: value => some (String.ofList value)
  | value => some (String.ofList value)

/-- Reads one argument, where some options are known. -/
def token (known : List Flag) (argument : String) : Token :=
  match argument.toList with
  | ['-'] => .word
  | ['-', '-'] => .ender
  | '-' :: '-' :: body =>
    let (name, value) := cutAtEquals body
    .option (known.find? fun f => f.long == String.ofList name) (value.map String.ofList)
  | '-' :: letter :: body =>
    .option (known.find? fun f => f.short? == some letter) (attachedValue body)
  | _ => .word

/-! ## Sides -/

/-- What stands on one side of the name of a command. -/
structure Given where
  values : List (Flag × String)
  words : List String
  deriving DecidableEq, Repr

namespace Given

def empty : Given := ⟨[], []⟩

def value? (g : Given) (flag : Flag) : Option String := g.values.lookup flag

/-- One more option. -/
def withValue (g : Given) (flag : Flag) (value : String) : Except Refusal Given :=
  if flag.accepts value = false then .error (.badValue flag value)
  else if (g.value? flag).isSome then .error (.repeated flag)
  else .ok { g with values := g.values ++ [(flag, value)] }

/-- One more argument that is no option; `room` counts how many there may be. -/
def withWord (room : Nat) (g : Given) (word : String) : Except Refusal Given :=
  if g.words.length < room then
    if word = "" then .error .missingOperand else .ok { g with words := g.words ++ [word] }
  else .error (.surplus word)

/-- Several more of them. -/
def withWords (room : Nat) (g : Given) : List String → Except Refusal Given
  | [] => .ok g
  | word :: rest => do (← g.withWord room word).withWords room rest

end Given

/-- Whether an argument can be the value of the option before it. -/
def isValue (argument : String) : Bool :=
  match argument.toList with
  | '-' :: _ :: _ => false
  | _ => true

/-- Reads the arguments behind the name of a command. -/
def readBehind (verb : Verb) (g : Given) : List String → Except Refusal Given
  | [] => .ok g
  | argument :: rest =>
    match token (knownFlags (some verb)) argument, rest with
    | .word, rest => do readBehind verb (← g.withWord verb.operands argument) rest
    | .ender, rest => g.withWords verb.operands rest
    | .option none _, _ => .error (.unknownOption argument)
    | .option (some .help) none, _ => .error .help
    | .option (some .help) (some _), _ => .error (.unknownOption argument)
    | .option (some flag) (some value), rest => do
      readBehind verb (← g.withValue flag value) rest
    | .option (some flag) none, [] => .error (.missingValue flag)
    | .option (some flag) none, value :: rest =>
      if isValue value then do readBehind verb (← g.withValue flag value) rest
      else .error (.missingValue flag)

/-- Reads the arguments up to the name of the command: what stands before it, the name, and what
    stands behind it. -/
def readBefore (g : Given) : List String → Except Refusal (Given × Verb × List String)
  | [] => .error .missingCommand
  | argument :: rest =>
    match token (knownFlags none) argument, rest with
    | .word, rest =>
      match Verb.ofName? argument with
      | some verb => .ok (g, verb, rest)
      | none => .error (helpOn argument rest)
    | .ender, [] => .error .missingCommand
    | .ender, surplus :: _ => .error (.surplus surplus)
    | .option none _, _ => .error (.unknownOption argument)
    | .option (some .help) none, _ => .error .help
    | .option (some .help) (some _), _ => .error (.unknownOption argument)
    | .option (some flag) (some value), rest => do
      readBefore (← g.withValue flag value) rest
    | .option (some flag) none, [] => .error (.missingValue flag)
    | .option (some flag) none, value :: rest =>
      if isValue value then do readBefore (← g.withValue flag value) rest
      else .error (.missingValue flag)
where
  /-- A word in place of a command: perhaps the word for help, on a command that there is. -/
  helpOn (word : String) : List String → Refusal
    | [] => if word = "help" then .help else .unknownCommand word
    | [topic] =>
      if word = "help" ∧ ((Verb.ofName? topic).isSome ∨ topic = "help") then .help
      else .unknownCommand word
    | _ => .unknownCommand word

/-! ## All arguments -/

/-- What the arguments say. -/
structure Request where
  config : Option String
  dataDirectory : Option String
  backend : Option Backend
  command : Command
  deriving DecidableEq, Repr

/-- The command of a name with its operands. -/
def commandOf (verb : Verb) (g : Given) : Except Refusal Command :=
  match verb with
  | .run => .ok .run
  | .prune => .ok .prune
  | .exportHistory => .ok (.exportHistory (g.value? .output))
  | .importHistory =>
    match g.words with
    | [] => .error .missingOperand
    | input :: _ => .ok (.importHistory input)

/-- Reads the arguments. -/
def readArguments (arguments : List String) : Except Refusal Request := do
  let (before, verb, rest) ← readBefore .empty arguments
  let behind ← readBehind verb .empty rest
  let command ← commandOf verb behind
  let value (flag : Flag) := behind.value? flag <|> before.value? flag
  return {
    config := value .config
    dataDirectory := value .dataDirectory
    backend := (value .backend).bind fun word => (Backend.read word).toOption
    command }

end SlashingGuard.CommandLine

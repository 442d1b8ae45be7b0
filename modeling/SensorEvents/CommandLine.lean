import SensorEvents.Command

/-!
# The command line

The arguments of the program: one command with its options, in any order after it. An option with
a value takes the next argument, or what follows its `=`.
-/
namespace SensorEvents

structure ReplayOptions where
  config : String := defaultConfigPath
  trace : Option String := none
  /-- Send the events to a MIDI port. -/
  midi : Bool := false
  /-- Part of the name of the port. -/
  port : Option String := none
  /-- Keep to the times of the recording. -/
  realtime : Bool := false
  json : Bool := false
  deriving DecidableEq, Repr

inductive CommandLine where
  | check (config : String)
  | replay (trace : String) (options : ReplayOptions)
  | writeExample
  | ports
  deriving DecidableEq, Repr

namespace CommandLine

/-- Split an option from the value joined to it. -/
def words (argument : String) : List String :=
  if argument.startsWith "--" then
    match argument.splitOn "=" with
    | name :: value :: more => [name, "=".intercalate (value :: more)]
    | _ => [argument]
  else
    [argument]

/-- Whether an argument only asks for more of the log, which may stand anywhere. -/
def isVerbosity (argument : String) : Bool :=
  argument = "--verbose" || argument.length ≥ 2 && argument.startsWith "-" &&
    (argument.toList.drop 1).all (· = 'v')

/-- The configuration that `check` is given. -/
def config? (path : String) : List String → Option String
  | [] => some path
  | name :: value :: rest =>
    if name = "-c" ∨ name = "--config" then config? value rest else none
  | _ => none

def options? (o : ReplayOptions) : List String → Option ReplayOptions
  | [] => some o
  | "--midi" :: rest => options? { o with midi := true } rest
  | "--realtime" :: rest => options? { o with realtime := true } rest
  | "--json" :: rest => options? { o with json := true } rest
  | name :: value :: rest =>
    if name = "-c" ∨ name = "--config" then options? { o with config := value } rest
    else if name = "-t" ∨ name = "--trace" then options? { o with trace := some value } rest
    else if name = "-p" ∨ name = "--port" then options? { o with port := some value } rest
    else none
  | _ => none

/-- What the arguments ask for, if they are understood. -/
def ofArguments? (arguments : List String) : Option CommandLine :=
  match (arguments.filter fun a => !isVerbosity a).flatMap words with
  | "check" :: rest => (config? defaultConfigPath rest).map check
  | "init" :: [] => some writeExample
  | "ports" :: [] => some ports
  | "replay" :: rest => do
    let options ← options? {} rest
    let trace ← options.trace
    return replay trace options
  | _ => none

def usage : String :=
  "Usage: sensemidi [-v] <COMMAND>\n\n" ++
    "Commands:\n" ++
    "  replay --trace <FILE> [--config <FILE>] [--midi] [--port <NAME>] [--realtime] [--json]\n" ++
    "  check  [--config <FILE>]\n" ++
    "  init\n" ++
    "  ports\n"

end CommandLine

/-- What a program says that finds no MIDI port. -/
def noPorts : String := "No MIDI output ports available"

end SensorEvents

import SensorEvents.Config.Example
import SensorEvents.Config.Reading
import SensorEvents.Report
import SensorEvents.Yaml.Document

/-!
# The commands

`check`, `init` and `replay` as functions of the files they find: what each prints and with what
status it ends. Reading files, sleeping and printing are left to the program around them.
-/
namespace SensorEvents

/-- A failure: its message and, under it, the messages of its causes. -/
structure Failure where
  message : String
  causes : List String := []
  deriving DecidableEq, Repr

namespace Failure

def ofChain : List String → Failure
  | [] => { message := "" }
  | message :: causes => { message, causes }

def inline (f : Failure) : String := ": ".intercalate (f.message :: f.causes)

/-- The lines of the causes, which are numbered if there are several. -/
def causeLines (f : Failure) : List String :=
  match f.causes with
  | [cause] => ["    " ++ cause]
  | causes => causes.zipIdx.map fun (cause, i) => Report.right 5 (toString i) ++ ": " ++ cause

/-- The failure as a program ends with it. -/
def report (f : Failure) : String :=
  let causes := if f.causes.isEmpty then [] else ["", "Caused by:"] ++ f.causeLines
  String.join ((("Error: " ++ f.message) :: causes).map (· ++ "\n"))

end Failure

/-- What a path leads to: the bytes of a file, or nothing. -/
abbrev FileContent := Option ByteArray

namespace FileContent

/-- The text of a file, or why it cannot be read. -/
def text (file : FileContent) : Except String String :=
  match file with
  | none => .error "No such file or directory (os error 2)"
  | some bytes =>
    match String.fromUTF8? bytes with
    | some s => .ok s
    | none => .error "stream did not contain valid UTF-8"

end FileContent

def defaultConfigPath : String := "sensemidi.yaml"

/-- The configuration in a YAML text, if it is one. -/
def SensorConfig.ofYaml? (text : String) : Option SensorConfig :=
  (Yaml.read? text).bind (·.read? SensorConfig.ofNode?)

def loadConfig (path : String) (file : FileContent) : Except Failure SensorConfig := do
  let text ← file.text.mapError fun cause =>
    { message := s!"Failed to read {path}", causes := [cause] }
  match SensorConfig.ofYaml? text with
  | none => throw { message := s!"Failed to parse {path}", causes := ["not a configuration"] }
  | some config =>
    config.validate.mapError fun issue => Failure.ofChain issue.chain
    return config

def loadTrace (path : String) (file : FileContent) : Except Failure Trace := do
  let message := s!"Failed to load trace {path}"
  let text ← file.text.mapError fun cause =>
    { message, causes := [s!"failed to read trace: {cause}", cause] }
  (Trace.ofText text).mapError fun error => { message, causes := [error.message] }

/-- What a command leaves behind: its lines, a failure it ended with, and its status. -/
structure Outcome where
  lines : List String := []
  failure : Option Failure := none
  status : Nat := 0
  deriving DecidableEq, Repr

namespace Outcome

def output (o : Outcome) : String := String.join (o.lines.map (· ++ "\n"))

def failed (failure : Failure) : Outcome := { failure := some failure, status := 1 }

end Outcome

/-- A text between quotation marks, as a message shows a path. -/
def quotedPath (path : String) : String :=
  "\"" ++ String.join (path.toList.map fun c =>
    if c = '\\' || c = '\x22' then "\\" ++ c.toString else c.toString) ++ "\""

def check (path : String) (file : FileContent) : Outcome :=
  let start := s!"Checking configuration at {quotedPath path}..."
  match loadConfig path file with
  | .ok config => { lines := [start, "Configuration is valid!"] ++ Report.summary config }
  | .error failure =>
    { lines := [start, s!"Configuration is invalid: {failure.inline}"], status := 1 }

/-- Write the example configuration unless there is one; the file afterwards comes with the
outcome. -/
def writeExample (file : FileContent) : Outcome × FileContent :=
  match file with
  | some bytes => ({ lines := [s!"{defaultConfigPath} already exists. Not overwriting."] }, some bytes)
  | none =>
    ({ lines := [s!"Created {defaultConfigPath} with example configuration."] },
      some exampleConfig.toUTF8)

/-- A replay that is ready to run, with the names of its channels and its trace. -/
structure PreparedReplay where
  replay : Replay
  names : List String
  trace : Trace

/-- Read the files of a replay and start it. -/
def prepareReplay (configPath : String) (configFile : FileContent) (tracePath : String)
    (traceFile : FileContent) : Except Failure PreparedReplay := do
  let config ← loadConfig configPath configFile
  let trace ← loadTrace tracePath traceFile
  let replay ← (Replay.start config trace).mapError fun error => Failure.ofChain error.chain
  return { replay, names := replay.engine.names, trace }

/-- The failure of arithmetic that left its width. -/
def Fault.failure (_ : Fault) : Failure := { message := "arithmetic fault" }

def replay [Elementary] (json : Bool) (configPath : String) (configFile : FileContent)
    (tracePath : String) (traceFile : FileContent) : Outcome :=
  match prepareReplay configPath configFile tracePath traceFile with
  | .error failure => .failed failure
  | .ok p =>
    match p.replay.run p.trace.tickBound with
    | .error fault => .failed fault.failure
    | .ok ticks => { lines := ticks.flatMap (Report.tickLines json p.names) }

end SensorEvents

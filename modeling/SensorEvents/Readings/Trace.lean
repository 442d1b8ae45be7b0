import SensorEvents.Fault
import SensorEvents.Text.Blank

/-!
# Recorded traces

A trace is a text with one row a line: a time and at least one reading, separated by commas or
white space. Empty lines, lines of separators only and lines that begin with `#` are no rows. All
rows have as many readings as the first, and times do not go back. A text that breaks a rule is
refused with its first offending line.
-/
namespace SensorEvents

/-- Why a text is no trace. Lines are counted from one. -/
inductive TraceError where
  | number (line : Nat) (token : String)
  | missingSamples (line : Nat)
  | columns (line expected got : Nat)
  | timestamp (line time previous : Nat)
  | empty
  deriving DecidableEq, Repr

def TraceError.message : TraceError → String
  | number line token => s!"line {line}: invalid number '{token}'"
  | missingSamples line => s!"line {line}: expected a timestamp followed by at least one sample"
  | columns line expected got => s!"line {line}: expected {expected} sample columns, got {got}"
  | timestamp line time previous =>
    s!"line {line}: timestamp {time} is earlier than the previous row ({previous})"
  | empty => "trace contains no samples"

structure TraceRow where
  time : Nat
  values : List Nat
  deriving DecidableEq, Repr

/-- A recording: a first row and the rows after it. -/
structure Trace where
  first : TraceRow
  later : List TraceRow
  deriving DecidableEq, Repr

namespace Trace

def rows (t : Trace) : List TraceRow := t.first :: t.later

def columns (t : Trace) : Nat := t.first.values.length

def last (t : Trace) : TraceRow := t.later.getLast?.getD t.first

/-- The time between the first row and the last. -/
def duration (t : Trace) : Nat := t.last.time - t.first.time

def tokens (line : List Char) : List (List Char) :=
  Text.wordsBy (fun c => c = ',' || Text.isBlank c) line

/-- Whether a line is a comment, white space in front of it apart. -/
def isComment (line : List Char) : Bool := (line.dropWhile Text.isBlank).head? = some '#'

/-- The number that a word on line `line` stands for. -/
def number (limit line : Nat) (token : List Char) : Except TraceError Nat :=
  match Text.unsigned? limit token with
  | some n => .ok n
  | none => .error (.number line (String.ofList token))

/-- The row on line `line`, given the first row and the row before, if there are any; `none` when
the line holds no row. -/
def readRow (line : Nat) (content : List Char) (first previous : Option TraceRow) :
    Except TraceError (Option TraceRow) :=
  if isComment content then
    .ok none
  else
    match tokens content with
    | [] => .ok none
    | timeToken :: sampleTokens => do
      let time ← number Checked.max64 line timeToken
      let values ← sampleTokens.mapM (number Checked.max32 line)
      if values.isEmpty then
        throw (.missingSamples line)
      if let some row := first then
        if values.length ≠ row.values.length then
          throw (.columns line row.values.length values.length)
      if let some row := previous then
        if time < row.time then
          throw (.timestamp line time row.time)
      return some { time, values }

/-- The rows of the lines from `line` on. -/
def readRows (line : Nat) (first previous : Option TraceRow) :
    List (List Char) → Except TraceError (List TraceRow)
  | [] => .ok []
  | content :: contents => do
    match ← readRow line content first previous with
    | none => readRows (line + 1) first previous contents
    | some row =>
      let rows ← readRows (line + 1) (first <|> some row) (some row) contents
      return row :: rows

def ofText (text : String) : Except TraceError Trace := do
  match ← readRows 1 none none (Text.lines text.toList) with
  | [] => throw .empty
  | first :: later => return { first, later }

end Trace

end SensorEvents

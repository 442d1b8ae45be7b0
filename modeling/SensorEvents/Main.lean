import SensorEvents.CommandLine

/-!
# The program

Reading files, sleeping and printing around the commands. MIDI ports belong to the machine, and
here there are none, so a replay that is to send MIDI stops before its first tick.
-/
open SensorEvents

/-- What a path leads to; what cannot be opened is taken as missing. -/
def readFile (path : String) : IO FileContent := do
  try
    return some (← IO.FS.readBinFile path)
  catch _ =>
    return none

/-- Print the lines of an outcome and end as it says. -/
def finish (o : Outcome) : IO UInt32 := do
  IO.print o.output
  if let some failure := o.failure then
    IO.eprint failure.report
  return o.status.toUInt32

/-- Sleep until a time of the replay, counted from its first tick. -/
def waitFor (started first time : Nat) : IO Unit := do
  let elapsed := (← IO.monoMsNow) - started
  let target := time - first
  if elapsed < target then
    IO.sleep (target - elapsed).toUInt32

/-- Run the ticks of a replay one by one at their times. -/
def runAtSpeed [Elementary] (json : Bool) (p : PreparedReplay) (started : Nat) :
    Nat → Replay → IO UInt32
  | 0, _ => return 0
  | count + 1, r => do
    if let some time := r.ticks.next then
      waitFor started p.trace.first.time time
    match r.step? with
    | .error fault => finish (.failed fault.failure)
    | .ok none => return 0
    | .ok (some (tick, r)) =>
      for line in Report.tickLines json p.names tick do
        IO.println line
      (← IO.getStdout).flush
      runAtSpeed json p started count r

def runReplay [Elementary] (tracePath : String) (o : ReplayOptions) : IO UInt32 := do
  let configFile ← readFile o.config
  let traceFile ← readFile tracePath
  if o.midi || o.realtime then
    match prepareReplay o.config configFile tracePath traceFile with
    | .error failure => finish (.failed failure)
    | .ok p =>
      if o.midi then
        finish (.failed { message := noPorts })
      else
        runAtSpeed o.json p (← IO.monoMsNow) p.trace.tickBound p.replay
  else
    finish (replay o.json o.config configFile tracePath traceFile)

def main (arguments : List String) : IO UInt32 := do
  let _ : Elementary := Elementary.linked
  match CommandLine.ofArguments? arguments with
  | none =>
    IO.eprint CommandLine.usage
    return 2
  | some (.check path) => finish (check path (← readFile path))
  | some .writeExample =>
    let before ← readFile defaultConfigPath
    let (outcome, after) := writeExample before
    if before.isNone then
      if let some bytes := after then
        IO.FS.writeBinFile defaultConfigPath bytes
    finish outcome
  | some .ports =>
    IO.println (noPorts ++ ".")
    return 0
  | some (.replay trace options) => runReplay trace options

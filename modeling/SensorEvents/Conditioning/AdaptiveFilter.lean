import SensorEvents.Conditioning.FilterParams
import SensorEvents.Readings.Source

/-!
# The adaptive filter

A drifting reading becomes a steady value of fixed precision. The filter smooths the readings,
measures how far they are above a baseline that follows slowly, and scales that distance to the
output range. While the distance is at or above the freeze threshold the baseline stays, so that a
touch that lasts is not taken for drift.
-/
namespace SensorEvents

structure FilterState where
  raw : Float32 := 0
  smoothed : Float32 := 0
  baseline : Float32 := 0
  delta : Float32 := 0
  mappedSmoothed : Float32 := 0
  lastOutput : Nat := 0
  lastUpdate : Nat := 0

namespace FilterState

/-- The state in which a reading is the resting one. -/
def resting (reading : Nat) (lastUpdate : Nat) : FilterState :=
  let seed := Single.ofNat reading
  { raw := seed, smoothed := seed, baseline := seed, lastUpdate }

/-- The mean of `old` and `new` in which `new` has the given weight. -/
def blend (old new weight : Float32) : Float32 := old * (1 - weight) + new * weight

def smooth (p : FilterParams) (s : FilterState) : FilterState :=
  { s with smoothed := blend s.smoothed s.raw p.smoothing }

def measure (s : FilterState) : FilterState :=
  { s with delta := Single.larger (s.smoothed - s.baseline) 0 }

/-- The baseline follows unless the distance has reached the freeze threshold. -/
def track (p : FilterParams) (s : FilterState) : FilterState :=
  if s.delta < p.freezeThreshold then
    { s with baseline := blend s.baseline s.smoothed p.baselineRate }
  else
    s

/-- The distance as a share of full scale, reshaped by the curve. -/
def curved [Elementary] (p : FilterParams) (s : FilterState) : Float32 :=
  p.curve.apply (Single.limit (s.delta / p.deltaMax) 0 1)

def project [Elementary] (p : FilterParams) (s : FilterState) : FilterState :=
  let fullScale := BitDepth.largest p.precision
  let mapped := s.curved p * Single.ofNat fullScale
  let mappedSmoothed := blend s.mappedSmoothed mapped p.outputSmoothing
  { s with mappedSmoothed, lastOutput := Single.nearestNat mappedSmoothed fullScale }

def evaluate [Elementary] (p : FilterParams) (s : FilterState) : FilterState :=
  (((s.smooth p).measure).track p).project p

end FilterState

structure AdaptiveFilter (σ : Type) where
  source : σ
  params : FilterParams
  state : FilterState := {}
  seeded : Bool := false

namespace AdaptiveFilter

variable {σ : Type} [Source σ]

def build (source : σ) (params : FilterParams) : Accepted (AdaptiveFilter σ) := do
  params.validate
  return { source, params }

/-- Take one reading as the resting one and forget all else. -/
def seed (f : AdaptiveFilter σ) : AdaptiveFilter σ :=
  let (reading, source) := Source.read f.source
  { f with source, state := .resting reading 0, seeded := true }

/-- Take one reading as the resting one and keep the time of the last poll. -/
def resetBaseline (f : AdaptiveFilter σ) : AdaptiveFilter σ :=
  if f.seeded then
    let (reading, source) := Source.read f.source
    { f with source, state := .resting reading f.state.lastUpdate }
  else
    f.seed

def isDue (f : AdaptiveFilter σ) (now : Nat) : Bool :=
  now - f.state.lastUpdate ≥ f.params.pollInterval

def evaluate [Elementary] (f : AdaptiveFilter σ) : AdaptiveFilter σ :=
  { f with state := f.state.evaluate f.params }

/-- Read and evaluate if a poll is due, and say whether the output changed. A filter that was
never seeded is seeded first. -/
def poll [Elementary] (f : AdaptiveFilter σ) (now : Nat) : Bool × AdaptiveFilter σ :=
  let f := if f.seeded then f else f.seed
  if f.isDue now then
    let (reading, source) := Source.read f.source
    let next :=
      evaluate { f with source, state := { f.state with lastUpdate := now, raw := Single.ofNat reading } }
    (next.state.lastOutput ≠ f.state.lastOutput, next)
  else
    (false, f)

def value (f : AdaptiveFilter σ) : Nat := f.state.lastOutput

def setPollInterval (f : AdaptiveFilter σ) (interval : Nat) : AdaptiveFilter σ :=
  { f with params := { f.params with pollInterval := interval } }

def setFreezeThreshold (f : AdaptiveFilter σ) (threshold : Float32) : AdaptiveFilter σ :=
  { f with params := f.params.withFreezeThreshold threshold }

def setDeltaMax (f : AdaptiveFilter σ) (deltaMax : Float32) : AdaptiveFilter σ :=
  { f with params := f.params.withDeltaMax deltaMax }

def setCurve (f : AdaptiveFilter σ) (curve : ResponseCurve) : AdaptiveFilter σ :=
  { f with params := f.params.withCurve curve }

end AdaptiveFilter

end SensorEvents

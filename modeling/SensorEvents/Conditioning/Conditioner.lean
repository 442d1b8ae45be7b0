import SensorEvents.Conditioning.AdaptiveFilter
import SensorEvents.Conditioning.DirectReader

/-!
# Conditioners

The first stage of a channel: an adaptive filter for a sensor that drifts, a direct reader for one
that does not. A poll answers `none` when its interval has not passed, and otherwise whether the
value changed.
-/
namespace SensorEvents

/-- How the readings of a channel are conditioned. -/
inductive ConditionerConfig where
  | adaptive (params : FilterParams)
  | direct (params : DirectParams)

namespace ConditionerConfig

def label : ConditionerConfig → String
  | adaptive _ => "adaptive"
  | direct _ => "direct"

def validate : ConditionerConfig → Accepted Unit
  | adaptive params => params.validate
  | direct params => params.validate

def precision : ConditionerConfig → Nat
  | adaptive params => params.precision
  | direct params => params.precision

end ConditionerConfig

inductive Conditioner (σ : Type) where
  | adaptive (filter : AdaptiveFilter σ)
  | direct (reader : DirectReader σ)

/-- The conditioner of a configuration, reading from `source`. -/
def ConditionerConfig.build {σ : Type} (config : ConditionerConfig) (source : σ) [Source σ] :
    Accepted (Conditioner σ) :=
  match config with
  | adaptive params => .adaptive <$> AdaptiveFilter.build source params
  | direct params => .direct <$> DirectReader.build source params

namespace Conditioner

variable {σ : Type} [Source σ]

/-- Start from the sensor at rest. A direct reader has nothing to start. -/
def begin : Conditioner σ → Conditioner σ
  | adaptive filter => adaptive filter.seed
  | direct reader => direct reader

/-- Take the baseline anew. A direct reader has none. -/
def resetBaseline : Conditioner σ → Conditioner σ
  | adaptive filter => adaptive filter.resetBaseline
  | direct reader => direct reader

def poll [Elementary] (c : Conditioner σ) (now : Nat) :
    Checked (Option Bool × Conditioner σ) :=
  match c with
  | adaptive filter =>
    let due := filter.isDue now
    let (changed, filter) := filter.poll now
    .ok (if due then some changed else none, adaptive filter)
  | direct reader => do
    let due := reader.isDue now
    let (changed, reader) ← reader.poll now
    return (if due then some changed else none, direct reader)

def value : Conditioner σ → Nat
  | adaptive filter => filter.value
  | direct reader => reader.value

def rawValue : Conditioner σ → Float32
  | adaptive filter => filter.state.raw
  | direct reader => Single.ofNat reader.raw

def precision : Conditioner σ → Nat
  | adaptive filter => filter.params.precision
  | direct reader => reader.params.precision

def setPollInterval (c : Conditioner σ) (interval : Nat) : Conditioner σ :=
  match c with
  | adaptive filter => adaptive (filter.setPollInterval interval)
  | direct reader => direct (reader.setPollInterval interval)

def mapSource (f : σ → σ) : Conditioner σ → Conditioner σ
  | adaptive filter => adaptive { filter with source := f filter.source }
  | direct reader => direct { reader with source := f reader.source }

end Conditioner

end SensorEvents

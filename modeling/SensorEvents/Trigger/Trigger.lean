import SensorEvents.Trigger.ContinuousTrigger
import SensorEvents.Trigger.PressureTrigger
import SensorEvents.Trigger.ThresholdTrigger
import SensorEvents.Trigger.VelocityTrigger

/-!
# Triggers

Each channel has one trigger of one of four kinds, chosen by its configuration.
-/
namespace SensorEvents

inductive TriggerConfig where
  | velocity (config : VelocityConfig)
  | threshold (config : ThresholdConfig)
  | pressure (config : PressureConfig)
  | continuous (config : ContinuousConfig)

inductive Trigger where
  | velocity (trigger : VelocityTrigger)
  | threshold (trigger : ThresholdTrigger)
  | pressure (trigger : PressureTrigger)
  | continuous (trigger : ContinuousTrigger)

namespace TriggerConfig

def label : TriggerConfig → String
  | velocity _ => "velocity"
  | threshold _ => "threshold"
  | pressure _ => "pressure"
  | continuous _ => "continuous"

def validate : TriggerConfig → Accepted Unit
  | velocity config => config.validate
  | threshold config => config.validate
  | pressure config => config.validate
  | continuous config => config.validate

def build : TriggerConfig → Accepted Trigger
  | velocity config => .velocity <$> VelocityTrigger.build config
  | threshold config => .threshold <$> ThresholdTrigger.build config
  | pressure config => .pressure <$> PressureTrigger.build config
  | continuous config => .continuous <$> ContinuousTrigger.build config

end TriggerConfig

namespace Trigger

def config : Trigger → TriggerConfig
  | velocity t => .velocity t.config
  | threshold t => .threshold t.config
  | pressure t => .pressure t.config
  | continuous t => .continuous t.config

def evaluate (t : Trigger) (value now : Nat) : Checked (Trigger × Emitted) :=
  match t with
  | velocity t => do let (t, emitted) ← t.evaluate value now; return (velocity t, emitted)
  | threshold t => do let (t, emitted) ← t.evaluate value now; return (threshold t, emitted)
  | pressure t => do let (t, emitted) ← t.evaluate value now; return (pressure t, emitted)
  | continuous t => do let (t, emitted) ← t.evaluate value; return (continuous t, emitted)

/-- Whether a note or gate is held. A continuous trigger has none. -/
def isOn : Trigger → Bool
  | velocity t => t.isOn
  | threshold t => t.isOn
  | pressure t => t.isOn
  | continuous _ => false

def reset : Trigger → Trigger
  | velocity t => velocity t.reset
  | threshold t => threshold t.reset
  | pressure t => pressure t.reset
  | continuous t => continuous t.reset

end Trigger

end SensorEvents

/-!
# The example configuration

The text of a configuration that shows each kind of trigger at work.
-/
namespace SensorEvents

def exampleConfig : String := "# sensemidi example configuration
#
# Each channel reads one trace column (or sensor), conditions it, and turns
# it into MIDI. Thresholds are in the trigger's 0..=127 input domain unless
# an `input` range remaps them.

# Engine tick period in milliseconds
tick_ms: 1

midi:
  # Substring of the output port name; omit to use the first port
  port: null

channels:
  # Capacitive touch pad: drifting baseline, velocity from press speed
  - name: touch_pad
    conditioning:
      kind: adaptive
      precision: 7
      poll_interval_ms: 5
      smoothing: 0.05
      baseline_rate: 0.01
      baseline_freeze_threshold: 100
      delta_max: 4000
      curve:
        kind: power
        gamma: 1.0
      output_smoothing: 0.2
    hysteresis_bits: 1
    trigger:
      kind: velocity
      min_note_threshold: 40
      trigger_value: 52
      debounce_ms: 2
      velocity:
        min_physical: 0.01
        max_physical: 1.0
    output:
      kind: note
      channel: 0
      note: 60

  # Ultrasonic distance in cm: closer means louder
  - name: distance
    valid_below: 1000
    conditioning:
      kind: direct
      input_bits: 10
      precision: 10
      poll_interval_ms: 20
    hysteresis_bits: 2
    trigger:
      kind: continuous
      input:
        min_input: 5
        max_input: 120
        invert: true
    output:
      kind: control_change
      channel: 0
      controller: 7

  # Force-sensitive pad: note plus polyphonic aftertouch
  - name: pressure_pad
    conditioning:
      kind: adaptive
      poll_interval_ms: 10
      smoothing: 0.2
      delta_max: 3000
    trigger:
      kind: pressure
      min_note_threshold: 20
      trigger_value: 40
      on_velocity: 100
    output:
      kind: note
      channel: 0
      note: 62

  # Linear potentiometer as a 14-bit pitch bend
  - name: bend_strip
    conditioning:
      kind: direct
      input_bits: 12
      precision: 14
    trigger:
      kind: continuous
      input:
        output_max: 16383
    output:
      kind: pitch_bend
      channel: 0
"

end SensorEvents

import SensorEvents.Proofs.Midi.Table
import SensorEvents.Proofs.Session.Run
import SensorEvents.Readings.Source

/-!
# Polling never faults

Every number that a run computes was bounded when the configuration was accepted. The bounds are
established far from where they are used: by the checks of the settings, by the quantizer about its
own level, by the order of the numbers of single precision. The statement gathers them for whole
runs, from the readings to the entries of the tables of a sink.
-/
namespace SensorEvents

/-- The bounds of the clamps that have fixed ones are numbers, and in order. -/
theorem Single.fixedBounds_ordered (bits : Nat) :
    (0 : Float32) ≤ 1 ∧ (0 : Float32) ≤ Single.ofNat (BitDepth.largest bits) :=
  ⟨Single.zero_le_one, Single.zero_le_ofNat (by have := BitDepth.largest_lt bits; omega)⟩

namespace Session

/-- A session of an accepted configuration starts, and no call of it faults, whatever the sensors
read and the clock shows. Every event is delivered with the amount that its trigger reported, and
the tables of the sink take all of them, in range, and send what the session sent. -/
theorem run_never_faults [Elementary] {σ : Type} [Source σ] {c : SensorConfig}
    (hv : c.validate = .ok ()) (hf : c.Fits) (clock : Clock) (source : Nat → σ)
    (calls : List SessionCall) :
    ∃ s s' deliveries, Session.start c clock source = .ok s ∧
      s.run calls = .ok (s', deliveries) ∧
      (∀ events ∈ deliveries, events.length ≤ 2 * c.channels.length ∧
        ∀ e ∈ events, e.event.intensity = e.event.amount) ∧
      (∃ table table', c.bindTable = .ok table ∧
        table.receiveAll deliveries.flatten = .ok (table', s'.sent) ∧
        table'.bindings.length = table'.held.length) ∧
      ∀ bits, (0 : Float32) ≤ 1 ∧ (0 : Float32) ≤ Single.ofNat (BitDepth.largest bits) := by
  obtain ⟨s, hstart, hsound, hsize, -, hsink, hsent⟩ := start_eq_ok hv hf clock source
  obtain ⟨s', deliveries, hrun, hreached, heach⟩ := run_eq_ok hsound calls
  obtain ⟨table, hbind, hrepresents⟩ := c.bindTable_eq_ok
  obtain ⟨table', hreceive, hrepresents'⟩ := hrepresents.receiveAll deliveries.flatten
  refine ⟨s, s', deliveries, hstart, hrun, ?_, ⟨table, table', hbind, ?_, ?_⟩,
    Single.fixedBounds_ordered⟩
  · rwa [hsize] at heach
  · rw [hreceive, hreached.sent, hsent, hsink, List.nil_append]
  · exact hrepresents'.length_eq.symm

end Session

/-- A touch pad with a velocity, and a lever that is turned upside down and quantized. -/
def padAndLever : SensorConfig where
  channels :=
    [{ name := "pad"
       trigger := .velocity
         { minNote := 40, trigger := 60, velocity := { minPhysical := 0.5, maxPhysical := 2 } }
       output := .note 0 60 },
     { name := "lever"
       conditioning := .direct { inputBits := 10, precision := 10 }
       hysteresisBits := some 2
       trigger := .threshold
         { threshold := 30
           hysteresis := 2
           input := { minInput := some 5, maxInput := some 1020, invert := true } }
       output := .controlChange 0 7 }]

theorem padAndLever_accepted : padAndLever.validate = .ok () :=
  Checked.eq_ok_of_isOk (by decide +kernel)

theorem padAndLever_fits : padAndLever.Fits := by decide

theorem padAndLever_never_faults :
    padAndLever.validate = .ok () ∧ padAndLever.Fits ∧
      ∃ (s s' : Session Scripted) (deliveries : List (List ChannelEvent)),
        Session.start padAndLever {} (fun column => Scripted.ofList [100 * column, 2400, 900]) =
          .ok s ∧
        letI := Elementary.linked
        s.run [.begin, .tick 60, .tick 20, .resetBaselines, .tick 400] = .ok (s', deliveries) :=
  letI := Elementary.linked
  have ⟨s, s', deliveries, hstart, hrun, _⟩ := Session.run_never_faults padAndLever_accepted
    padAndLever_fits {} (fun column => Scripted.ofList [100 * column, 2400, 900])
    [.begin, .tick 60, .tick 20, .resetBaselines, .tick 400]
  ⟨padAndLever_accepted, padAndLever_fits, s, s', deliveries, hstart, hrun⟩

end SensorEvents

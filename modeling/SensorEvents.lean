import SensorEvents.Config.Writing
import SensorEvents.EventLog
import SensorEvents.Json.Document
import SensorEvents.Json.Writing
import SensorEvents.Main
import SensorEvents.Session
import SensorEvents.Proofs.Scaling.Rescaling
import SensorEvents.Proofs.Conditioning.Tuning
import SensorEvents.Proofs.Session.Faultless
import SensorEvents.Proofs.Session.Notes
import SensorEvents.Proofs.Trigger.Audible
import SensorEvents.Proofs.Trigger.Settings
import SensorEvents.Proofs.Trigger.Band
import SensorEvents.Proofs.Trigger.Pressure
import SensorEvents.Proofs.Trigger.Termination
import SensorEvents.Proofs.Midi.Rebinding
import SensorEvents.Proofs.Channel.Insertion
import SensorEvents.Proofs.Channel.Restart
import SensorEvents.Proofs.Channel.Accuracy
import SensorEvents.Proofs.Midi.Encoding
import SensorEvents.Proofs.Midi.Player
import SensorEvents.Proofs.Engine.Independence
import SensorEvents.Proofs.Readings.Layout
import SensorEvents.Proofs.Replay.Course
import SensorEvents.Proofs.Conditioning.Steadiness
import SensorEvents.Proofs.Conditioning.Freezing
import SensorEvents.Proofs.Trigger.Stream
import SensorEvents.Proofs.Scaling.Speed

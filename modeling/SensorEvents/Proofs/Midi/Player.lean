import Mathlib
import SensorEvents.Midi.Player

/-!
# What a player delivers

The caller of a player and its writer proceed side by side. The caller sends, or asks for a stop and
is then held until the writer is gone, also when it gives the player up; the writer takes one
command whenever it gets to it. A playback is one interleaving of the two, one step after another.

The messages that were accepted are at every moment those offered to the port followed by those
still queued. A stop is queued behind them all, so the writer is gone only when nothing is left.
-/
namespace SensorEvents

namespace MidiPlayer

variable {p : MidiPlayer}

theorem work_of_closed (h : p.running = false) : p.work = p := by
  simp [work, h]

theorem workFor_of_closed (h : p.running = false) (n : Nat) : p.workFor n = p := by
  induction n with
  | zero => rfl
  | succ n ih => rw [workFor, work_of_closed h, ih]

theorem send_of_closed (h : p.running = false) (message : MidiMessage) :
    p.send message = .error .closed := by
  simp [send, h]

theorem askStop_of_closed (h : p.running = false) : p.askStop = p := by
  simp [askStop, h]

theorem stop_of_closed (h : p.running = false) : p.stop = p := by
  rw [stop, askStop_of_closed h, workFor_of_closed h]

theorem workFor_add (p : MidiPlayer) (m n : Nat) :
    p.workFor (m + n) = (p.workFor m).workFor n := by
  induction m generalizing p with
  | zero => rw [Nat.zero_add, workFor]
  | succ m ih => rw [Nat.succ_add, workFor, workFor, ih]

/-- A writer that has a stop in its queue is gone once it has gone through the queue. -/
theorem workFor_closes {p : MidiPlayer} (h : .stop ∈ p.queue) :
    (p.workFor p.queue.length).running = false := by
  cases hrun : p.running with
  | false => rwa [workFor_of_closed hrun]
  | true =>
    generalize hqueue : p.queue = queue at h
    induction queue generalizing p with
    | nil => cases h
    | cons command queue ih =>
      cases command with
      | send message =>
        have hwork : p.work = { p with port := p.port.write message, queue } := by
          simp [work, hrun, hqueue]
        rw [List.length_cons, workFor, hwork]
        exact ih hrun rfl (by simpa using h)
      | stop =>
        have hwork : p.work = { p with queue := [], running := false } := by
          simp [work, hrun, hqueue]
        rw [List.length_cons, workFor, hwork, workFor_of_closed rfl]

theorem workFor_eq_of_closed {m n : Nat} (hm : (p.workFor m).running = false)
    (hn : (p.workFor n).running = false) : p.workFor m = p.workFor n := by
  rw [← workFor_of_closed hm n, ← workFor_add, Nat.add_comm, workFor_add, workFor_of_closed hn m]

theorem running_stop (p : MidiPlayer) : p.stop.running = false := by
  cases hrun : p.running with
  | false => rwa [stop_of_closed hrun]
  | true =>
    have hask : p.askStop = { p with queue := p.queue ++ [.stop] } := by simp [askStop, hrun]
    have hlen : p.queue.length + 1 = p.askStop.queue.length := by simp [hask]
    rw [stop, hlen]
    exact workFor_closes (by simp [hask])

end MidiPlayer

inductive PlaybackStep where
  | send (message : MidiMessage)
  | askStop
  /-- The writer takes its next command. -/
  | work
  /-- The caller is let go, the writer being gone. -/
  | comeBack
  deriving DecidableEq, Repr

/-- A player between a caller and its writer, with the messages whose sending succeeded. While the
caller waits for a stop it makes no other call. -/
structure Playback where
  player : MidiPlayer
  accepted : List MidiMessage := []
  waiting : Bool := false

namespace Playback

def start (name : String) (refuses : Nat → Bool) : Playback :=
  { player := .spawn name { refuses } }

def send (s : Playback) (message : MidiMessage) : Playback :=
  match s.player.send message with
  | .ok player => { s with player, accepted := s.accepted ++ [message] }
  | .error _ => s

/-- One step, if it can be taken. -/
def step? (s : Playback) : PlaybackStep → Option Playback
  | .send message => if s.waiting then none else some (s.send message)
  | .askStop =>
    if s.waiting then none else some { s with player := s.player.askStop, waiting := true }
  | .work => some { s with player := s.player.work }
  | .comeBack =>
    if s.waiting && !s.player.running then some { s with waiting := false } else none

def run? (s : Playback) : List PlaybackStep → Option Playback
  | [] => some s
  | step :: steps => (s.step? step).bind fun s' => s'.run? steps

theorem run?_append (s : Playback) (steps later : List PlaybackStep) :
    s.run? (steps ++ later) = (s.run? steps).bind fun s' => s'.run? later := by
  induction steps generalizing s with
  | nil => rfl
  | cons step steps ih =>
    simp only [List.cons_append, run?, Option.bind_assoc]
    exact congrArg _ (funext ih)

theorem run?_cons {s s'' : Playback} {step : PlaybackStep} {steps : List PlaybackStep} :
    s.run? (step :: steps) = some s'' ↔ ∃ s', s.step? step = some s' ∧ s'.run? steps = some s'' := by
  rw [run?, Option.bind_eq_some_iff]

theorem run?_work (s : Playback) (n : Nat) :
    s.run? (.replicate n .work) = some { s with player := s.player.workFor n } := by
  induction n generalizing s with
  | zero => rfl
  | succ n ih => rw [List.replicate_succ, run?, step?, Option.bind_some, ih, MidiPlayer.workFor]

/-- What steps preserve: `pending` are the accepted messages that the writer has not come to, and a
stop that is waited for is behind them. -/
structure Carries (s : Playback) (pending : List MidiMessage) : Prop where
  accepted : s.accepted.map MidiMessage.bytes =
    s.player.port.offered ++ pending.map MidiMessage.bytes
  queue : s.player.queue = pending.map .send ++
    if s.waiting && s.player.running then [.stop] else []
  closed : s.player.running = false → pending = []

theorem carries_start (name : String) (refuses : Nat → Bool) : (start name refuses).Carries [] :=
  ⟨rfl, rfl, fun _ => rfl⟩

namespace Carries

variable {s s' : Playback} {pending : List MidiMessage}

theorem send (h : s.Carries pending) (hfree : s.waiting = false) (message : MidiMessage) :
    ∃ later, (s.send message).Carries later := by
  cases hrun : s.player.running with
  | false => exact ⟨pending, by simpa [Playback.send, MidiPlayer.send_of_closed hrun] using h⟩
  | true =>
    refine ⟨pending ++ [message], ?_, ?_, ?_⟩
    · simp [Playback.send, MidiPlayer.send, hrun, h.accepted]
    · simp [Playback.send, MidiPlayer.send, hrun, h.queue, hfree]
    · simp [Playback.send, MidiPlayer.send, hrun]

theorem askStop (h : s.Carries pending) (hfree : s.waiting = false) :
    ({ s with player := s.player.askStop, waiting := true } : Playback).Carries pending := by
  cases hrun : s.player.running with
  | false =>
    rw [MidiPlayer.askStop_of_closed hrun]
    exact ⟨h.accepted, by simpa [hrun, hfree] using h.queue, h.closed⟩
  | true =>
    refine ⟨?_, ?_, ?_⟩
    · simp [MidiPlayer.askStop, hrun, h.accepted]
    · simp [MidiPlayer.askStop, hrun, h.queue, hfree]
    · simp [MidiPlayer.askStop, hrun]

theorem work (h : s.Carries pending) :
    ∃ later, ({ s with player := s.player.work } : Playback).Carries later := by
  cases hrun : s.player.running with
  | false => exact ⟨pending, by rwa [MidiPlayer.work_of_closed hrun]⟩
  | true =>
    cases pending with
    | cons message later =>
      have hqueue := h.queue
      rw [List.map_cons, List.cons_append] at hqueue
      refine ⟨later, ?_, ?_, ?_⟩
      · simp [MidiPlayer.work, hrun, hqueue, MidiPort.write, h.accepted]
      · simp [MidiPlayer.work, hrun, hqueue]
      · simp [MidiPlayer.work, hrun, hqueue]
    | nil =>
      have haccepted := h.accepted
      have hqueue := h.queue
      refine ⟨[], ?_⟩
      -- Nothing is pending: either the writer idles or it takes the stop.
      cases hwait : s.waiting with
      | false =>
        rw [show s.player.work = s.player by simp [MidiPlayer.work, hrun, hqueue, hwait]]
        exact ⟨haccepted, by simpa [hwait] using hqueue, fun _ => rfl⟩
      | true =>
        have hwork : s.player.work = { s.player with queue := [], running := false } := by
          simp [MidiPlayer.work, hrun, hqueue, hwait]
        exact ⟨by rw [hwork]; exact haccepted, by simp [hwork], fun _ => rfl⟩

theorem step (h : s.Carries pending) {step : PlaybackStep} (hstep : s.step? step = some s') :
    ∃ later, s'.Carries later := by
  cases step with
  | send message =>
    obtain ⟨hfree, rfl⟩ : s.waiting = false ∧ s.send message = s' := by
      simpa [step?] using hstep
    exact h.send hfree message
  | askStop =>
    obtain ⟨hfree, rfl⟩ : s.waiting = false ∧ _ = s' := by simpa [step?] using hstep
    exact ⟨pending, h.askStop hfree⟩
  | work =>
    obtain rfl : _ = s' := by simpa [step?] using hstep
    exact h.work
  | comeBack =>
    obtain ⟨⟨hwait, hrun⟩, rfl⟩ : (s.waiting = true ∧ s.player.running = false) ∧ _ = s' := by
      simpa [step?] using hstep
    exact ⟨pending, h.accepted, by simpa [hrun] using h.queue, h.closed⟩

theorem run (h : s.Carries pending) {steps : List PlaybackStep} (hrun : s.run? steps = some s') :
    ∃ later, s'.Carries later := by
  induction steps generalizing s pending with
  | nil => exact ⟨pending, Option.some.inj hrun ▸ h⟩
  | cons step steps ih =>
    obtain ⟨mid, hstep, hrest⟩ := run?_cons.mp hrun
    obtain ⟨later, hlater⟩ := h.step hstep
    exact ih hlater hrest

/-- Without a stop the writer stays. -/
theorem step_open (h : s.Carries pending) {step : PlaybackStep} (hstep : s.step? step = some s')
    (hne : step ≠ .askStop) (hopen : s.waiting = false ∧ s.player.running = true) :
    s'.waiting = false ∧ s'.player.running = true := by
  obtain ⟨hfree, hrun⟩ := hopen
  cases step with
  | send message =>
    obtain rfl : s.send message = s' := by simpa [step?, hfree] using hstep
    simp [Playback.send, MidiPlayer.send, hrun, hfree]
  | askStop => exact absurd rfl hne
  | work =>
    obtain rfl : _ = s' := by simpa [step?] using hstep
    refine ⟨hfree, ?_⟩
    have hqueue := h.queue
    cases pending <;> simp [MidiPlayer.work, hrun, hqueue, hfree]
  | comeBack => simp [step?, hfree] at hstep

theorem run_open (h : s.Carries pending) {steps : List PlaybackStep}
    (hrun : s.run? steps = some s') (hne : .askStop ∉ steps)
    (hopen : s.waiting = false ∧ s.player.running = true) :
    s'.waiting = false ∧ s'.player.running = true := by
  induction steps generalizing s pending with
  | nil => exact Option.some.inj hrun ▸ hopen
  | cons step steps ih =>
    obtain ⟨mid, hstep, hrest⟩ := run?_cons.mp hrun
    rw [List.mem_cons, not_or] at hne
    obtain ⟨later, hlater⟩ := h.step hstep
    exact ih hlater hrest hne.2 (h.step_open hstep (Ne.symm hne.1) hopen)

/-- A caller that waits is let go as soon as the writer has gone through its queue. -/
theorem workFor_closed (h : s.Carries pending) (hwait : s.waiting = true) :
    (s.player.workFor s.player.queue.length).running = false := by
  cases hrun : s.player.running with
  | false => rwa [MidiPlayer.workFor_of_closed hrun]
  | true =>
    refine MidiPlayer.workFor_closes ?_
    rw [h.queue, hwait, hrun]
    exact List.mem_append_right _ (List.mem_singleton.mpr rfl)

end Carries

/-- Once the writer is gone no step changes the player or what it has accepted. -/
theorem run?_of_closed {s s' : Playback} {steps : List PlaybackStep}
    (hclosed : s.player.running = false) (hrun : s.run? steps = some s') :
    s'.player = s.player ∧ s'.accepted = s.accepted := by
  induction steps generalizing s with
  | nil => exact Option.some.inj hrun ▸ ⟨rfl, rfl⟩
  | cons step steps ih =>
    obtain ⟨mid, hstep, hrest⟩ := run?_cons.mp hrun
    have hmid : mid.player = s.player ∧ mid.accepted = s.accepted := by
      cases step with
      | send message =>
        obtain ⟨-, rfl⟩ : _ ∧ s.send message = mid := by simpa [step?] using hstep
        simp [Playback.send, MidiPlayer.send_of_closed hclosed]
      | askStop =>
        obtain ⟨-, rfl⟩ : _ ∧ _ = mid := by simpa [step?] using hstep
        exact ⟨MidiPlayer.askStop_of_closed hclosed, rfl⟩
      | work =>
        obtain rfl : _ = mid := by simpa [step?] using hstep
        exact ⟨MidiPlayer.work_of_closed hclosed, rfl⟩
      | comeBack =>
        obtain ⟨-, rfl⟩ : _ ∧ _ = mid := by simpa [step?] using hstep
        exact ⟨rfl, rfl⟩
    obtain ⟨hplayer, haccepted⟩ := ih (hmid.1 ▸ hclosed) hrest
    exact ⟨hplayer.trans hmid.1, haccepted.trans hmid.2⟩

theorem run?_closed {s s' : Playback} {steps : List PlaybackStep} (hrun : s.run? steps = some s')
    (hback : .comeBack ∈ steps) : s'.player.running = false := by
  induction steps generalizing s with
  | nil => cases hback
  | cons step steps ih =>
    obtain ⟨mid, hstep, hrest⟩ := run?_cons.mp hrun
    rcases List.mem_cons.mp hback with rfl | hlater
    · obtain ⟨⟨-, hclosed⟩, rfl⟩ : (_ ∧ s.player.running = false) ∧ _ = mid := by
        simpa [step?] using hstep
      rw [(run?_of_closed (by exact hclosed) hrest).1]
      exact hclosed
    · exact ih hrest hlater

theorem run?_comeBack {s s' : Playback} {n : Nat} :
    s.run? (.replicate n .work ++ [.comeBack]) = some s' ↔
      s.waiting = true ∧ (s.player.workFor n).running = false ∧
        { s with player := s.player.workFor n, waiting := false } = s' := by
  rw [run?_append, run?_work, Option.bind_some, run?_cons]
  simp [step?, run?, and_assoc]

theorem run?_askStop {s s' : Playback} (hfree : s.waiting = false) (n : Nat) :
    s.run? (.askStop :: (.replicate n .work ++ [.comeBack])) = some s' ↔
      (s.player.askStop.workFor n).running = false ∧
        { s with player := s.player.askStop.workFor n } = s' := by
  have hask : s.step? .askStop = some { s with player := s.player.askStop, waiting := true } := by
    simp [step?, hfree]
  rw [run?, hask, Option.bind_some, run?_comeBack]
  simp [hfree]

/-- However often the writer is scheduled, a stop that returns leaves the player as `stop` does. -/
theorem exists_run?_askStop {s s' : Playback} (hfree : s.waiting = false) :
    (∃ n, s.run? (.askStop :: (.replicate n .work ++ [.comeBack])) = some s') ↔
      s' = { s with player := s.player.stop } := by
  have hdone := s.player.running_stop
  constructor
  · rintro ⟨n, hrun⟩
    obtain ⟨hclosed, rfl⟩ := (run?_askStop hfree n).mp hrun
    rw [MidiPlayer.workFor_eq_of_closed hclosed hdone, MidiPlayer.stop]
  · rintro rfl
    exact ⟨s.player.queue.length + 1, (run?_askStop hfree _).mpr ⟨hdone, rfl⟩⟩

end Playback

/-- A player loses, repeats and reorders nothing, whichever writes fail and however its writer is
scheduled. -/
theorem MidiPlayer.delivers {name : String} {refuses : Nat → Bool} {steps : List PlaybackStep}
    {s : Playback} (hrun : (Playback.start name refuses).run? steps = some s) :
    s.player.port.offered <+: s.accepted.map MidiMessage.bytes ∧
      (.askStop ∉ steps → ∀ message, ∃ p, s.player.send message = .ok p) ∧
      (.comeBack ∈ steps →
        s.player.port.offered = s.accepted.map MidiMessage.bytes ∧
          (∀ message, s.player.send message = .error .closed) ∧ s.player.stop = s.player ∧
          ∀ later s', s.run? later = some s' →
            s'.player = s.player ∧ s'.accepted = s.accepted) ∧
      (s.waiting = true → ∃ n s', s.run? (.replicate n .work ++ [.comeBack]) = some s') ∧
      (s.waiting = false → ∀ s',
        (∃ n, s.run? (.askStop :: (.replicate n .work ++ [.comeBack])) = some s') ↔
          s' = { s with player := s.player.stop }) := by
  obtain ⟨pending, hcarries⟩ := (Playback.carries_start name refuses).run hrun
  refine ⟨⟨_, hcarries.accepted.symm⟩, fun hunasked message => ?_, fun hback => ?_,
    fun hwait => ?_, fun hfree s' => Playback.exists_run?_askStop hfree⟩
  · obtain ⟨-, hopen⟩ :=
      (Playback.carries_start name refuses).run_open hrun hunasked ⟨rfl, rfl⟩
    exact ⟨_, if_pos hopen⟩
  · have hclosed := Playback.run?_closed hrun hback
    have hall := hcarries.accepted
    rw [hcarries.closed hclosed, List.map_nil, List.append_nil] at hall
    exact ⟨hall.symm, send_of_closed hclosed, stop_of_closed hclosed,
      fun later s' => Playback.run?_of_closed hclosed⟩
  · exact ⟨_, _, Playback.run?_comeBack.mpr ⟨hwait, hcarries.workFor_closed hwait, rfl⟩⟩

/-- Two messages wait when the stop is asked for, and one more comes after it. -/
def lateStop : List PlaybackStep :=
  [.send (.noteOn 0 60 100), .work, .send (.keyPressure 0 60 80), .send (.noteOff 0 60 0), .askStop,
    .work, .work, .work, .comeBack, .send (.noteOn 0 62 100), .work, .askStop, .comeBack]

theorem lateStop_delivers :
    ∃ s, (Playback.start "Synth" (· == 1)).run? lateStop = some s ∧
      s.accepted = [.noteOn 0 60 100, .keyPressure 0 60 80, .noteOff 0 60 0] ∧
      s.player.port.offered = s.accepted.map MidiMessage.bytes ∧
      s.player.port.written = [[144, 60, 100], [128, 60, 0]] := by
  have hrun : (Playback.start "Synth" (· == 1)).run? lateStop = some _ := rfl
  exact ⟨_, hrun, rfl, ((MidiPlayer.delivers hrun).2.2.1 (by decide)).1, rfl⟩

end SensorEvents

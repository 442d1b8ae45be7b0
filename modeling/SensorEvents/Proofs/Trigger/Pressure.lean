import SensorEvents.Proofs.Trigger.Shift

/-!
# Pressure as it is heard

A receiver hears of a note that it goes on, which pressures it has and that it goes off; a reset ends
the note as well. What a receiver knows of the note after all it has heard is what the trigger keeps:
whether the note is on, and the pressure that was reported last. So a pressure is reported within a
note only and only if it is a new one, and the receiver is never behind.
-/
namespace SensorEvents

/-- What is to be noticed of a trigger: an event, or that it was reset. -/
inductive Signal where
  | event (event : Event)
  | reset

/-- What the result of a call lets one notice. -/
def TriggerCall.signals (turn : TriggerTurn) : TriggerCall → List Signal
  | reset => [.reset]
  | _ => turn.events.map .event

/-- The trigger after calls made one after the other, and what was to be noticed of them. -/
def Trigger.history (t : Trigger) : List TriggerCall → Checked (Trigger × List Signal)
  | [] => .ok (t, [])
  | call :: calls => do
    let turn ← t.turn call
    let (last, later) ← turn.after.history calls
    return (last, call.signals turn ++ later)

/-- A note is on at the end of a history, with these updates since it went on and nothing else. -/
def Sounding (history : List Signal) (updates : List Event) : Prop :=
  ∃ earlier on, history = earlier ++ .event on :: updates.map .event ∧ on.kind = .on ∧
    ∀ e ∈ updates, e.kind = .update

/-- What a receiver knows of a note: that none is on, or the pressure that was heard last. -/
inductive NoteView where
  | silent
  | sounding (pressure : Option Nat)

namespace NoteView

/-- The view after a signal, if it fits: an update within a note, with a pressure that is a new
one. -/
def hear? : NoteView → Signal → Option NoteView
  | _, .reset => some silent
  | silent, .event e => if e.kind = .on then some (sounding none) else none
  | sounding pressure, .event e =>
    match e.kind with
    | .on => none
    | .off => some silent
    | .update => if pressure = some e.amount then none else some (sounding (some e.amount))

def hearAll? (view : NoteView) : List Signal → Option NoteView
  | [] => some view
  | signal :: signals => (view.hear? signal).bind fun view => view.hearAll? signals

theorem hearAll?_append (view : NoteView) (signals later : List Signal) :
    view.hearAll? (signals ++ later) =
      (view.hearAll? signals).bind fun view => view.hearAll? later := by
  induction signals generalizing view with
  | nil => rfl
  | cons signal signals ih => simp [hearAll?, ih, Option.bind_assoc]

theorem hearAll?_singleton (view : NoteView) (signal : Signal) :
    view.hearAll? [signal] = view.hear? signal := by
  simp only [hearAll?]
  exact Option.bind_fun_some _

/-- An update is heard within a note, and its pressure is a new one. -/
theorem hear?_update {view next : NoteView} {e : Event} (h : view.hear? (.event e) = some next)
    (hupdate : e.kind = .update) : ∃ p, view = sounding p ∧ p ≠ some e.amount := by
  cases view with
  | silent => simp [hear?, hupdate] at h
  | sounding p =>
    simp only [hear?, hupdate, Option.ite_none_left_eq_some] at h
    exact ⟨p, rfl, h.1⟩

/-- A note sounds with an on, or goes on with an update. -/
theorem hear?_sounding {view : NoteView} {signal : Signal} {p : Option Nat}
    (h : view.hear? signal = some (sounding p)) :
    ∃ e, signal = .event e ∧ ((e.kind = .on ∧ p = none) ∨
      ∃ q, view = sounding q ∧ e.kind = .update ∧ p = some e.amount) := by
  cases signal with
  | reset => cases view <;> exact nomatch h
  | event e =>
    refine ⟨e, rfl, ?_⟩
    cases view with
    | silent =>
      simp only [hear?, Option.ite_none_right_eq_some, Option.some.injEq, sounding.injEq] at h
      exact .inl ⟨h.1, h.2.symm⟩
    | sounding q =>
      cases hkind : e.kind with
      | on => simp [hear?, hkind] at h
      | off => simp [hear?, hkind] at h
      | update =>
        simp only [hear?, hkind, Option.ite_none_left_eq_some, Option.some.injEq,
          sounding.injEq] at h
        exact .inr ⟨q, rfl, rfl, h.2.symm⟩

/-- The pressure that is heard of a note is that of its last update. -/
theorem sounding_of_hearAll? {history : List Signal} {p : Option Nat}
    (h : silent.hearAll? history = some (sounding p)) :
    ∃ updates, Sounding history updates ∧ p = updates.getLast?.map Event.amount := by
  -- a pressure is that of the last signal, so the induction takes signals from the end
  induction history using List.reverseRecOn generalizing p with
  | nil => exact nomatch h
  | append_singleton history signal ih =>
    rw [hearAll?_append] at h
    obtain ⟨view, hview, hlast⟩ := Option.bind_eq_some_iff.mp h
    rw [hearAll?_singleton] at hlast
    obtain ⟨e, rfl, ⟨hon, rfl⟩ | ⟨q, rfl, hupdate, rfl⟩⟩ := hear?_sounding hlast
    · exact ⟨[], ⟨history, e, rfl, hon, nofun⟩, rfl⟩
    · obtain ⟨updates, ⟨earlier, on, rfl, hon, hupdates⟩, -⟩ := ih hview
      refine ⟨updates ++ [e], ⟨earlier, on, by simp, hon, fun u hu => ?_⟩, by simp⟩
      rcases List.mem_append.mp hu with hu | hu
      · exact hupdates u hu
      · exact List.mem_singleton.mp hu ▸ hupdate

/-- An update of a history that is heard comes within a note, and the update before it in that note
is another one. -/
theorem update_of_hearAll? {early late : List Signal} {e : Event} {view : NoteView}
    (h : silent.hearAll? (early ++ .event e :: late) = some view) (hupdate : e.kind = .update) :
    ∃ updates, Sounding early updates ∧ ∀ u ∈ updates.getLast?, u.amount ≠ e.amount := by
  rw [hearAll?_append] at h
  obtain ⟨before, hbefore, hrest⟩ := Option.bind_eq_some_iff.mp h
  obtain ⟨next, hnext, -⟩ := Option.bind_eq_some_iff.mp hrest
  obtain ⟨p, rfl, hnew⟩ := hear?_update hnext hupdate
  obtain ⟨updates, hsounding, rfl⟩ := sounding_of_hearAll? hbefore
  refine ⟨updates, hsounding, fun u hu hsame => hnew ?_⟩
  rw [Option.mem_def.mp hu, Option.map_some, hsame]

end NoteView

namespace PressureTrigger

variable {t mid last : PressureTrigger} {value now : Nat} {es : List Event}

/-- What a receiver should know of the note. -/
def view (t : PressureTrigger) : NoteView := if t.on then .sounding t.lastPressure else .silent

/-- No pressure is kept without a note. -/
def Quiet (t : PressureTrigger) : Prop := t.on = false → t.lastPressure = none

theorem Turning.config_eq (h : t.Turning value now last es) : last.config = t.config := by
  cases h <;> rfl

/-- The turn of a note is heard. -/
theorem Turning.heard (h : t.Turning value now last es) (hquiet : t.Quiet) :
    last.Quiet ∧ t.view.hearAll? (es.map .event) = some last.view := by
  cases h with
  | stays _ => exact ⟨hquiet, rfl⟩
  | turns _ _ =>
    rw [List.map_singleton, NoteView.hearAll?_singleton]
    cases hon : t.on with
    | true =>
      refine ⟨fun _ => by simp [turned, hon], ?_⟩
      simp [view, turned, turnEvent, hon, NoteView.hear?, Event.off]
    | false =>
      refine ⟨fun hoff => by simp [turned, hon] at hoff, ?_⟩
      simp [view, turned, turnEvent, hon, NoteView.hear?, Event.on, hquiet hon]

/-- A pressure that is reported is heard. -/
theorem Pressing.heard (h : t.Pressing value last es) (hquiet : t.Quiet) :
    last.Quiet ∧ t.view.hearAll? (es.map .event) = some last.view := by
  cases h with
  | keeps _ => exact ⟨hquiet, rfl⟩
  | reports hon _ hnew =>
    rw [List.map_singleton, NoteView.hearAll?_singleton]
    refine ⟨fun hoff => ?_, ?_⟩
    · exact absurd (hon.symm.trans hoff) nofun
    · simp [view, hon, NoteView.hear?, Event.update, hnew]

/-- What an evaluation at a preprocessed value owes its receiver: that the note is followed, and that
every pressure in force is reported, by itself or after an on, and as it is. -/
structure Told (t : PressureTrigger) (value : Nat) (last : PressureTrigger) (es : List Event) :
    Prop where
  quiet : last.Quiet
  heard : t.view.hearAll? (es.map .event) = some last.view
  updates : ∀ e ∈ es, e.kind = .update →
    e.amount = value ∧ t.config.trigger ≤ e.amount ∧ e.Lossless
  current : last.on = true → t.config.trigger ≤ value → last.lastPressure = some value
  alone : ∀ e ∈ es, e.kind = .off → es = [e]

theorem Pressing.current (h : t.Pressing value last es) (hon : last.on = true)
    (htrigger : t.config.trigger ≤ value) : last.lastPressure = some value := by
  cases h with
  | keeps hkeeps => exact hkeeps hon htrigger
  | reports _ _ _ => rfl

/-- A turn is no update, and a note that turns off is off. -/
theorem Turning.kind_eq (h : t.Turning value now last es) {e : Event} (he : e ∈ es) :
    e.kind = .on ∨ e.kind = .off ∧ es = [e] ∧ last.on = false := by
  cases h with
  | stays _ => exact nomatch he
  | turns _ _ =>
    obtain rfl := List.mem_singleton.mp he
    cases hon : t.on with
    | true => exact .inr ⟨by simp [turnEvent, hon, Event.off], rfl, by simp [turned, hon]⟩
    | false => exact .inl (by simp [turnEvent, hon, Event.on])

/-- What is reported of the pressure is an update with the value, while the note is on. -/
theorem Pressing.update_of_mem (h : t.Pressing value last es) {e : Event} (he : e ∈ es) :
    e = .update value ∧ t.on = true ∧ t.config.trigger ≤ value := by
  cases h with
  | keeps _ => exact nomatch he
  | reports hon htrigger _ => exact ⟨List.mem_singleton.mp he, hon, htrigger⟩

/-- An evaluation that is not refused. -/
theorem Turning.told {first second : List Event} (h : t.Turning value now mid first)
    (h' : mid.Pressing value last second) (hquiet : t.Quiet) (hsmall : value < Event.intensitySize) :
    t.Told value last (first ++ second) := by
  obtain ⟨hmid, hfirst⟩ := h.heard hquiet
  obtain ⟨hlast, hsecond⟩ := h'.heard hmid
  have hconfig := h.config_eq
  refine ⟨hlast, ?_, fun e he hupdate => ?_, fun hon htrigger => ?_, fun e he hoff => ?_⟩
  · rw [List.map_append, NoteView.hearAll?_append, hfirst]
    exact hsecond
  · rcases List.mem_append.mp he with he | he
    · rcases h.kind_eq he with hkind | ⟨hkind, -⟩ <;> exact nomatch hupdate.symm.trans hkind
    · obtain ⟨rfl, -, htrigger⟩ := h'.update_of_mem he
      exact ⟨rfl, hconfig ▸ htrigger, Event.lossless_of_lt hsmall⟩
  · exact h'.current hon (hconfig ▸ htrigger)
  · rcases List.mem_append.mp he with he | he
    · rcases h.kind_eq he with hkind | ⟨-, rfl, hmidOff⟩
      · exact nomatch hoff.symm.trans hkind
      · -- a note that is off reports no pressure
        have hnone : second = [] := List.eq_nil_iff_forall_not_mem.mpr fun u hu =>
          nomatch hmidOff.symm.trans (h'.update_of_mem hu).2.1
        rw [hnone, List.append_nil]
    · obtain ⟨rfl, -⟩ := h'.update_of_mem he
      exact nomatch hoff

/-- An evaluation has a result and tells its receiver of it, also when it is refused. -/
theorem evaluate_told (hv : t.config.validate = .ok ()) (hf : t.config.input.Fits)
    (hquiet : t.Quiet) (value now : Nat) :
    ∃ v last emitted, t.config.input.apply value = .ok v ∧
      t.evaluate value now = .ok (last, emitted) ∧ t.Told v last emitted.events := by
  obtain ⟨hinput, horder, -⟩ := PressureConfig.validate_eq_ok.mp hv
  obtain ⟨-, hwidest, -⟩ := InputRange.validate_eq_ok.mp hinput
  obtain ⟨v, happly, hle, ⟨hwants, -, heval⟩ | ⟨mid, last, emitted, first, second, heval, hevents,
    hturning, hpressing⟩⟩ := evaluate_parts hv hf value now
  · -- A note that is on and asked to go off is below both thresholds.
    refine ⟨v, t, .none, happly, heval, hquiet, rfl, nofun, fun hon htrigger => ?_, nofun⟩
    exact absurd ((decide_eq_true (horder.trans htrigger)).trans hon.symm) hwants
  · have hsmall : v < Event.intensitySize := lt_of_le_of_lt (hle.trans hwidest) (by decide)
    exact ⟨v, last, emitted, happly, heval, hevents ▸ hturning.told hpressing hquiet hsmall⟩

end PressureTrigger

namespace Trigger

variable {t : PressureTrigger}

/-- A change of settings that was accepted leaves the note and its pressure alone. -/
theorem pressure_change {t' : Trigger} {setting : TriggerSetting}
    (h : (pressure t).change setting = .ok t') :
    ∃ last, t' = pressure last ∧ last.on = t.on ∧ last.lastPressure = t.lastPressure := by
  cases setting with
  | thresholds minNote trigger =>
    obtain ⟨-, rfl⟩ := Checked.map_checked_eq_ok.mp h
    exact ⟨_, rfl, rfl, rfl⟩
  | _ =>
    obtain rfl := Except.ok.inj h
    exact ⟨_, rfl, rfl, rfl⟩

/-- Whatever is called, the receiver hears of it what the trigger keeps. -/
theorem turn_heard (h : (pressure t).Gated) (hquiet : t.Quiet) {c : TriggerCall} (hf : c.Fits) :
    ∃ last turn, (pressure t).turn c = .ok turn ∧ turn.after = pressure last ∧
      (pressure last).Gated ∧ last.Quiet ∧ t.view.hearAll? (c.signals turn) = some last.view := by
  cases c with
  | evaluate value now =>
    obtain ⟨v, last, emitted, -, heval, htold⟩ :=
      t.evaluate_told h.sound.accepted h.sound.fits hquiet value now
    have hturn := turn_of_evaluate (evaluate_of_pressure heval)
    exact ⟨last, _, hturn, rfl, turn_gated h hf hturn, htold.quiet, htold.heard⟩
  | set setting =>
    cases hchange : (pressure t).change setting with
    | ok changed =>
      obtain ⟨last, rfl, hon, hpressure⟩ := pressure_change hchange
      have hturn := turn_of_change hchange
      refine ⟨last, _, hturn, rfl, turn_gated h hf hturn, fun hoff => ?_, ?_⟩
      · rw [hpressure]
        exact hquiet (hon.symm.trans hoff)
      · simp [TriggerCall.signals, NoteView.hearAll?, PressureTrigger.view, hon, hpressure]
    | error e => exact ⟨t, _, turn_of_refused hchange, rfl, h, hquiet, rfl⟩
  | reset =>
    refine ⟨t.reset, _, rfl, rfl, turn_gated h hf rfl, fun _ => rfl, ?_⟩
    exact (NoteView.hearAll?_singleton _ _).trans (by cases t.view <;> rfl)

theorem history_heard (h : (pressure t).Gated) (hquiet : t.Quiet) {calls : List TriggerCall}
    (hf : ∀ c ∈ calls, c.Fits) :
    ∃ last history, (pressure t).history calls = .ok (pressure last, history) ∧
      (pressure last).Gated ∧ last.Quiet ∧ t.view.hearAll? history = some last.view := by
  -- the view that is heard of one call is the one the next call starts from
  induction calls generalizing t with
  | nil => exact ⟨t, [], rfl, h, hquiet, rfl⟩
  | cons c calls ih =>
    obtain ⟨hc, hcalls⟩ := List.forall_mem_cons.mp hf
    obtain ⟨mid, turn, hturn, hafter, hgated, hmid, hheard⟩ := turn_heard h hquiet hc
    obtain ⟨last, later, hhistory, hgated', hlast, hheard'⟩ := ih hgated hmid hcalls
    refine ⟨last, c.signals turn ++ later, ?_, hgated', hlast, ?_⟩
    · simp only [history, hturn, Checked.ok_bind, hafter, hhistory]
      rfl
    · rw [NoteView.hearAll?_append, hheard]
      exact hheard'

/-- From accepted settings, whatever is called and whenever: no pressure is kept while the note is
off, and while it is on the one kept is that of the last update since the on. An update comes within
a note, after its on, and differs from the update before it in that note. An evaluation reports at
most two events, an off by itself, and a pressure only as it is and from the threshold in force on;
when it leaves the note on at or above that threshold, the receiver has the value. -/
theorem pressure_follows_note {c : PressureConfig} (hv : c.validate = .ok ()) (hf : c.input.Fits)
    {calls : List TriggerCall} (hcalls : ∀ call ∈ calls, call.Fits) :
    ∃ t t' history, (TriggerConfig.pressure c).build = .ok t ∧
      t.history calls = .ok (pressure t', history) ∧
      (t'.on = false → t'.lastPressure = none) ∧
      (t'.on = true → ∃ updates, Sounding history updates ∧
        t'.lastPressure = updates.getLast?.map Event.amount) ∧
      (∀ early e late, history = early ++ .event e :: late → e.kind = .update →
        ∃ updates, Sounding early updates ∧ ∀ u ∈ updates.getLast?, u.amount ≠ e.amount) ∧
      ∀ value now, ∃ v last emitted, t'.config.input.apply value = .ok v ∧
        t'.evaluate value now = .ok (last, emitted) ∧
        (∀ e ∈ emitted.events, e.kind = .update →
          e.amount = v ∧ t'.config.trigger ≤ e.amount ∧ e.Lossless) ∧
        (last.on = true → t'.config.trigger ≤ v → last.lastPressure = some v) ∧
        emitted.events.length ≤ 2 ∧ ∀ e ∈ emitted.events, e.kind = .off → emitted.events = [e] := by
  obtain ⟨t', history, hhistory, hgated, hquiet, hheard⟩ :=
    history_heard (atRest_gated (c := .pressure c) hv hf) (fun _ => rfl) hcalls
  refine ⟨_, t', history, TriggerConfig.build_eq_ok hv, hhistory, hquiet, fun hon => ?_, ?_,
    fun value now => ?_⟩
  · have hview : t'.view = .sounding t'.lastPressure := if_pos hon
    rw [hview] at hheard
    exact NoteView.sounding_of_hearAll? hheard
  · rintro early e late rfl hupdate
    exact NoteView.update_of_hearAll? hheard hupdate
  · obtain ⟨v, last, emitted, happly, heval, htold⟩ :=
      t'.evaluate_told hgated.sound.accepted hgated.sound.fits hquiet value now
    exact ⟨v, last, emitted, happly, heval, htold.updates, htold.current, emitted.length_le,
      htold.alone⟩

end Trigger

/-- A pad whose notes begin below where its pressure is reported. -/
def aftertouchPad : PressureConfig where
  minNote := 20
  trigger := 60
  debounce := 10

/-- A note with a release that is held up and a threshold that is raised meanwhile, and another one
after a reset. -/
def aftertouchPadCalls : List TriggerCall :=
  [.evaluate 90 0, .evaluate 90 5, .evaluate 5 6, .set (.thresholds 10 80), .evaluate 85 8,
    .evaluate 70 9, .evaluate 0 10, .reset, .evaluate 100 11]

theorem aftertouchPad_accepted : aftertouchPad.validate = .ok () :=
  Checked.eq_ok_of_isOk (by decide +kernel)

theorem aftertouchPad_follows_note :
    aftertouchPad.validate = .ok () ∧ aftertouchPad.input.Fits ∧
      (∀ call ∈ aftertouchPadCalls, call.Fits) ∧
      ∃ t t' history, (TriggerConfig.pressure aftertouchPad).build = .ok t ∧
        t.history aftertouchPadCalls = .ok (.pressure t', history) ∧
        history = [.event (.on 90), .event (.update 90), .event (.update 85), .event (.off 0),
          .reset, .event (.on 100), .event (.update 100)] ∧
        t'.on = true ∧ t'.lastPressure = some 100 ∧
        ∃ updates, Sounding history updates ∧
          t'.lastPressure = updates.getLast?.map Event.amount := by
  have hfits : ∀ call ∈ aftertouchPadCalls, call.Fits := by
    simp [aftertouchPadCalls, TriggerCall.Fits, TriggerSetting.Fits]
  obtain ⟨t, t', history, hbuild, hhistory, -, hsounding, -⟩ :=
    Trigger.pressure_follows_note aftertouchPad_accepted (by decide) hfits
  obtain rfl := Checked.ok_unique hbuild (TriggerConfig.build_eq_ok aftertouchPad_accepted)
  have htwo : (TriggerConfig.pressure aftertouchPad).atRest.history aftertouchPadCalls =
      .ok (.pressure ⟨{ aftertouchPad with minNote := 10, trigger := 80 }, true, some 100,
        ⟨10, some 11⟩⟩, _) := rfl
  obtain ⟨hlast, rfl⟩ := Checked.ok_unique_pair hhistory htwo
  obtain rfl := Trigger.pressure.inj hlast
  exact ⟨aftertouchPad_accepted, by decide, hfits, _, _, _, hbuild, hhistory, rfl, rfl, rfl,
    hsounding rfl⟩

end SensorEvents

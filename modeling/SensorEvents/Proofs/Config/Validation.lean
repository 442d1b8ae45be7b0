import SensorEvents.Proofs.Midi.Sink
import SensorEvents.Proofs.Session.Channel

/-!
# Validation is complete

A configuration is accepted just when it is well formed, and everything can be built from one that
is: the checks of the settings leave nothing for the builders to refuse. What is refused is reported
of the first channel that is at fault.
-/
namespace SensorEvents

/-- If every entry has a result, the list of results is one. -/
theorem Checked.mapM_eq {ε α β : Type} {f : α → Except ε β} {g : α → β} {l : List α}
    (h : ∀ a ∈ l, f a = .ok (g a)) : l.mapM f = .ok (l.map g) := by
  induction l with
  | nil => rfl
  | cons a l ih =>
    obtain ⟨hhead, htail⟩ := List.forall_mem_cons.mp h
    rw [List.mapM_cons, hhead, Checked.ok_bind, ih htail]
    rfl

/-- Channels that a configuration may have together. -/
structure ChannelConfig.Acceptable (channels : List ChannelConfig) : Prop where
  named : ∀ channel ∈ channels, channel.name ≠ ""
  distinct : (channels.map ChannelConfig.name).Nodup
  accepted : ∀ channel ∈ channels, channel.validate = .ok ()

/-- The issue of a channel that comes after channels of the given names. -/
inductive ChannelConfig.Refused (names : List String) (channel : ChannelConfig) :
    ConfigIssue → Prop
  | unnamed (hname : channel.name = "") : Refused names channel .emptyName
  | repeated (hname : channel.name ≠ "") (hseen : channel.name ∈ names) :
    Refused names channel (.duplicateName channel.name)
  | setting {issue : ConfigIssue} (hname : channel.name ≠ "") (hnew : channel.name ∉ names)
    (hinvalid : channel.validate = .error issue) : Refused names channel issue

namespace SensorConfig

/-- What a configuration has to be. -/
structure WellFormed (c : SensorConfig) : Prop extends ChannelConfig.Acceptable c.channels where
  period : 1 ≤ c.tickPeriod ∧ c.tickPeriod ≤ 1000
  nonempty : c.channels ≠ []

variable {c : SensorConfig}

/-! ## The channels one by one -/

theorem checkChannels_cons (seen : List String) (channel : ChannelConfig)
    (channels : List ChannelConfig) :
    checkChannels seen (channel :: channels) =
      if channel.name = "" then .error .emptyName
      else if channel.name ∈ seen then .error (.duplicateName channel.name)
      else channel.validate >>= fun _ => checkChannels (channel.name :: seen) channels := by
  rw [checkChannels]
  simp only [String.isEmpty_iff]
  split_ifs <;> rfl

theorem checkChannels_eq_ok {seen : List String} {channels : List ChannelConfig} :
    checkChannels seen channels = .ok () ↔
      ChannelConfig.Acceptable channels ∧ ∀ channel ∈ channels, channel.name ∉ seen := by
  induction channels generalizing seen with
  | nil =>
    have hnone := ChannelConfig.Acceptable.mk (List.forall_mem_nil _) List.nodup_nil
      (List.forall_mem_nil _)
    exact iff_of_true rfl ⟨hnone, List.forall_mem_nil _⟩
  | cons channel channels ih =>
    rw [checkChannels_cons, Checked.refuse_eq_ok, Checked.refuse_eq_ok, Checked.seq_eq_ok, ih]
    constructor
    · rintro ⟨hname, hnew, hvalid, ⟨hnamed, hdistinct, haccepted⟩, hlater⟩
      have hfresh : channel.name ∉ channels.map ChannelConfig.name := by
        intro hmem
        obtain ⟨other, hother, hsame⟩ := List.mem_map.mp hmem
        exact hlater other hother (hsame ▸ List.mem_cons_self)
      exact ⟨⟨List.forall_mem_cons.mpr ⟨hname, hnamed⟩, List.nodup_cons.mpr ⟨hfresh, hdistinct⟩,
        List.forall_mem_cons.mpr ⟨hvalid, haccepted⟩⟩, List.forall_mem_cons.mpr ⟨hnew,
          fun other hother hmem => hlater other hother (List.mem_cons_of_mem _ hmem)⟩⟩
    · rintro ⟨⟨hnamed, hdistinct, haccepted⟩, hnew⟩
      obtain ⟨hname, hnamed⟩ := List.forall_mem_cons.mp hnamed
      obtain ⟨hfresh, hdistinct⟩ := List.nodup_cons.mp hdistinct
      obtain ⟨hvalid, haccepted⟩ := List.forall_mem_cons.mp haccepted
      obtain ⟨hnew, hlater⟩ := List.forall_mem_cons.mp hnew
      refine ⟨hname, hnew, hvalid, ⟨hnamed, hdistinct, haccepted⟩, fun other hother hmem => ?_⟩
      rcases List.mem_cons.mp hmem with hsame | hmem
      · exact hfresh (List.mem_map.mpr ⟨other, hother, hsame⟩)
      · exact hlater other hother hmem

/-- What is reported is the issue of the first channel that has one. -/
theorem checkChannels_eq_error {seen : List String} {channels : List ChannelConfig}
    {issue : ConfigIssue} (h : checkChannels seen channels = .error issue) :
    ∃ before channel after, channels = before ++ channel :: after ∧
      checkChannels seen before = .ok () ∧
      channel.Refused (before.map ChannelConfig.name ++ seen) issue := by
  induction channels generalizing seen with
  | nil => exact nomatch h
  | cons channel channels ih =>
    rw [checkChannels_cons] at h
    split_ifs at h with hname hseen
    · obtain rfl := Except.error.inj h
      exact ⟨[], channel, channels, rfl, rfl, .unnamed hname⟩
    · obtain rfl := Except.error.inj h
      exact ⟨[], channel, channels, rfl, rfl, .repeated hname hseen⟩
    cases hvalid : channel.validate with
    | error e =>
      rw [hvalid] at h
      obtain rfl := Except.error.inj h
      exact ⟨[], channel, channels, rfl, rfl, .setting hname hseen hvalid⟩
    | ok _ =>
      rw [hvalid, Checked.ok_bind] at h
      obtain ⟨before, offender, after, rfl, hbefore, hrefused⟩ := ih h
      refine ⟨channel :: before, offender, after, rfl, ?_, ?_⟩
      · rw [checkChannels_cons, if_neg hname, if_neg hseen, hvalid, Checked.ok_bind, hbefore]
      · have hnames : ∀ name, name ∈ before.map ChannelConfig.name ++ channel.name :: seen ↔
            name ∈ (channel :: before).map ChannelConfig.name ++ seen := by
          intro name
          simp only [List.mem_append, List.mem_cons, List.map_cons]
          tauto
        cases hrefused with
        | unnamed hname => exact .unnamed hname
        | repeated hname hseen => exact .repeated hname ((hnames _).mp hseen)
        | setting hname hnew hinvalid => exact .setting hname (mt (hnames _).mpr hnew) hinvalid

/-! ## What is built -/

variable {σ : Type}

/-- The engine of a configuration before its first tick. -/
def engineAtRest (c : SensorConfig) (clock : Clock) (source : Nat → σ) : Engine σ where
  clock
  channels := c.placed.map fun (channel, i) => channel.atRest (source (channel.columnAt i))

theorem names_engineAtRest (c : SensorConfig) (clock : Clock) (source : Nat → σ) :
    (c.engineAtRest clock source).names = c.channels.map ChannelConfig.name := by
  unfold Engine.names engineAtRest placed
  rw [List.map_map]
  change c.channels.zipIdx.map (ChannelConfig.name ∘ Prod.fst) = _
  rw [← List.map_map, List.zipIdx_map_fst]

/-- An engine is built from channels that are accepted one by one. -/
theorem buildEngine_eq [Source σ] (hv : ∀ channel ∈ c.channels, channel.validate = .ok ())
    (clock : Clock) (source : Nat → σ) :
    c.buildEngine clock source = .ok (c.engineAtRest clock source) := by
  have hbuild : ∀ entry ∈ c.placed,
      (entry.1.build (source (entry.1.columnAt entry.2))).ofChannel entry.1.name =
        .ok (entry.1.atRest (source (entry.1.columnAt entry.2))) := fun entry hentry =>
    Accepted.ofChannel_eq_ok.mpr
      (ChannelConfig.build_eq (hv _ (List.fst_mem_of_mem_zipIdx hentry)) _)
  unfold buildEngine
  simp only [Checked.mapM_eq hbuild, Checked.ok_bind]
  rfl

/-- A configuration is accepted just when it is well formed. -/
theorem validate_eq_ok : c.validate = .ok () ↔ c.WellFormed := by
  unfold validate
  simp only [Checked.throw_eq_error, Checked.error_bind, Checked.refuse_eq_ok,
    Checked.seq_eq_ok, List.isEmpty_iff, checkChannels_eq_ok]
  constructor
  · rintro ⟨hperiod, hnonempty, ⟨hacceptable, -⟩, -⟩
    exact ⟨hacceptable, by omega, hnonempty⟩
  · rintro ⟨hacceptable, hperiod, hnonempty⟩
    refine ⟨by omega, hnonempty, ⟨hacceptable, fun _ _ => List.not_mem_nil⟩, ?_⟩
    rw [buildEngine_eq hacceptable.accepted]
    rfl

/-- With a period and channels in order, a refusal is that of the first channel at fault. -/
theorem validate_eq_error (hperiod : 1 ≤ c.tickPeriod ∧ c.tickPeriod ≤ 1000)
    (hnonempty : c.channels ≠ []) {issue : ConfigIssue} (h : c.validate = .error issue) :
    ∃ before channel after, c.channels = before ++ channel :: after ∧
      ChannelConfig.Acceptable before ∧
      channel.Refused (before.map ChannelConfig.name) issue := by
  unfold validate at h
  simp only [Checked.throw_eq_error, Checked.error_bind, List.isEmpty_iff] at h
  rw [if_neg (by omega), if_neg hnonempty] at h
  cases hcheck : checkChannels [] c.channels with
  | ok _ =>
    obtain ⟨hacceptable, -⟩ := checkChannels_eq_ok.mp hcheck
    rw [hcheck, Checked.ok_bind, buildEngine_eq hacceptable.accepted] at h
    exact nomatch h
  | error e =>
    rw [hcheck, Checked.error_bind] at h
    obtain rfl := Except.error.inj h
    obtain ⟨before, channel, after, hsplit, hbefore, hrefused⟩ := checkChannels_eq_error hcheck
    rw [List.append_nil] at hrefused
    exact ⟨before, channel, after, hsplit, (checkChannels_eq_ok.mp hbefore).1, hrefused⟩

theorem binding?_bindOutputs (c : SensorConfig) (s : MidiSink) (i : Nat) :
    (c.bindOutputs s).binding? i =
      (c.channels[i]?.map ChannelConfig.output).or (s.binding? i) := by
  unfold MidiSink.binding?
  rw [route?_bindOutputs_of]
  split_ifs with hlt
  · rw [List.getElem?_eq_getElem hlt]
    rfl
  · rw [List.getElem?_eq_none (Nat.not_lt.mp hlt)]
    rfl

/-- Acceptance is what it should be: a configuration is accepted just when it is well formed, a
channel with accepted settings is built from every source, and an accepted configuration becomes an
engine with one channel for each entry, in order, whose outputs are the ones that are bound. What
is refused, once the period and the number of channels are in order, is the first channel at fault,
and of its name before its settings. -/
theorem validate_complete (c : SensorConfig) :
    (c.validate = .ok () ↔ c.WellFormed) ∧
      (∀ channel : ChannelConfig, channel.validate = .ok () →
        ∀ (σ : Type) [Source σ] (source : σ), ∃ built, channel.build source = .ok built) ∧
      (c.validate = .ok () →
        (∀ (σ : Type) [Source σ] (clock : Clock) (source : Nat → σ),
          ∃ engine, c.buildEngine clock source = .ok engine ∧ engine.clock = clock ∧
            engine.names = c.channels.map ChannelConfig.name ∧
            List.Forall₂ (fun entry built =>
              entry.1.build (source (entry.1.columnAt entry.2)) = .ok built)
                c.placed engine.channels) ∧
        ∀ (s : MidiSink) (i : Nat), (c.bindOutputs s).binding? i =
          (c.channels[i]?.map ChannelConfig.output).or (s.binding? i)) ∧
      (1 ≤ c.tickPeriod ∧ c.tickPeriod ≤ 1000 → c.channels ≠ [] →
        ∀ issue, c.validate = .error issue →
          ∃ before channel after, c.channels = before ++ channel :: after ∧
            ChannelConfig.Acceptable before ∧
            channel.Refused (before.map ChannelConfig.name) issue) := by
  refine ⟨validate_eq_ok, ?_, ?_, fun hperiod hnonempty _ => validate_eq_error hperiod hnonempty⟩
  · intro channel hv σ _ source
    exact ⟨_, ChannelConfig.build_eq hv source⟩
  · intro hv
    have haccepted := (validate_eq_ok.mp hv).accepted
    refine ⟨fun σ _ clock source => ?_, c.binding?_bindOutputs⟩
    refine ⟨_, buildEngine_eq haccepted clock source, rfl, c.names_engineAtRest clock source, ?_⟩
    refine List.forall₂_map_right_iff.mpr (List.forall₂_same.mpr fun entry hentry => ?_)
    exact ChannelConfig.build_eq (haccepted _ (List.fst_mem_of_mem_zipIdx hentry)) _

end SensorConfig

/-- A lever without drift. -/
def leverNamed (name : String) : ChannelConfig where
  name
  conditioning := .direct { inputBits := 10 }
  hysteresisBits := some 2
  trigger := .continuous {}
  output := .controlChange 0 7

/-- Of two levers, the second one has to have another name. -/
theorem leverNamed_complete :
    (SensorConfig.mk 1 none [leverNamed "left", leverNamed "right"]).validate = .ok () ∧
      (∃ built, (leverNamed "left").build (Scripted.ofList [7]) = .ok built) ∧
      (∃ engine, (SensorConfig.mk 1 none [leverNamed "left", leverNamed "right"]).buildEngine {}
        (fun column => Scripted.ofList [column]) = .ok engine ∧ engine.names = ["left", "right"]) ∧
      (SensorConfig.mk 1 none [leverNamed "left", leverNamed "left"]).validate =
        .error (.duplicateName "left") ∧
      ∃ before channel after, [leverNamed "left", leverNamed "left"] = before ++ channel :: after ∧
        ChannelConfig.Acceptable before ∧
        channel.Refused (before.map ChannelConfig.name) (.duplicateName "left") := by
  have hv : (SensorConfig.mk 1 none [leverNamed "left", leverNamed "right"]).validate = .ok () :=
    Checked.eq_ok_of_isOk (by decide +kernel)
  have htwice : (SensorConfig.mk 1 none [leverNamed "left", leverNamed "left"]).validate =
      .error (.duplicateName "left") := rfl
  obtain ⟨-, hbuild, haccepted, -⟩ :=
    SensorConfig.validate_complete (.mk 1 none [leverNamed "left", leverNamed "right"])
  obtain ⟨engine, hengine, -, hnames, -⟩ :=
    (haccepted hv).1 Scripted {} fun column => Scripted.ofList [column]
  obtain ⟨-, -, -, hrefused⟩ :=
    SensorConfig.validate_complete (.mk 1 none [leverNamed "left", leverNamed "left"])
  exact ⟨hv, hbuild _ (Checked.eq_ok_of_isOk (by decide +kernel)) Scripted _,
    ⟨engine, hengine, hnames⟩, htwice, hrefused (by decide) nofun _ htwice⟩

end SensorEvents

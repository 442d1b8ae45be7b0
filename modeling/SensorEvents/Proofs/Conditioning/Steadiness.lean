import SensorEvents.Proofs.Conditioning.Band

/-!
# Levels that do not chatter

A level is reported when a value leaves the band around the level that is held, so every report
changes the level. Values that span less than one step are reported at most twice, however long they
go on and whatever level they find: the first report brings the level to one of them, a second one
moves it by one, and the band of that level holds them all.
-/
namespace SensorEvents.Hysteresis

/-- The part of a value that is on a scale of so many bits. -/
def clip (inputBits value : Nat) : Nat := min value (2 ^ inputBits - 1)

/-- The levels that are reported for values one after the other, and the quantizer after them. -/
def reports (h : Hysteresis) : List Nat → Checked (List Nat × Hysteresis)
  | [] => .ok ([], h)
  | value :: values => do
    let (changed, next) ← h.update value
    let (levels, last) ← next.reports values
    return (if changed then next.level :: levels else levels, last)

/-- The quantizer at the level of a value. -/
def holding (h : Hysteresis) (value : Nat) : Hysteresis := { h with level := value / 2 ^ h.bits }

variable {h : Hysteresis} {value : Nat}

theorem Sound.clip_le (hs : h.Sound) (value : Nat) :
    clip h.inputBits value ≤ BitDepth.largest h.inputBits := by
  rw [BitDepth.largest_eq hs.input]
  exact Nat.min_le_right ..

theorem Sound.holding_sound (hs : h.Sound) (hvalue : value ≤ BitDepth.largest h.inputBits) :
    (h.holding value).Sound := by
  refine ⟨hs.remain, hs.input, ?_⟩
  rw [Nat.shiftRight_eq_div_pow]
  exact Nat.div_le_div_right hvalue

theorem Sound.update_eq_clip (hs : h.Sound) (value : Nat) :
    h.update value =
      .ok (decide (h.Leaves (clip h.inputBits value)), h.settled (clip h.inputBits value)) := by
  rw [hs.update_eq_leaves, BitDepth.largest_eq hs.input]
  rfl

/-- A report is a change of level. -/
theorem Sound.leaves_iff_level_ne (hs : h.Sound) (hvalue : value ≤ BitDepth.largest h.inputBits) :
    h.Leaves value ↔ (h.settled value).level ≠ h.level := by
  constructor
  · intro hleaves
    rw [settled_of_leaves hleaves]
    exact hs.div_ne_level hvalue hleaves
  · intro hne
    by_contra hstays
    exact hne (congrArg Hysteresis.level (settled_of_stays hstays))

/-! ## Values within one step of each other -/

/-- Values less than a step apart. -/
def Near (bits v w : Nat) : Prop := v < w + 2 ^ bits ∧ w < v + 2 ^ bits

variable {v w u : Nat}

/-- From the level of one value, another within a step of it can move the level by one only, and
lies half a step beyond the boundary. -/
theorem Sound.moved_by_one (hs : h.Sound) (hw : w ≤ BitDepth.largest h.inputBits)
    (hlevel : v / 2 ^ h.bits = h.level) (hleaves : h.Leaves w) (hnear : Near h.bits v w) :
    0 < h.bits ∧
      (w / 2 ^ h.bits = h.level + 1 ∧ (h.level + 1) * 2 ^ h.bits + 2 ^ (h.bits - 1) ≤ w ∨
        w / 2 ^ h.bits + 1 = h.level ∧ w + 2 ^ (h.bits - 1) ≤ h.level * 2 ^ h.bits) := by
  obtain ⟨hvw, hwv⟩ := hnear
  -- Without dropped bits, values this near are the same one.
  have hbits : 0 < h.bits := by
    refine Nat.pos_of_ne_zero fun hzero => ?_
    rw [hzero] at hvw hwv
    have hsame : w = v := by omega
    exact hs.stays_of_level hw (hsame ▸ hlevel) hleaves
  refine ⟨hbits, ?_⟩
  have hhalf := Nat.two_pow_pred_mul_two hbits
  obtain ⟨hfrom, hupto⟩ := in_step v h.bits
  rw [hlevel] at hfrom hupto
  rcases (hs.leaves_iff hbits hw).mp hleaves with hbelow | habove
  · refine .inr ⟨?_, hbelow⟩
    obtain ⟨lower, hlower⟩ : ∃ lower, h.level = lower + 1 :=
      Nat.exists_eq_succ_of_ne_zero fun hnone => by
        rw [hnone, Nat.zero_mul] at hbelow
        have := Nat.two_pow_pos (h.bits - 1)
        omega
    rw [hlower, Nat.succ_mul] at hbelow hfrom
    have hdiv : w / 2 ^ h.bits = lower := by
      refine Nat.div_eq_of_lt_le (by omega) ?_
      rw [Nat.succ_mul]
      omega
    rw [hlower, hdiv]
  · refine .inl ⟨Nat.div_eq_of_lt_le (by omega) ?_, habove⟩
    rw [Nat.succ_mul, Nat.succ_mul]
    omega

/-- After a report of each of two values within a step, every value within a step of both is
held. -/
theorem Sound.stays_after_two (hs : h.Sound) (hw : w ≤ BitDepth.largest h.inputBits)
    (hu : u ≤ BitDepth.largest h.inputBits) (hlevel : v / 2 ^ h.bits = h.level)
    (hleaves : h.Leaves w) (hvw : Near h.bits v w) (hvu : Near h.bits v u) (hwu : Near h.bits w u) :
    ¬ (h.holding w).Leaves u := by
  obtain ⟨hbits, hmoved⟩ := hs.moved_by_one hw hlevel hleaves hvw
  unfold Near at hvw hvu hwu
  have hhalf := Nat.two_pow_pred_mul_two hbits
  obtain ⟨hfrom, hupto⟩ := in_step v h.bits
  rw [hlevel] at hfrom hupto
  rw [(hs.holding_sound hw).leaves_iff hbits hu]
  unfold holding
  dsimp only
  rw [Nat.succ_mul]
  rcases hmoved with ⟨hup, habove⟩ | ⟨hdown, hbelow⟩
  · rw [hup]
    rw [Nat.succ_mul] at habove ⊢
    omega
  · rw [← hdown, Nat.succ_mul] at hbelow hfrom
    omega

/-- Two reports of values within a step do not come back to the level before them. -/
theorem Sound.level_ne_after_two (hs : h.Sound) (hv : v ≤ BitDepth.largest h.inputBits)
    (hw : w ≤ BitDepth.largest h.inputBits) (hfirst : h.Leaves v)
    (hsecond : (h.holding v).Leaves w) (hnear : Near h.bits v w) : w / 2 ^ h.bits ≠ h.level := by
  obtain ⟨hbits, hmoved⟩ := (hs.holding_sound hv).moved_by_one hw rfl hsecond hnear
  obtain ⟨hvw, hwv⟩ := hnear
  unfold holding at hbits hmoved
  dsimp only at hbits hmoved
  have hhalf := Nat.two_pow_pred_mul_two hbits
  obtain ⟨hfrom, hupto⟩ := in_step v h.bits
  rw [hs.leaves_iff hbits hv] at hfirst
  intro hback
  rcases hmoved with ⟨hup, habove⟩ | ⟨hdown, hbelow⟩
  · rw [← hback, hup, Nat.succ_mul (v / 2 ^ h.bits + 1)] at hfirst
    rw [Nat.succ_mul] at habove hfirst
    omega
  · rw [← hback, hdown] at hfirst
    rw [← hdown, Nat.succ_mul] at hbelow hfirst hfrom
    omega

/-! ## Stretches of values -/

variable {values levels : List Nat} {last : Hysteresis}

theorem Sound.reports_cons (hs : h.Sound)
    (hlater : (h.settled (clip h.inputBits value)).reports values = .ok (levels, last)) :
    h.reports (value :: values) =
      .ok (if h.Leaves (clip h.inputBits value)
        then (h.settled (clip h.inputBits value)).level :: levels else levels, last) := by
  unfold reports
  rw [hs.update_eq_clip, Checked.ok_bind]
  dsimp only
  rw [hlater, Checked.ok_bind]
  simp only [decide_eq_true_eq, Checked.pure_eq_ok]

/-- A quantizer takes every stretch of values, and keeps its bits. -/
theorem Sound.reports_eq_ok (hs : h.Sound) (values : List Nat) :
    ∃ levels last, h.reports values = .ok (levels, last) ∧ last.Sound ∧ last.bits = h.bits ∧
      last.inputBits = h.inputBits := by
  induction values generalizing h with
  | nil => exact ⟨[], h, rfl, hs, rfl, rfl⟩
  | cons value values ih =>
    obtain ⟨levels, last, hlater, hlast, hbits, hinput⟩ := ih (hs.settled_sound (hs.clip_le value))
    exact ⟨_, last, hs.reports_cons hlater, hlast, hbits.trans (settled_bits ..),
      hinput.trans (settled_inputBits ..)⟩

/-- A stretch reports nothing, or it reports the level of some value and then what the values after
it report. -/
theorem Sound.reports_cases (hs : h.Sound) (values : List Nat) :
    h.reports values = .ok ([], h) ∨
      ∃ value ∈ values, ∃ later levels last, later ⊆ values ∧ h.Leaves (clip h.inputBits value) ∧
        (h.holding (clip h.inputBits value)).reports later = .ok (levels, last) ∧
        h.reports values = .ok (clip h.inputBits value / 2 ^ h.bits :: levels, last) := by
  induction values with
  | nil => exact .inl rfl
  | cons value values ih =>
    by_cases hleaves : h.Leaves (clip h.inputBits value)
    · obtain ⟨levels, last, hlater, -⟩ :=
        (hs.settled_sound (hs.clip_le value)).reports_eq_ok values
      have hreports := hs.reports_cons hlater
      rw [settled_of_leaves hleaves] at hlater hreports
      rw [if_pos hleaves] at hreports
      exact .inr ⟨value, List.mem_cons_self, values, levels, last, List.subset_cons_self ..,
        hleaves, hlater, hreports⟩
    · have hskip : ∀ {levels last}, h.reports values = .ok (levels, last) →
          h.reports (value :: values) = .ok (levels, last) := fun hlater => by
        rw [← settled_of_stays hleaves] at hlater
        have hreports := hs.reports_cons hlater
        rwa [if_neg hleaves] at hreports
      rcases ih with hnone | ⟨first, hfirst, later, levels, last, hsub, hreport, hlater, hall⟩
      · exact .inl (hskip hnone)
      · exact .inr ⟨first, List.mem_cons_of_mem _ hfirst, later, levels, last,
          List.subset_cons_of_subset _ hsub, hreport, hlater, hskip hall⟩

theorem Sound.reports_eq_nil (hs : h.Sound)
    (hstays : ∀ v ∈ values, ¬ h.Leaves (clip h.inputBits v))
    (hrun : h.reports values = .ok (levels, last)) : levels = [] := by
  rcases hs.reports_cases values with hnone | ⟨v, hv, -, -, -, -, hleaves, -⟩
  · exact (Checked.ok_unique_pair hrun hnone).1
  · exact absurd hleaves (hstays v hv)

/-- Values that span less than a step. -/
def WithinStep (bits inputBits : Nat) (values : List Nat) : Prop :=
  ∀ v ∈ values, ∀ w ∈ values, clip inputBits v < clip inputBits w + 2 ^ bits

theorem WithinStep.near {bits inputBits : Nat} (hspan : WithinStep bits inputBits values)
    (hv : v ∈ values) (hw : w ∈ values) : Near bits (clip inputBits v) (clip inputBits w) :=
  ⟨hspan v hv w hw, hspan w hw v hv⟩

/-- Once a value of the stretch has its level, at most one report follows. -/
theorem Sound.reports_of_level (hs : h.Sound) (hspan : WithinStep h.bits h.inputBits values)
    (hv : v ∈ values) (hlevel : clip h.inputBits v / 2 ^ h.bits = h.level) {later : List Nat}
    (hsub : later ⊆ values) (hrun : h.reports later = .ok (levels, last)) :
    levels = [] ∨ ∃ w ∈ values, h.Leaves (clip h.inputBits w) ∧
      levels = [clip h.inputBits w / 2 ^ h.bits] := by
  rcases hs.reports_cases later with
    hnone | ⟨w, hw, rest, levels', last', hrest, hleaves, hafter, hall⟩
  · exact .inl (Checked.ok_unique_pair hrun hnone).1
  have hstays : ∀ u ∈ rest, ¬ (h.holding (clip h.inputBits w)).Leaves (clip h.inputBits u) :=
    fun u hu => hs.stays_after_two (hs.clip_le w) (hs.clip_le u) hlevel hleaves
      (hspan.near hv (hsub hw)) (hspan.near hv (hsub (hrest hu)))
      (hspan.near (hsub hw) (hsub (hrest hu)))
  obtain rfl := (hs.holding_sound (hs.clip_le w)).reports_eq_nil hstays hafter
  exact .inr ⟨w, hsub hw, hleaves, (Checked.ok_unique_pair hrun hall).1⟩

/-- Values that span less than a step are reported twice at most, and never at a level that was held
before. -/
theorem Sound.reports_within_step (hs : h.Sound) (hspan : WithinStep h.bits h.inputBits values)
    (hrun : h.reports values = .ok (levels, last)) :
    levels.length ≤ 2 ∧ (h.level :: levels).Nodup := by
  rcases hs.reports_cases values with
    hnone | ⟨v, hv, later, levels', last', hsub, hfirst, hlater, hall⟩
  · obtain ⟨rfl, -⟩ := Checked.ok_unique_pair hrun hnone
    exact ⟨Nat.zero_le _, List.nodup_singleton _⟩
  obtain ⟨rfl, -⟩ := Checked.ok_unique_pair hrun hall
  -- From here on the level is that of `v`, and at most one more report follows.
  have hleft := hs.div_ne_level (hs.clip_le v) hfirst
  have hs' := hs.holding_sound (hs.clip_le v)
  rcases hs'.reports_of_level hspan hv rfl hsub hlater with rfl | ⟨w, hw, hsecond, rfl⟩
  · refine ⟨Nat.le_succ 1, List.nodup_cons.mpr ⟨fun hmem => ?_, List.nodup_singleton _⟩⟩
    exact hleft (List.mem_singleton.mp hmem).symm
  · have hback := hs.level_ne_after_two (hs.clip_le v) (hs.clip_le w) hfirst hsecond
      (hspan.near hv hw)
    have hmoved := hs'.div_ne_level (hs.clip_le w) hsecond
    refine ⟨Nat.le_refl _, List.nodup_cons.mpr ⟨fun hmem => ?_, List.nodup_cons.mpr
      ⟨fun hmem => hmoved (List.mem_singleton.mp hmem).symm, List.nodup_singleton _⟩⟩⟩
    rcases List.mem_cons.mp hmem with hsame | hmem
    · exact hleft hsame.symm
    · exact hback (List.mem_singleton.mp hmem).symm

/-- Values of one step are reported once at most. -/
theorem Sound.reports_same_step (hs : h.Sound)
    (hsame : ∀ v ∈ values, ∀ w ∈ values,
      clip h.inputBits v / 2 ^ h.bits = clip h.inputBits w / 2 ^ h.bits)
    (hrun : h.reports values = .ok (levels, last)) : levels.length ≤ 1 := by
  rcases hs.reports_cases values with
    hnone | ⟨v, hv, later, levels', last', hsub, hfirst, hlater, hall⟩
  · obtain ⟨rfl, -⟩ := Checked.ok_unique_pair hrun hnone
    exact Nat.zero_le _
  obtain ⟨rfl, -⟩ := Checked.ok_unique_pair hrun hall
  have hs' := hs.holding_sound (hs.clip_le v)
  obtain rfl := hs'.reports_eq_nil
    (fun w hw => hs'.stays_of_level (hs.clip_le w) (hsame w (hsub hw) v hv)) hlater
  exact Nat.le_refl _

/-- Values of one step are so also on the scale. -/
theorem clip_div_eq {bits inputBits : Nat} (hsame : v / 2 ^ bits = w / 2 ^ bits) :
    clip inputBits v / 2 ^ bits = clip inputBits w / 2 ^ bits := by
  have hmono : Monotone fun n : Nat => n / 2 ^ bits := fun _ _ hle => Nat.div_le_div_right hle
  unfold clip
  rw [hmono.map_min, hmono.map_min, hsame]

/-! ## Runs -/

/-- What holds of the level after a value. The band around it needs no extension at the ends of the
scale: it reaches beyond them. -/
structure Held (bits inputBits value level : Nat) : Prop where
  level_le : level ≤ 2 ^ (inputBits - bits) - 1
  same : bits = 0 → level = clip inputBits value
  low : 0 < bits → level * 2 ^ bits + 2 ^ (bits - 1) ≤ clip inputBits value + (2 ^ bits - 1)
  high : 0 < bits → clip inputBits value ≤ level * 2 ^ bits + 2 ^ (bits - 1) + (2 ^ bits - 1)
  zero : value = 0 → level = 0
  full : 2 ^ inputBits - 1 ≤ value → level = 2 ^ (inputBits - bits) - 1

theorem Sound.level_le_pow (hs : h.Sound) : h.level ≤ 2 ^ (h.inputBits - h.bits) - 1 := by
  have htop := hs.topLevel_add_one
  have hlevel := hs.level_le
  omega

/-- A value that does not leave the band is within its reach. -/
theorem Sound.within_reach (hs : h.Sound) (hbits : 0 < h.bits)
    (hvalue : value ≤ BitDepth.largest h.inputBits) (hstays : ¬ h.Leaves value) :
    h.level * 2 ^ h.bits + 2 ^ (h.bits - 1) ≤ value + (2 ^ h.bits - 1) ∧
      value ≤ h.level * 2 ^ h.bits + 2 ^ (h.bits - 1) + (2 ^ h.bits - 1) := by
  have hhalf := Nat.two_pow_pred_mul_two hbits
  have hpos := Nat.two_pow_pos (h.bits - 1)
  rw [hs.leaves_iff hbits hvalue, Nat.succ_mul] at hstays
  omega

theorem Sound.held (hs : h.Sound) (value : Nat) :
    Held h.bits h.inputBits value (h.settled (clip h.inputBits value)).level := by
  have hs' := hs.settled_sound (hs.clip_le value)
  have hstays := hs.settled_stays (hs.clip_le value)
  have hreach := fun hbits hin => hs'.within_reach hbits hin hstays
  have hle := hs'.level_le_pow
  have htop := hs'.topLevel_add_one
  have hlevel := hs'.level_of_full
  have hsame := fun hbits => level_of_stays hbits hstays
  simp only [settled_bits, settled_inputBits] at hreach hle htop hlevel hsame
  refine ⟨hle, hsame, fun hbits => (hreach hbits (hs.clip_le value)).1,
    fun hbits => (hreach hbits (hs.clip_le value)).2, fun hzero => ?_, fun hfull => ?_⟩
  · have hclip : clip h.inputBits value = 0 := by rw [hzero, clip, Nat.zero_min]
    rw [hclip] at hs' hstays ⊢
    exact hs'.level_of_zero hstays
  · have hclip : clip h.inputBits value = BitDepth.largest h.inputBits := by
      rw [BitDepth.largest_eq hs.input]
      exact Nat.min_eq_right hfull
    have htopmost := hlevel (hclip ▸ hstays)
    omega

/-- In every run of a quantizer, a level is reported just when it changes, and the value lies in the
band around it; zero and full scale bring the levels at the ends. From any level that a run can
reach, values that span less than a step are reported twice at most and at levels that were not
held before, and values of one step once at most. -/
theorem never_chatters {bits inputBits : Nat} {built : Hysteresis}
    (hbuild : build bits inputBits = .ok built) (earlier : List Nat) :
    ∃ before h, built.reports earlier = .ok (before, h) ∧ h.level ≤ 2 ^ (inputBits - bits) - 1 ∧
      (∀ value, ∃ changed next, h.update value = .ok (changed, next) ∧
        (changed = true ↔ next.level ≠ h.level) ∧ Held bits inputBits value next.level) ∧
      ∀ stretch, ∃ levels last, h.reports stretch = .ok (levels, last) ∧
        (WithinStep bits inputBits stretch → levels.length ≤ 2 ∧ (h.level :: levels).Nodup) ∧
        ((∀ v ∈ stretch, ∀ w ∈ stretch, v / 2 ^ bits = w / 2 ^ bits) → levels.length ≤ 1) ∧
        ((∀ v ∈ stretch, ∀ w ∈ stretch,
          clip inputBits v / 2 ^ bits = clip inputBits w / 2 ^ bits) → levels.length ≤ 1) := by
  obtain ⟨-, -, rfl⟩ := build_eq_ok.mp hbuild
  obtain ⟨before, h, hrun, hs, rfl, rfl⟩ := (build_sound hbuild).reports_eq_ok earlier
  refine ⟨before, h, hrun, hs.level_le_pow, fun value => ?_, fun stretch => ?_⟩
  · refine ⟨_, _, hs.update_eq_clip value, ?_, hs.held value⟩
    rw [decide_eq_true_eq]
    exact hs.leaves_iff_level_ne (hs.clip_le value)
  · obtain ⟨levels, last, hstretch, -⟩ := hs.reports_eq_ok stretch
    exact ⟨levels, last, hstretch, fun hspan => hs.reports_within_step hspan hstretch,
      fun hsame => hs.reports_same_step (fun v hv w hw => clip_div_eq (hsame v hv w hw)) hstretch,
      fun hsame => hs.reports_same_step hsame hstretch⟩

/-- Values that jump between two steps of four, for a quantizer that comes down from full scale. -/
theorem jumping_reported_twice :
    build 2 7 = .ok ⟨2, 7, 0⟩ ∧ ∃ levels last,
      (Hysteresis.mk 2 7 31).reports [41, 38, 41, 38] = .ok (levels, last) ∧ levels = [10, 9] ∧
        levels.length ≤ 2 ∧ (31 :: levels).Nodup := by
  have hbuild : build 2 7 = .ok ⟨2, 7, 0⟩ := rfl
  obtain ⟨before, h, hrun, -, -, hsteady⟩ := never_chatters hbuild [127]
  obtain ⟨levels, last, hlevels, hspan, -⟩ := hsteady [41, 38, 41, 38]
  have hwithin : WithinStep 2 7 [41, 38, 41, 38] := by
    unfold WithinStep
    decide
  have hdown : (Hysteresis.mk 2 7 0).reports [127] = .ok ([31], ⟨2, 7, 31⟩) := by decide +kernel
  have htwice : (Hysteresis.mk 2 7 31).reports [41, 38, 41, 38] = .ok ([10, 9], ⟨2, 7, 9⟩) := by
    decide +kernel
  obtain ⟨-, rfl⟩ := Checked.ok_unique_pair hrun hdown
  exact ⟨hbuild, levels, last, hlevels, (Checked.ok_unique_pair hlevels htwice).1, hspan hwithin⟩

end SensorEvents.Hysteresis

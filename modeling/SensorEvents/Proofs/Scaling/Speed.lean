import SensorEvents.Proofs.Scaling.Velocity
import SensorEvents.Proofs.Single.Truncation

/-!
# Faster is louder

The intensity of an accepted velocity map does not fall when the speed grows. The two early returns
leave the speeds strictly between the slowest and the fastest. There either the slope is zero, since
the speeds are too close for the map or too far apart for the numbers, and all have the least
intensity; or every operation on the way is that of finite numbers, each of them rounds, and rounding
keeps the order. Between two thresholds the speed of a crossing falls as its time grows, so the
velocity of a note never grows with it.
-/
namespace SensorEvents

open Single

namespace Segment

/-- The signal that `x` is mapped to before it is kept inside the output interval. -/
def reach (s : Segment) (x : Float32) : Float32 := s.outMin + (x - s.inMin) * s.slope

/-- A flat segment takes every signal to the start of its outputs, or to what is not a number. -/
theorem exact_reach_of_flat {s : Segment} (hout : s.outMin.isFinite = true)
    (hlow : 0 ≤ exact s.outMin) (hslope : s.slope.isFinite = true) (hflat : exact s.slope = 0)
    (x : Float32) : exact (s.reach x) ≤ exact s.outMin := by
  unfold reach
  by_cases hoffset : (x - s.inMin).isFinite = true
  · have hproduct := mul_rounds hoffset hslope
    rw [hflat, mul_zero] at hproduct
    obtain ⟨hfinite, hzero⟩ := hproduct.finite (by simp)
    have hsum := add_rounds hout hfinite
    rw [hzero, rounded_zero, add_zero] at hsum
    exact hsum.mono (rounds_self hout) le_rfl
  -- the way from the start overflows, and an infinity times zero is no number
  · have hproduct := isNaN_mul_zero (Bool.eq_false_iff.mpr hoffset) hslope hflat
    rw [exact_of_isNaN (isNaN_add_right hproduct)]
    exact hlow

/-- A segment whose width is that of numbers, with a slope that nothing overflows with. -/
structure Rises (s : Segment) (inMax : Float32) : Prop where
  width_finite : (inMax - s.inMin).isFinite = true
  slope_finite : s.slope.isFinite = true
  slope_nonneg : 0 ≤ exact s.slope
  height_le : exact (inMax - s.inMin) * exact s.slope ≤ 2 ^ 26

section Between

variable {inMin inMax outMin outMax : Float32}

/-- A rounded quotient of a moderate height and a width that is not tiny does not overflow. -/
theorem slope_spec {height width : Float32} (hheight : Within (2 ^ 24) height)
    (hwidth : width.isFinite = true) (hwide : 1 / 2 ^ 23 ≤ exact width) :
    (height / width).isFinite = true ∧ 0 ≤ exact (height / width) ∧
      exact width * exact (height / width) ≤ 2 ^ 26 := by
  have hpos : 0 < exact width := hwide.trans_lt' (by norm_num)
  have hslope := div_rounds hheight.finite hwidth hpos.ne'
  have hnonneg : 0 ≤ exact height / exact width := div_nonneg hheight.nonneg hpos.le
  have hsteepest : exact height / exact width ≤ 2 ^ 47 := by
    rw [div_le_iff₀ hpos]
    linarith [hheight.le_top]
  have hrounded := rounded_le hnonneg
  have hleast : (2 : ℚ) ^ (-149 : ℤ) = 1 / 2 ^ 149 := by norm_num
  rw [hleast] at hrounded
  obtain ⟨hfinite, hexact⟩ := hslope.finite (by
    rw [abs_of_nonneg (rounded_nonneg hnonneg)]
    linarith)
  refine ⟨hfinite, hexact ▸ rounded_nonneg hnonneg, ?_⟩
  have hwidest := (abs_le.mp (abs_exact_le hwidth)).2
  rw [hexact]
  calc exact width * rounded (exact height / exact width)
      ≤ exact width * (2 * (exact height / exact width) + 1 / 2 ^ 149) :=
        mul_le_mul_of_nonneg_left hrounded hpos.le
    _ = 2 * exact height + exact width / 2 ^ 149 := by field_simp
    _ ≤ 2 ^ 26 := by linarith [hheight.le_top]

/-- A segment from moderate numbers to ones that are not smaller is flat, or it rises. -/
theorem between_flat_or_rises (hin : inMin.isFinite = true) (hin' : inMax.isFinite = true)
    (hinputs : exact inMin ≤ exact inMax) (hout : Within (2 ^ 24) outMin)
    (hout' : Within (2 ^ 24) outMax) (houtputs : exact outMin ≤ exact outMax) :
    ((between inMin inMax outMin outMax).slope.isFinite = true ∧
        exact (between inMin inMax outMin outMax).slope = 0) ∨
      (between inMin inMax outMin outMax).Rises inMax := by
  have hwidth := sub_rounds hin' hin
  have hheight : Within (2 ^ 24) (outMax - outMin) :=
    ((sub_rounds hout'.finite hout.finite).within (sub_nonneg.mpr houtputs) hout'.finite
      (sub_le_self _ hout.nonneg)).mono hout'.le_top
  by_cases htiny : (inMax - inMin).abs < epsilon
  · have hslope : (between inMin inMax outMin outMax).slope = 0 := if_pos htiny
    rw [hslope]
    exact .inl ⟨isFinite_zero, exact_zero⟩
  have hslope : (between inMin inMax outMin outMax).slope = (outMax - outMin) / (inMax - inMin) :=
    if_neg htiny
  by_cases hfinite : (inMax - inMin).isFinite = true
  -- a width that is not tiny keeps the quotient, and the climb over the width, in the range
  · have hwide := le_abs_exact hwidth.number htiny
    rw [abs_of_nonneg (hwidth.nonneg (sub_nonneg.mpr hinputs))] at hwide
    obtain ⟨hquotient, hupward, hmoderate⟩ := slope_spec hheight hfinite hwide
    right
    constructor
    · exact hfinite
    · rw [hslope]
      exact hquotient
    · rw [hslope]
      exact hupward
    · rw [hslope]
      exact hmoderate
  -- the width overflows, and the quotient by it is zero
  · rw [hslope]
    exact .inl (div_infinite hheight.finite hwidth.number (Bool.eq_false_iff.mpr hfinite))

end Between

namespace Rises

variable {s : Segment} {inMax x y : Float32}

/-- Inside the inputs the way from the start is no longer than the width. -/
theorem offset_within (h : s.Rises inMax) (hin : s.inMin.isFinite = true)
    (hin' : inMax.isFinite = true) (hx : x.isFinite = true) (hlow : exact s.inMin ≤ exact x)
    (hhigh : exact x ≤ exact inMax) : Within (exact (inMax - s.inMin)) (x - s.inMin) := by
  have hoffset := sub_rounds hx hin
  have hnonneg := hoffset.nonneg (sub_nonneg.mpr hlow)
  have hshorter := hoffset.mono (sub_rounds hin' hin) (sub_le_sub_right hhigh _)
  exact within_of_le hoffset.number hnonneg h.width_finite hshorter

/-- What the slope makes of such a way does not overflow. -/
theorem climb (h : s.Rises inMax) (hx : Within (exact (inMax - s.inMin)) x) :
    Rounds (x * s.slope) (exact x * exact s.slope) ∧ (x * s.slope).isFinite = true := by
  have hproduct := mul_rounds hx.finite h.slope_finite
  have hnonneg := mul_nonneg hx.nonneg h.slope_nonneg
  have htop := (mul_le_mul_of_nonneg_right hx.le_top h.slope_nonneg).trans h.height_le
  refine ⟨hproduct, (hproduct.finite (abs_rounded_lt ?_)).1⟩
  rw [abs_of_nonneg hnonneg]
  linarith

/-- A segment that rises keeps the order of its inputs. -/
theorem reach_mono (h : s.Rises inMax) (hin : s.inMin.isFinite = true)
    (hin' : inMax.isFinite = true) (hout : s.outMin.isFinite = true) (hx : x.isFinite = true)
    (hy : y.isFinite = true) (hlow : exact s.inMin ≤ exact x) (hle : exact x ≤ exact y)
    (hhigh : exact y ≤ exact inMax) : exact (s.reach x) ≤ exact (s.reach y) := by
  have hoffset := h.offset_within hin hin' hx hlow (hle.trans hhigh)
  have hoffset' := h.offset_within hin hin' hy (hlow.trans hle) hhigh
  obtain ⟨hclimb, hfinite⟩ := h.climb hoffset
  obtain ⟨hclimb', hfinite'⟩ := h.climb hoffset'
  -- the difference, the product and the sum are rounded, each in the order of the one before
  have hways := (sub_rounds hx hin).mono (sub_rounds hy hin) (sub_le_sub_right hle _)
  have hclimbs := hclimb.mono hclimb' (mul_le_mul_of_nonneg_right hways h.slope_nonneg)
  exact (add_rounds hout hfinite).mono (add_rounds hout hfinite') (add_le_add_right hclimbs _)

end Rises

end Segment

namespace VelocityMap

variable {m : VelocityMap}

/-- The segment between the two speeds of a map. -/
def segment (m : VelocityMap) : Segment :=
  Segment.between m.minPhysical m.maxPhysical (ofNat m.minOutput) (ofNat m.maxOutput)

theorem segment_inMin (m : VelocityMap) : m.segment.inMin = m.minPhysical := rfl

theorem segment_outMin (m : VelocityMap) : m.segment.outMin = ofNat m.minOutput := rfl

/-- A speed strictly between the two of a map. -/
structure Grades (m : VelocityMap) (speed : Float32) : Prop where
  number : speed.isNaN = false
  low : exact m.minPhysical < exact speed
  high : exact speed < exact m.maxPhysical

theorem Grades.isFinite {speed : Float32} (h : m.Grades speed) (hv : m.validate = .ok ()) :
    speed.isFinite = true := by
  obtain ⟨⟨hmin, hmax, -⟩, -⟩ := VelocityMap.validate_eq_ok.mp hv
  refine isFinite_of_abs_exact_lt h.number (abs_lt.mpr ⟨?_, ?_⟩)
  · exact (abs_lt.mp (abs_exact_lt hmin)).1.trans h.low
  · exact h.high.trans (abs_lt.mp (abs_exact_lt hmax)).2

/-- Strictly between its speeds, a map gives the whole part of what its segment reaches. -/
theorem Grades.intensity_eq {speed : Float32} (h : m.Grades speed) (hv : m.validate = .ok ()) :
    m.intensity speed =
      .ok (max m.minOutput (min ⌊exact (m.segment.reach speed)⌋₊ m.maxOutput)) := by
  obtain ⟨⟨hmin, hmax, -⟩, horder, hdata⟩ := VelocityMap.validate_eq_ok.mp hv
  have hfast : ¬ speed ≥ m.maxPhysical := by
    rw [ge_iff_le, le_iff_exact (isNaN_of_isFinite hmax) h.number, not_le]
    exact h.high
  have hslow : ¬ speed ≤ m.minPhysical := by
    rw [le_iff_exact h.number (isNaN_of_isFinite hmin), not_le]
    exact h.low
  have hleast := (ofNat_rounds (n := m.minOutput) (by omega)).number
  have hmost := (ofNat_rounds (n := m.maxOutput) (by omega)).number
  have hmap : m.segment.map speed = .ok (limit (m.segment.reach speed)
      (smaller (ofNat m.minOutput) (ofNat m.maxOutput))
      (larger (ofNat m.minOutput) (ofNat m.maxOutput))) :=
    Single.clamp_eq_ok (smaller_le_larger hleast hmost)
  rw [← toByte_limit horder (hdata.trans (by norm_num))]
  unfold intensity
  rw [if_neg hfast, if_neg hslow]
  change (m.segment.map speed >>= fun mapped =>
    Checked.clamp (toByte mapped) m.minOutput m.maxOutput) = _
  rw [hmap, Checked.ok_bind]
  exact Checked.clamp_eq_ok horder

theorem output_within {n : ℕ} (h : n ≤ 127) : Within (2 ^ 24) (ofNat n) := by
  obtain ⟨hfinite, hexact⟩ := exact_ofNat (n := n) (by omega)
  refine ⟨hfinite, ?_, ?_⟩
  · rw [hexact]
    exact Nat.cast_nonneg n
  · rw [hexact]
    exact_mod_cast h.trans (by norm_num)

/-- The segment of an accepted map is flat, or it rises. -/
theorem segment_flat_or_rises (hv : m.validate = .ok ()) :
    (m.segment.slope.isFinite = true ∧ exact m.segment.slope = 0) ∨
      m.segment.Rises m.maxPhysical := by
  obtain ⟨⟨hmin, hmax, hspeeds⟩, horder, hdata⟩ := VelocityMap.validate_eq_ok.mp hv
  rw [ge_iff_le, le_iff_exact (isNaN_of_isFinite hmax) (isNaN_of_isFinite hmin), not_le] at hspeeds
  refine Segment.between_flat_or_rises hmin hmax hspeeds.le (output_within (horder.trans hdata))
    (output_within hdata) ?_
  rw [(exact_ofNat (by omega)).2, (exact_ofNat (by omega)).2]
  exact_mod_cast horder

/-- Strictly between the speeds, the segment reaches no less for a faster crossing, or no more than
the least intensity for the slower one. -/
theorem Grades.reach_le {slow fast : Float32} (hslow : m.Grades slow) (hfast : m.Grades fast)
    (hv : m.validate = .ok ()) (h : exact slow ≤ exact fast) :
    exact (m.segment.reach slow) ≤ m.minOutput ∨
      exact (m.segment.reach slow) ≤ exact (m.segment.reach fast) := by
  obtain ⟨⟨hmin, hmax, -⟩, horder, hdata⟩ := VelocityMap.validate_eq_ok.mp hv
  have hleast := output_within (horder.trans hdata)
  rcases segment_flat_or_rises hv with ⟨hslope, hflat⟩ | hrises
  · left
    have hout : m.segment.outMin.isFinite = true := m.segment_outMin ▸ hleast.finite
    have hreach := Segment.exact_reach_of_flat hout (m.segment_outMin ▸ hleast.nonneg) hslope hflat slow
    rwa [segment_outMin, (exact_ofNat (by omega)).2] at hreach
  · right
    have hin : m.segment.inMin.isFinite = true := m.segment_inMin ▸ hmin
    have hout : m.segment.outMin.isFinite = true := m.segment_outMin ▸ hleast.finite
    exact hrises.reach_mono hin hmax hout (hslow.isFinite hv) (hfast.isFinite hv)
      (m.segment_inMin ▸ hslow.low.le) h hfast.high.le

/-- A faster crossing has no smaller intensity. -/
theorem intensity_mono (hv : m.validate = .ok ()) {slow fast : Float32} (h : slow ≤ fast) :
    ∃ v w, m.intensity slow = .ok v ∧ m.intensity fast = .ok w ∧ v ≤ w := by
  obtain ⟨v, hv₁, hleast, hmost⟩ := intensity_eq_ok hv slow
  obtain ⟨w, hv₂, hleast', hmost'⟩ := intensity_eq_ok hv fast
  refine ⟨v, w, hv₁, hv₂, ?_⟩
  by_cases hbelow : slow ≤ m.minPhysical
  · obtain rfl := Checked.ok_unique hv₁ (intensity_of_le hv hbelow)
    exact hleast'
  by_cases habove : fast ≥ m.maxPhysical
  · obtain rfl := Checked.ok_unique hv₂ (intensity_of_ge habove)
    exact hmost
  -- what is left is between the speeds
  obtain ⟨⟨hmin, hmax, -⟩, -⟩ := VelocityMap.validate_eq_ok.mp hv
  obtain ⟨hnumber, hnumber'⟩ := isNaN_of_le h
  rw [le_iff_exact hnumber hnumber'] at h
  rw [le_iff_exact hnumber (isNaN_of_isFinite hmin), not_le] at hbelow
  rw [ge_iff_le, le_iff_exact (isNaN_of_isFinite hmax) hnumber', not_le] at habove
  have hslow : m.Grades slow := ⟨hnumber, hbelow, h.trans_lt habove⟩
  have hfast : m.Grades fast := ⟨hnumber', hbelow.trans_le h, habove⟩
  obtain rfl := Checked.ok_unique hv₁ (hslow.intensity_eq hv)
  obtain rfl := Checked.ok_unique hv₂ (hfast.intensity_eq hv)
  rcases hslow.reach_le hfast hv h with hflat | hrises
  · have hfloor := Nat.floor_le_of_le hflat
    omega
  · have hfloor := Nat.floor_mono hrises
    omega

/-- A longer time is a slower crossing. -/
theorem physical_anti {distance elapsed later : ℕ} (hdistance : distance ≤ 2 ^ 24)
    (hle : elapsed ≤ later) (hlater : later ≤ Checked.max64) :
    physical distance later ≤ physical distance elapsed := by
  have hword : max later 1 < 2 ^ 64 := by
    unfold Checked.max64 at hlater
    omega
  have htimes : max elapsed 1 ≤ max later 1 := max_le_max_right 1 hle
  obtain ⟨hnum, hnum'⟩ := exact_ofNat hdistance
  obtain ⟨hshort, hshort'⟩ := ofNat_positive (le_max_right elapsed 1) (htimes.trans_lt hword)
  obtain ⟨hlong, hlong'⟩ := ofNat_positive (le_max_right later 1) hword
  have hgrows : exact (ofNat (max elapsed 1)) ≤ exact (ofNat (max later 1)) :=
    (ofNat_rounds (htimes.trans_lt hword)).mono (ofNat_rounds hword) (by exact_mod_cast htimes)
  have hslow := div_rounds hnum hlong (by linarith)
  have hfast := div_rounds hnum hshort (by linarith)
  unfold physical
  rw [le_iff_exact hslow.number hfast.number]
  refine hslow.mono hfast ?_
  rw [hnum']
  exact div_le_div_of_nonneg_left (Nat.cast_nonneg _) (by linarith) hgrows

end VelocityMap

namespace VelocityConfig

variable {c : VelocityConfig}

/-- No time at all counts as one millisecond. -/
theorem velocityFor_zero (c : VelocityConfig) : c.velocityFor 0 = c.velocityFor 1 := rfl

/-- A note that took longer has no greater velocity. -/
theorem velocityFor_anti (hv : c.validate = .ok ()) {elapsed later : ℕ} (hle : elapsed ≤ later)
    (hlater : later ≤ Checked.max64) :
    ∃ v w, c.velocityFor later = .ok v ∧ c.velocityFor elapsed = .ok w ∧ v ≤ w := by
  obtain ⟨hinput, hmap, horder, htop⟩ := VelocityConfig.validate_eq_ok.mp hv
  obtain ⟨-, hwidest, -⟩ := InputRange.validate_eq_ok.mp hinput
  have hdistance : c.trigger - c.minNote ≤ 2 ^ 24 := by
    unfold InputRange.widest at hwidest
    omega
  unfold velocityFor distance
  rw [Checked.sub_eq_ok horder.le, Checked.ok_bind, Checked.ok_bind]
  exact VelocityMap.intensity_mono hmap (VelocityMap.physical_anti hdistance hle hlater)

end VelocityConfig

/-- An accepted map gives every speed, also one that is no number, an intensity between its two, the
least up to its slowest speed and the greatest from its fastest, and none that falls when the speed
grows. So a trigger with the map never gives more velocity for more time. -/
theorem VelocityMap.intensity_monotone {m : VelocityMap} (hv : m.validate = .ok ()) :
    (∀ speed, ∃ v, m.intensity speed = .ok v ∧ m.minOutput ≤ v ∧ v ≤ m.maxOutput) ∧
      (∀ speed, speed ≤ m.minPhysical → m.intensity speed = .ok m.minOutput) ∧
      (∀ speed, speed ≥ m.maxPhysical → m.intensity speed = .ok m.maxOutput) ∧
      (∀ slow fast, slow ≤ fast →
        ∃ v w, m.intensity slow = .ok v ∧ m.intensity fast = .ok w ∧ v ≤ w) ∧
      ∀ c : VelocityConfig, c.velocity = m → c.validate = .ok () →
        (∀ elapsed later, elapsed ≤ later → later ≤ Checked.max64 →
          ∃ v w, c.velocityFor later = .ok v ∧ c.velocityFor elapsed = .ok w ∧ v ≤ w) ∧
        c.velocityFor 0 = c.velocityFor 1 := by
  refine ⟨intensity_eq_ok hv, fun _ h => intensity_of_le hv h, fun _ h => intensity_of_ge h,
    fun _ _ h => intensity_mono hv h, ?_⟩
  rintro c rfl hc
  constructor
  · intro elapsed later hle hlater
    exact VelocityConfig.velocityFor_anti hc hle hlater
  · exact c.velocityFor_zero

/-- A pad whose slowest and fastest speed are the ends of the range, further apart than any number. -/
def widestPad : VelocityConfig where
  minNote := 40
  trigger := 60
  velocity := { minPhysical := .ofBits 0xFF7FFFFF, maxPhysical := .ofBits 0x7F7FFFFF }

/-- The width of the pad overflows, and still its velocities are in order. -/
theorem widestPad_monotone :
    widestPad.velocity.validate = .ok () ∧ widestPad.validate = .ok () ∧
      (widestPad.velocity.maxPhysical - widestPad.velocity.minPhysical).isFinite = false ∧
      (∃ v w, widestPad.velocity.intensity (-1) = .ok v ∧ widestPad.velocity.intensity 1 = .ok w ∧
        v ≤ w) ∧
      ∃ v w, widestPad.velocityFor 30 = .ok v ∧ widestPad.velocityFor 10 = .ok w ∧ v ≤ w := by
  have hm : widestPad.velocity.validate = .ok () := Checked.eq_ok_of_isOk (by decide +kernel)
  have hv : widestPad.validate = .ok () := Checked.eq_ok_of_isOk (by decide +kernel)
  obtain ⟨-, -, -, hspeeds, hpads⟩ := VelocityMap.intensity_monotone hm
  obtain ⟨htimes, -⟩ := hpads widestPad rfl hv
  exact ⟨hm, hv, by decide +kernel, hspeeds (-1) 1 (by decide +kernel),
    htimes 10 30 (by decide) (by decide)⟩

end SensorEvents

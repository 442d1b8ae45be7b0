import SensorEvents.Proofs.Scaling.Faultless
import SensorEvents.Proofs.Single.Selection

/-!
# Velocities without faults

The clamp in the middle of a velocity map has bounds that are numbers, whatever the speeds are, so
that an accepted map gives an intensity between its two intensities for every speed.
-/
namespace SensorEvents

theorem Single.clamp_eq_ok {x lo hi : Float32} (h : lo ≤ hi) :
    Single.clamp x lo hi = .ok (Single.limit x lo hi) := if_pos h

/-- A segment between numbers maps every signal, also one that is not a number. -/
theorem Segment.map_eq_ok (inMin inMax : Float32) {outMin outMax : Float32}
    (hmin : outMin.isNaN = false) (hmax : outMax.isNaN = false) (x : Float32) :
    ∃ y, (Segment.between inMin inMax outMin outMax).map x = .ok y :=
  ⟨_, Single.clamp_eq_ok (Single.smaller_le_larger hmin hmax)⟩

/-- An accepted map gives every speed an intensity between its two. -/
theorem VelocityMap.intensity_eq_ok {m : VelocityMap} (hv : m.validate = .ok ())
    (speed : Float32) :
    ∃ v, m.intensity speed = .ok v ∧ m.minOutput ≤ v ∧ v ≤ m.maxOutput := by
  obtain ⟨-, horder, hmax⟩ := VelocityMap.validate_eq_ok.mp hv
  unfold intensity
  split_ifs
  · exact ⟨_, rfl, horder, le_rfl⟩
  · exact ⟨_, rfl, le_rfl, horder⟩
  · have hlow := (Single.ofNat_rounds (n := m.minOutput) (by omega)).number
    have hhigh := (Single.ofNat_rounds (n := m.maxOutput) (by omega)).number
    obtain ⟨y, hy⟩ := Segment.map_eq_ok m.minPhysical m.maxPhysical hlow hhigh speed
    simp only [hy, Checked.ok_bind]
    exact ⟨_, Checked.clamp_eq_ok horder, by omega, by omega⟩

/-- The fastest speed of a map and everything above it have the greatest intensity. -/
theorem VelocityMap.intensity_of_ge {m : VelocityMap} {speed : Float32} (h : speed ≥ m.maxPhysical) :
    m.intensity speed = .ok m.maxOutput := if_pos h

/-- The slowest speed of an accepted map and everything below it have the least intensity. -/
theorem VelocityMap.intensity_of_le {m : VelocityMap} (hv : m.validate = .ok ()) {speed : Float32}
    (h : speed ≤ m.minPhysical) : m.intensity speed = .ok m.minOutput := by
  obtain ⟨⟨hlow, hhigh, horder⟩, -⟩ := VelocityMap.validate_eq_ok.mp hv
  have hlow' := Single.isNaN_of_isFinite hlow
  have hhigh' := Single.isNaN_of_isFinite hhigh
  have hslow : ¬ speed ≥ m.maxPhysical := by
    intro hfast
    have hspeed := (Single.isNaN_of_le h).1
    rw [ge_iff_le, Single.le_iff_exact hhigh' hlow'] at horder
    rw [ge_iff_le, Single.le_iff_exact hhigh' hspeed] at hfast
    rw [Single.le_iff_exact hspeed hlow'] at h
    exact horder (hfast.trans h)
  unfold intensity
  rw [if_neg hslow, if_pos h]

/-- An accepted velocity trigger can time every crossing, with a velocity inside its range. -/
theorem VelocityConfig.velocityFor_eq_ok {c : VelocityConfig} (hv : c.validate = .ok ())
    (elapsed : Nat) :
    ∃ v, c.velocityFor elapsed = .ok v ∧ c.velocity.minOutput ≤ v ∧ v ≤ c.velocity.maxOutput := by
  obtain ⟨-, hmap, horder, -⟩ := VelocityConfig.validate_eq_ok.mp hv
  unfold velocityFor distance
  rw [Checked.sub_eq_ok horder.le, Checked.ok_bind]
  exact VelocityMap.intensity_eq_ok hmap (VelocityMap.physical (c.trigger - c.minNote) elapsed)

end SensorEvents

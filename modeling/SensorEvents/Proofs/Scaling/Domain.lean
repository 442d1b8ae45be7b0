import SensorEvents.Proofs.Scaling.Saturation

/-!
# The domain of an input range

An accepted range clips a value, or takes its share of a mapped range, and may turn the result
upside down; it takes every value into its domain, and turning it around mirrors every value
exactly. A mapped range does not overflow, since its domain has 14 bits at most. Some reading ends
at the top of the domain, so that a threshold inside it is in reach.
-/
namespace SensorEvents

namespace WholeRange

variable {x inMin inMax outMax : Nat}

/-- A reading inside its range is mapped upwards by its share of the output range. -/
theorem map_up (hlow : inMin ≤ x) (hhigh : x ≤ inMax) (hlt : inMin < inMax)
    (hin : inMax ≤ Checked.max32) (hmax : outMax ≤ InputRange.widest) :
    map x inMin inMax 0 outMax = .ok ((x - inMin) * outMax / (inMax - inMin)) := by
  have hfit : ¬ Overflows x inMin inMax 0 outMax :=
    not_overflows (hhigh.trans hin) (hlt.le.trans hin) (by decide)
      (Nat.lt_of_le_of_lt hmax (by decide))
  rw [map_eq hfit, if_neg hlt.ne, saturated_up hlt (Nat.zero_le _) hlow hhigh, Nat.zero_add,
    Nat.sub_zero]

/-- The same upside down. -/
theorem map_down (hlow : inMin ≤ x) (hhigh : x ≤ inMax) (hlt : inMin < inMax)
    (hin : inMax ≤ Checked.max32) (hmax : outMax ≤ InputRange.widest) :
    map x inMin inMax outMax 0 = .ok (outMax - (x - inMin) * outMax / (inMax - inMin)) := by
  have hfit : ¬ Overflows x inMin inMax outMax 0 :=
    not_overflows (hhigh.trans hin) (hlt.le.trans hin) (Nat.lt_of_le_of_lt hmax (by decide))
      (by decide)
  rw [map_eq hfit, if_neg hlt.ne, saturated_down hlt (Nat.zero_le _) hlow hhigh, Nat.sub_zero]

end WholeRange

namespace InputRange

/-- What a range makes of a value before it may turn it upside down. -/
def upright (r : InputRange) (value : Nat) : Nat :=
  match r.minInput, r.maxInput with
  | some low, some high => (max low (min value high) - low) * r.outputMax / (high - low)
  | _, _ => min value r.outputMax

theorem apply_eq {r : InputRange} (hv : r.validate = .ok ()) (hf : r.Fits) (value : Nat) :
    r.apply value =
      .ok (if r.invert then r.outputMax - r.upright value else r.upright value) := by
  obtain ⟨-, hwidest, hordered⟩ := validate_eq_ok.mp hv
  obtain ⟨minInput, maxInput, invert, outputMax⟩ := r
  match minInput, maxInput with
  | some low, some high =>
    have hlt : low < high := hordered
    have hhigh : high ≤ Checked.max32 := hf.2 high rfl
    simp only [apply, upright, Checked.clamp_eq_ok hlt.le, Checked.ok_bind]
    have hlow' : low ≤ max low (min value high) := Nat.le_max_left ..
    have hhigh' : max low (min value high) ≤ high := by omega
    cases invert with
    | false => exact WholeRange.map_up hlow' hhigh' hlt hhigh hwidest
    | true => exact WholeRange.map_down hlow' hhigh' hlt hhigh hwidest
  | some _, none => exact hordered.elim
  | none, some _ => exact hordered.elim
  | none, none =>
    cases invert with
    | false => rfl
    | true => exact Checked.sub_eq_ok (Nat.min_le_right ..)

theorem upright_le {r : InputRange} (hv : r.validate = .ok ()) (value : Nat) :
    r.upright value ≤ r.outputMax := by
  obtain ⟨-, -, hordered⟩ := validate_eq_ok.mp hv
  obtain ⟨minInput, maxInput, invert, outputMax⟩ := r
  match minInput, maxInput with
  | some low, some high =>
    have hlt : low < high := hordered
    exact WholeRange.share_le (by omega) low outputMax
  | some _, none => exact hordered.elim
  | none, some _ => exact hordered.elim
  | none, none => exact Nat.min_le_right ..

/-- An accepted range takes every value into its domain. -/
theorem apply_eq_ok {r : InputRange} (hv : r.validate = .ok ()) (hf : r.Fits) (value : Nat) :
    ∃ v, r.apply value = .ok v ∧ v ≤ r.outputMax := by
  refine ⟨_, apply_eq hv hf value, ?_⟩
  split_ifs
  · exact Nat.sub_le ..
  · exact upright_le hv value

/-- Some reading is taken to the bottom of the domain and some reading to its top. -/
theorem exists_upright (r : InputRange) (hv : r.validate = .ok ()) (hf : r.Fits) :
    (∃ value ≤ Checked.max32, r.upright value = 0) ∧
      ∃ value ≤ Checked.max32, r.upright value = r.outputMax := by
  obtain ⟨-, hwidest, hordered⟩ := validate_eq_ok.mp hv
  obtain ⟨minInput, maxInput, invert, outputMax⟩ := r
  match minInput, maxInput with
  | some low, some high =>
    have hlt : low < high := hordered
    refine ⟨⟨low, hf.1 low rfl, ?_⟩, high, hf.2 high rfl, ?_⟩
    · simp [upright, hlt.le]
    · simp only [upright, min_self, max_eq_right hlt.le]
      exact Nat.mul_div_cancel_left _ (Nat.sub_pos_of_lt hlt)
  | some _, none => exact hordered.elim
  | none, some _ => exact hordered.elim
  | none, none =>
    simp only [widest] at hwidest
    refine ⟨⟨0, Nat.zero_le _, Nat.zero_min _⟩, outputMax, ?_, Nat.min_self _⟩
    simp only [Checked.max32]
    omega

/-- Some reading is taken to the top of the domain, also where a range is turned upside down. -/
theorem exists_apply_eq_outputMax {r : InputRange} (hv : r.validate = .ok ()) (hf : r.Fits) :
    ∃ value ≤ Checked.max32, r.apply value = .ok r.outputMax := by
  obtain ⟨⟨bottom, hbottom, hzero⟩, top, htop, hmax⟩ := r.exists_upright hv hf
  cases hinvert : r.invert with
  | false => exact ⟨top, htop, by rw [apply_eq hv hf, hinvert, hmax]; rfl⟩
  | true => exact ⟨bottom, hbottom, by rw [apply_eq hv hf, hinvert, hzero]; rfl⟩

theorem upright_mono (r : InputRange) : Monotone r.upright := by
  intro value larger hle
  obtain ⟨minInput, maxInput, invert, outputMax⟩ := r
  have hclip : min value outputMax ≤ min larger outputMax := min_le_min_right _ hle
  match minInput, maxInput with
  | some low, some high =>
    have hclamp : max low (min value high) - low ≤ max low (min larger high) - low := by omega
    exact Nat.div_le_div_right (Nat.mul_le_mul_right outputMax hclamp)
  | some _, none => exact hclip
  | none, some _ => exact hclip
  | none, none => exact hclip

/-- What a range does to values, as a function of the value. -/
structure Prepares (r : InputRange) (f : Nat → Nat) : Prop where
  apply_eq : ∀ value, r.apply value = .ok (f value)
  flipped_eq : ∀ value,
    { r with invert := !r.invert : InputRange }.apply value = .ok (r.outputMax - f value)
  clips : r.invert = false → r.minInput = none → r.maxInput = none →
    ∀ value, f value = min value r.outputMax
  scales : r.invert = false → ∀ low high, r.minInput = some low → r.maxInput = some high →
    ∀ value, f value = (max low (min value high) - low) * r.outputMax / (high - low)
  le_outputMax : ∀ value, f value ≤ r.outputMax
  mono : r.invert = false → Monotone f
  anti : r.invert = true → Antitone f
  bottom : ∃ value ≤ Checked.max32, f value = 0
  top : ∃ value ≤ Checked.max32, f value = r.outputMax

theorem flipped_eq {r : InputRange} (hv : r.validate = .ok ()) (hf : r.Fits) (value : Nat) :
    { r with invert := !r.invert : InputRange }.apply value =
      .ok (if !r.invert then r.outputMax - r.upright value else r.upright value) :=
  @apply_eq { r with invert := !r.invert } hv hf value

theorem prepares_upright {r : InputRange} (hv : r.validate = .ok ()) (hf : r.Fits)
    (hinvert : r.invert = false) : r.Prepares r.upright where
  apply_eq value := by rw [apply_eq hv hf, hinvert]; rfl
  flipped_eq value := by rw [flipped_eq hv hf, hinvert]; rfl
  clips _ hlow hhigh value := by rw [upright, hlow, hhigh]
  scales _ low high hlow hhigh value := by rw [upright, hlow, hhigh]
  le_outputMax := upright_le hv
  mono _ := r.upright_mono
  anti hdown := absurd hdown (by rw [hinvert]; decide)
  bottom := (r.exists_upright hv hf).1
  top := (r.exists_upright hv hf).2

theorem prepares_mirrored {r : InputRange} (hv : r.validate = .ok ()) (hf : r.Fits)
    (hinvert : r.invert = true) : r.Prepares fun value => r.outputMax - r.upright value where
  apply_eq value := by rw [apply_eq hv hf, hinvert]; rfl
  flipped_eq value := by
    rw [flipped_eq hv hf, hinvert, Nat.sub_sub_self (upright_le hv value)]
    rfl
  clips hup := absurd hup (by rw [hinvert]; decide)
  scales hup := absurd hup (by rw [hinvert]; decide)
  le_outputMax value := Nat.sub_le ..
  mono hup := absurd hup (by rw [hinvert]; decide)
  anti _ value larger hle := Nat.sub_le_sub_left (r.upright_mono hle) _
  bottom := by
    obtain ⟨value, hvalue, hmax⟩ := (r.exists_upright hv hf).2
    exact ⟨value, hvalue, by rw [hmax, Nat.sub_self]⟩
  top := by
    obtain ⟨value, hvalue, hzero⟩ := (r.exists_upright hv hf).1
    exact ⟨value, hvalue, by rw [hzero, Nat.sub_zero]⟩

/-- An accepted range clips a value to its domain, or takes the share of the domain that belongs to
it in the mapped range; turned around, it gives exactly what the value leaves of the domain. So it
goes up or down with the value, and takes some values to the bottom and to the top of the domain. -/
theorem exists_prepares {r : InputRange} (hv : r.validate = .ok ()) (hf : r.Fits) :
    ∃ f, r.Prepares f := by
  cases hinvert : r.invert with
  | false => exact ⟨_, prepares_upright hv hf hinvert⟩
  | true => exact ⟨_, prepares_mirrored hv hf hinvert⟩

/-- A distance that counts for more when it is shorter. -/
theorem distance_prepared :
    (⟨some 50, some 550, true, 127⟩ : InputRange).validate = .ok () ∧
      (⟨some 50, some 550, true, 127⟩ : InputRange).Fits ∧
      ∃ f, (⟨some 50, some 550, true, 127⟩ : InputRange).Prepares f ∧ f 300 = 64 := by
  have hv : (⟨some 50, some 550, true, 127⟩ : InputRange).validate = .ok () := rfl
  have hf : (⟨some 50, some 550, true, 127⟩ : InputRange).Fits := by decide
  obtain ⟨f, hprepares⟩ := exists_prepares hv hf
  have hmiddle : (⟨some 50, some 550, true, 127⟩ : InputRange).apply 300 = .ok 64 := by decide
  exact ⟨hv, hf, f, hprepares, Checked.ok_unique (hprepares.apply_eq 300) hmiddle⟩

end InputRange

end SensorEvents

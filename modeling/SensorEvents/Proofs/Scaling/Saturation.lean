import SensorEvents.Proofs.Scaling.Faultless
import SensorEvents.Scaling.InputRange

/-!
# Readings outside the input range

On whole numbers of any size the map is a line through the ends of the two ranges, kept inside the
output range: it is monotone, and a reading outside the input range ends at the nearer end. The map
has that result just as long as its intermediate results fit in 64 signed bits. They always do when
the ends of the output range have 31 bits; with 32 bits they may not.
-/
namespace SensorEvents

theorem Checked.int64_eq_error {z : Int} (h : z < -2 ^ 63 ∨ 2 ^ 63 ≤ z) :
    int64 z = .error .overflow :=
  if_neg (by omega)

namespace WholeRange

/-- Where the line through the ends of the ranges is at a reading, cut toward zero. -/
def line (x inMin inMax outMin outMax : Nat) : Int :=
  (((x : Int) - inMin) * ((outMax : Int) - outMin)).tdiv ((inMax : Int) - inMin) + outMin

/-- The line, kept inside the output range. -/
def saturated (x inMin inMax outMin outMax : Nat) : Nat :=
  (max ((min outMin outMax : Nat) : Int)
    (min (line x inMin inMax outMin outMax) ((max outMin outMax : Nat) : Int))).toNat

/-- The product of the two distances or the sum that follows needs more than 64 signed bits. -/
def Overflows (x inMin inMax outMin outMax : Nat) : Prop :=
  inMin ≠ inMax ∧
    (2 ^ 63 ≤ ((x : Int) - inMin).natAbs * ((outMax : Int) - outMin).natAbs ∨
      2 ^ 63 ≤ line x inMin inMax outMin outMax)

variable {x y inMin inMax outMin outMax : Nat}

/-! ## The line -/

theorem line_inMin (inMin inMax outMin outMax : Nat) :
    line inMin inMin inMax outMin outMax = outMin := by
  unfold line
  rw [Int.sub_self, Int.zero_mul, Int.zero_tdiv, Int.zero_add]

theorem line_inMax (h : inMin < inMax) (outMin outMax : Nat) :
    line inMax inMin inMax outMin outMax = outMax := by
  unfold line
  rw [Int.mul_tdiv_cancel_left _ (by omega), Int.sub_add_cancel]

theorem line_mono (h : inMin < inMax) (hout : outMin ≤ outMax) (hxy : x ≤ y) :
    line x inMin inMax outMin outMax ≤ line y inMin inMax outMin outMax := by
  have hproduct : ((x : Int) - inMin) * ((outMax : Int) - outMin) ≤
      ((y : Int) - inMin) * ((outMax : Int) - outMin) :=
    Int.mul_le_mul_of_nonneg_right (by omega) (by omega)
  exact Int.add_le_add_right (Int.tdiv_le_tdiv (by omega) hproduct) _

theorem line_anti (h : inMin < inMax) (hout : outMax ≤ outMin) (hxy : x ≤ y) :
    line y inMin inMax outMin outMax ≤ line x inMin inMax outMin outMax := by
  have hproduct : ((y : Int) - inMin) * ((outMax : Int) - outMin) ≤
      ((x : Int) - inMin) * ((outMax : Int) - outMin) :=
    Int.mul_le_mul_of_nonpos_right (by omega) (by omega)
  exact Int.add_le_add_right (Int.tdiv_le_tdiv (by omega) hproduct) _

/-! ## The line kept inside -/

theorem saturated_between (x inMin inMax outMin outMax : Nat) :
    min outMin outMax ≤ saturated x inMin inMax outMin outMax ∧
      saturated x inMin inMax outMin outMax ≤ max outMin outMax := by
  unfold saturated
  omega

theorem saturated_le (h : line x inMin inMax outMin outMax ≤ line y inMin inMax outMin outMax) :
    saturated x inMin inMax outMin outMax ≤ saturated y inMin inMax outMin outMax := by
  unfold saturated
  omega

theorem saturated_below (h : inMin < inMax) (hx : x ≤ inMin) :
    saturated x inMin inMax outMin outMax = outMin := by
  have hend := line_inMin inMin inMax outMin outMax
  unfold saturated
  rcases Nat.le_total outMin outMax with hout | hout
  · have := line_mono h hout hx
    omega
  · have := line_anti h hout hx
    omega

theorem saturated_above (h : inMin < inMax) (hx : inMax ≤ x) :
    saturated x inMin inMax outMin outMax = outMax := by
  have hend := line_inMax h outMin outMax
  unfold saturated
  rcases Nat.le_total outMin outMax with hout | hout
  · have := line_mono h hout hx
    omega
  · have := line_anti h hout hx
    omega

/-- The share of a width that belongs to a reading inside the input range. -/
theorem share_le (hx : x ≤ inMax) (inMin width : Nat) :
    (x - inMin) * width / (inMax - inMin) ≤ width :=
  Nat.div_le_of_le_mul (Nat.mul_le_mul_right _ (Nat.sub_le_sub_right hx _))

/-- Inside the input range an upward map adds the share of the output range, cut to a whole
number. -/
theorem saturated_up (h : inMin < inMax) (hout : outMin ≤ outMax) (hlow : inMin ≤ x)
    (hhigh : x ≤ inMax) :
    saturated x inMin inMax outMin outMax =
      outMin + (x - inMin) * (outMax - outMin) / (inMax - inMin) := by
  have hshare := share_le hhigh inMin (outMax - outMin)
  unfold saturated line
  rw [← Nat.cast_sub hlow, ← Nat.cast_sub hout, ← Nat.cast_sub h.le, ← Nat.cast_mul,
    ← Int.ofNat_tdiv]
  generalize (x - inMin) * (outMax - outMin) / (inMax - inMin) = share at hshare ⊢
  omega

/-- A downward map takes the same share away. -/
theorem saturated_down (h : inMin < inMax) (hout : outMax ≤ outMin) (hlow : inMin ≤ x)
    (hhigh : x ≤ inMax) :
    saturated x inMin inMax outMin outMax =
      outMin - (x - inMin) * (outMin - outMax) / (inMax - inMin) := by
  have hshare := share_le hhigh inMin (outMin - outMax)
  have hwidth : (outMax : Int) - outMin = -((outMin - outMax : Nat) : Int) := by omega
  unfold saturated line
  rw [← Nat.cast_sub hlow, hwidth, ← Nat.cast_sub h.le, Int.mul_neg, ← Nat.cast_mul, Int.neg_tdiv,
    ← Int.ofNat_tdiv]
  generalize (x - inMin) * (outMin - outMax) / (inMax - inMin) = share at hshare ⊢
  omega

/-! ## Results in 64 bits -/

/-- Two words of 32 bits do not have the product `2 ^ 63`, so its sign does not matter. -/
theorem mul_ne_two_pow {a b : Nat} (ha : a < 2 ^ 32) (hb : b < 2 ^ 32) : a * b ≠ 2 ^ 63 := by
  intro hproduct
  obtain ⟨k, -, rfl⟩ := (Nat.dvd_prime_pow Nat.prime_two).mp (Dvd.intro b hproduct)
  have hk : k < 32 := (Nat.pow_lt_pow_iff_right (by decide)).mp ha
  have hpow : 2 ^ k ≤ 2 ^ 31 := Nat.pow_le_pow_right (by decide) (Nat.le_of_lt_succ hk)
  have hless := Nat.mul_lt_mul_of_le_of_lt hpow hb (by decide)
  omega

/-- The readings and ends of a map are words of 32 bits. -/
structure Words (x inMin inMax outMin outMax : Nat) : Prop where
  reading : x ≤ Checked.max32
  inMin : inMin ≤ Checked.max32
  inMax : inMax ≤ Checked.max32
  outMin : outMin ≤ Checked.max32
  outMax : outMax ≤ Checked.max32

/-- Once the product fits, so does the quotient, and only the sum is left to check. -/
theorem map_eq_bind (hpoint : inMin ≠ inMax)
    (hproduct : ((x : Int) - inMin).natAbs * ((outMax : Int) - outMin).natAbs < 2 ^ 63) :
    map x inMin inMax outMin outMax = (do
      let mapped ← Checked.int64 (line x inMin inMax outMin outMax)
      return (max ((min outMin outMax : Nat) : Int)
        (min mapped ((max outMin outMax : Nat) : Int))).toNat) := by
  rw [← Int.natAbs_mul] at hproduct
  have hquotient := Int.natAbs_tdiv_le_natAbs (((x : Int) - inMin) * ((outMax : Int) - outMin))
    ((inMax : Int) - inMin)
  unfold map
  rw [if_neg hpoint, Checked.int64_eq_ok hproduct, Checked.ok_bind, Checked.int64_eq_ok (by omega),
    Checked.ok_bind]
  rfl

theorem map_eq (h : ¬ Overflows x inMin inMax outMin outMax) :
    map x inMin inMax outMin outMax =
      .ok (if inMin = inMax then outMin else saturated x inMin inMax outMin outMax) := by
  by_cases hpoint : inMin = inMax
  · rw [if_pos hpoint]
    exact if_pos hpoint
  simp only [Overflows, not_and, not_or, Nat.not_le, Int.not_le] at h
  obtain ⟨hproduct, hsum⟩ := h hpoint
  have hquotient := Int.natAbs_tdiv_le_natAbs (((x : Int) - inMin) * ((outMax : Int) - outMin))
    ((inMax : Int) - inMin)
  rw [Int.natAbs_mul] at hquotient
  have hline : (line x inMin inMax outMin outMax).natAbs < 2 ^ 63 := by
    unfold line at hsum ⊢
    omega
  rw [map_eq_bind hpoint hproduct, Checked.int64_eq_ok hline, Checked.ok_bind, if_neg hpoint]
  rfl

theorem map_eq_overflow (hw : Words x inMin inMax outMin outMax)
    (h : Overflows x inMin inMax outMin outMax) :
    map x inMin inMax outMin outMax = .error .overflow := by
  obtain ⟨hpoint, hlarge⟩ := h
  by_cases hproduct : ((x : Int) - inMin).natAbs * ((outMax : Int) - outMin).natAbs < 2 ^ 63
  · have hsum := hlarge.resolve_left (Nat.not_le.mpr hproduct)
    rw [map_eq_bind hpoint hproduct, Checked.int64_eq_error (.inr hsum), Checked.error_bind]
  · obtain ⟨hx, hinMin, hinMax, houtMin, houtMax⟩ := hw
    simp only [Checked.max32] at hx hinMin hinMax houtMin houtMax
    have hne : ((x : Int) - inMin).natAbs * ((outMax : Int) - outMin).natAbs ≠ 2 ^ 63 :=
      mul_ne_two_pow (by omega) (by omega)
    rw [← Int.natAbs_mul] at hproduct hne
    unfold map
    rw [if_neg hpoint, Checked.int64_eq_error (by omega), Checked.error_bind]

/-- Whatever the reading and the input range, 31 bits are enough for the output range. -/
theorem not_overflows (hx : x ≤ Checked.max32) (hinMin : inMin ≤ Checked.max32)
    (houtMin : outMin < 2 ^ 31) (houtMax : outMax < 2 ^ 31) :
    ¬ Overflows x inMin inMax outMin outMax := by
  simp only [Checked.max32] at hx hinMin
  have hproduct : ((x : Int) - inMin).natAbs * ((outMax : Int) - outMin).natAbs ≤
      (2 ^ 32 - 1) * (2 ^ 31 - 1) := Nat.mul_le_mul (by omega) (by omega)
  have hquotient := Int.natAbs_tdiv_le_natAbs (((x : Int) - inMin) * ((outMax : Int) - outMin))
    ((inMax : Int) - inMin)
  rw [Int.natAbs_mul] at hquotient
  rintro ⟨-, hlarge | hlarge⟩
  · omega
  · unfold line at hlarge
    omega

/-! ## What the map comes to -/

/-- What a map comes to. -/
structure Saturates (x inMin inMax outMin outMax v : Nat) : Prop where
  least : min outMin outMax ≤ v
  greatest : v ≤ max outMin outMax
  point : inMin = inMax → v = outMin
  below : inMin < inMax → x ≤ inMin → v = outMin
  above : inMin < inMax → inMax ≤ x → v = outMax
  up : inMin ≤ x → x ≤ inMax → inMin < inMax → outMin ≤ outMax →
    v = outMin + (x - inMin) * (outMax - outMin) / (inMax - inMin)
  down : inMin ≤ x → x ≤ inMax → inMin < inMax → outMax ≤ outMin →
    v = outMin - (x - inMin) * (outMin - outMax) / (inMax - inMin)

theorem saturates (x inMin inMax outMin outMax : Nat) : Saturates x inMin inMax outMin outMax
    (if inMin = inMax then outMin else saturated x inMin inMax outMin outMax) where
  least := by
    split_ifs
    · exact Nat.min_le_left ..
    · exact (saturated_between ..).1
  greatest := by
    split_ifs
    · exact Nat.le_max_left ..
    · exact (saturated_between ..).2
  point hpoint := if_pos hpoint
  below hlt hx := by rw [if_neg hlt.ne, saturated_below hlt hx]
  above hlt hx := by rw [if_neg hlt.ne, saturated_above hlt hx]
  up hlow hhigh hlt hout := by rw [if_neg hlt.ne, saturated_up hlt hout hlow hhigh]
  down hlow hhigh hlt hout := by rw [if_neg hlt.ne, saturated_down hlt hout hlow hhigh]

/-- The map of words overflows just when one of its intermediate results does, and with an output
range of 31 bits it never does. If it does not, it is the line kept inside the output range: it ends
at the nearer end for a reading outside the input range, and goes the way of the output range. -/
theorem map_saturates_iff (hw : Words x inMin inMax outMin outMax) :
    (map x inMin inMax outMin outMax = .error .overflow ↔ Overflows x inMin inMax outMin outMax) ∧
      (outMin < 2 ^ 31 → outMax < 2 ^ 31 → ¬ Overflows x inMin inMax outMin outMax) ∧
      (¬ Overflows x inMin inMax outMin outMax →
        ∃ v, map x inMin inMax outMin outMax = .ok v ∧ Saturates x inMin inMax outMin outMax v ∧
          ∀ y, ¬ Overflows y inMin inMax outMin outMax →
            ∃ w, map y inMin inMax outMin outMax = .ok w ∧ (inMin < inMax → x ≤ y →
              (outMin ≤ outMax → v ≤ w) ∧ (outMax ≤ outMin → w ≤ v))) := by
  refine ⟨⟨fun hfault => ?_, map_eq_overflow hw⟩, not_overflows hw.reading hw.inMin, fun hfit => ?_⟩
  · by_contra hfit
    cases (map_eq hfit).symm.trans hfault
  · refine ⟨_, map_eq hfit, saturates .., fun y hfit' => ⟨_, map_eq hfit', fun hlt hxy => ?_⟩⟩
    rw [if_neg hlt.ne, if_neg hlt.ne]
    exact ⟨fun hout => saturated_le (line_mono hlt hout hxy),
      fun hout => saturated_le (line_anti hlt hout hxy)⟩

/-- A reading of the whole width, mapped to an output range of 31 bits and one point. -/
theorem full_width_saturates :
    Words 4294967295 0 4294967295 2147483648 0 ∧
      ¬ Overflows 4294967295 0 4294967295 2147483648 0 ∧
        ∃ v, map 4294967295 0 4294967295 2147483648 0 = .ok v ∧ v = 0 := by
  have hw : Words 4294967295 0 4294967295 2147483648 0 := by
    constructor <;> decide
  obtain ⟨hoverflow, -, hresult⟩ := map_saturates_iff hw
  have hfit : ¬ Overflows 4294967295 0 4294967295 2147483648 0 := fun h =>
    absurd (hoverflow.mpr h) (by decide)
  obtain ⟨v, hmap, hsaturates, -⟩ := hresult hfit
  exact ⟨hw, hfit, v, hmap, hsaturates.above (by decide) (Nat.le_refl _)⟩

/-- A reading far above a narrow input range does not end at the upper end of a wide output
range. -/
theorem narrow_to_wide_overflows :
    4294967295 ≤ Checked.max32 ∧ map 4294967295 0 1 0 4294967295 = .error .overflow := by
  decide

end WholeRange

end SensorEvents

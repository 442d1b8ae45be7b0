import SensorEvents.Proofs.Scaling.Faultless

/-!
# Widened readings

A reading is a share of full scale, and the copies that widen it are the same share of the wider
scale, cut to a whole number. So zero and full scale stay what they are, and the copy on top is the
reading.
-/
namespace SensorEvents.BitDepth

/-- Of `remaining` bits `v` is the share that `value` is of `step` bits, cut to a whole number. What
is cut is less than one, except at full scale, where `v` is full as well. -/
def Shares (value step remaining v : Nat) : Prop :=
  ∃ rest ≤ 2 ^ step - 1, value * 2 ^ remaining = v * (2 ^ step - 1) + rest ∧ (0 < value → 0 < rest)

namespace Shares

variable {value step remaining v : Nat}

theorem eq_zero (h : Shares 0 step remaining v) (hpos : 0 < step) : v = 0 := by
  obtain ⟨rest, -, heq, -⟩ := h
  have hfull := Nat.one_lt_two_pow hpos.ne'
  have hnone : v * (2 ^ step - 1) = 0 := by omega
  exact (Nat.mul_eq_zero.mp hnone).resolve_right (by omega)

theorem lt (h : Shares value step remaining v) (hpos : 0 < step) (hvalue : value < 2 ^ step) :
    v < 2 ^ remaining := by
  rcases Nat.eq_zero_or_pos value with rfl | hsome
  · rw [h.eq_zero hpos]
    exact Nat.two_pow_pos remaining
  obtain ⟨rest, -, heq, hrest⟩ := h
  have hle : value * 2 ^ remaining ≤ (2 ^ step - 1) * 2 ^ remaining :=
    Nat.mul_le_mul_right _ (by omega)
  have hrest := hrest hsome
  refine Nat.lt_of_mul_lt_mul_right (a := 2 ^ step - 1) ?_
  rw [Nat.mul_comm (2 ^ remaining)]
  omega

theorem eq_full (h : Shares (2 ^ step - 1) step remaining v) (hpos : 0 < step) :
    v = 2 ^ remaining - 1 := by
  have hfull := Nat.one_lt_two_pow hpos.ne'
  have hlt := h.lt hpos (by omega)
  obtain ⟨rest, hrest, heq, -⟩ := h
  have hle : (2 ^ step - 1) * 2 ^ remaining ≤ (2 ^ step - 1) * (v + 1) := by
    rw [heq, Nat.mul_succ, Nat.mul_comm v]
    omega
  have hge := Nat.le_of_mul_le_mul_left hle (by omega)
  omega

/-- The copy on top is the reading itself. -/
theorem div_eq (h : Shares value step remaining v) (hpos : 0 < step) (hvalue : value < 2 ^ step)
    (hstep : step ≤ remaining) : v / 2 ^ (remaining - step) = value := by
  rcases Nat.eq_zero_or_pos value with rfl | hsome
  · rw [h.eq_zero hpos, Nat.zero_div]
  obtain ⟨rest, hle, heq, hrest⟩ := h
  have hrest := hrest hsome
  obtain ⟨q, hq⟩ : ∃ q, 2 ^ step = q + 1 := ⟨2 ^ step - 1, by omega⟩
  have hcopies := Nat.two_pow_pos (remaining - step)
  have hwide : 2 ^ remaining = 2 ^ (remaining - step) * (q + 1) := by
    rw [← hq, ← Nat.pow_add, Nat.sub_add_cancel hstep]
  rw [hwide, hq, Nat.add_sub_cancel] at heq
  rw [hq, Nat.add_sub_cancel] at hle
  generalize 2 ^ (remaining - step) = copies at *
  refine Nat.div_eq_of_lt_le ?_ ?_
  · have hsome' := Nat.mul_pos hsome hcopies
    have hlow : value * copies * q < (v + 1) * q := by linarith
    exact Nat.le_of_lt_succ (Nat.lt_of_mul_lt_mul_right hlow)
  · have hscale : value * copies ≤ q * copies := Nat.mul_le_mul_right _ (by omega)
    have hhigh : v * q < (value + 1) * copies * q := by linarith
    exact Nat.lt_of_mul_lt_mul_right hhigh

/-- The last copy is cut at the bottom. -/
theorem of_shiftRight (hvalue : value < 2 ^ step) (hcut : remaining ≤ step) :
    Shares value step remaining (value >>> (step - remaining)) := by
  unfold Shares
  rw [Nat.shiftRight_eq_div_pow]
  have hsplit := Nat.div_add_mod value (2 ^ (step - remaining))
  have hlow := Nat.mod_lt value (Nat.two_pow_pos (step - remaining))
  have hscale : 2 ^ step = 2 ^ (step - remaining) * 2 ^ remaining := by
    rw [← Nat.pow_add, Nat.sub_add_cancel hcut]
  have hhigh : value / 2 ^ (step - remaining) < 2 ^ remaining :=
    Nat.div_lt_of_lt_mul (hscale ▸ hvalue)
  have hpos := Nat.two_pow_pos remaining
  generalize value / 2 ^ (step - remaining) = high at *
  generalize value % 2 ^ (step - remaining) = low at *
  generalize 2 ^ (step - remaining) = cut at *
  generalize 2 ^ remaining = wide at *
  -- What is cut is the reading with its two parts in the other order.
  obtain ⟨q, hq⟩ : ∃ q, 2 ^ step = q + 1 := ⟨2 ^ step - 1, by omega⟩
  have hparts : (low + 1) * wide ≤ cut * wide := Nat.mul_le_mul_right _ hlow
  rw [hq] at hscale
  rw [hq, Nat.add_sub_cancel]
  refine ⟨high + low * wide, by linarith, ?_, ?_⟩
  · calc value * wide = (cut * wide) * high + low * wide := by rw [← hsplit]; ring
      _ = high * q + (high + low * wide) := by rw [← hscale]; ring
  · intro hsome
    by_contra hnone
    obtain ⟨rfl, hlow'⟩ : high = 0 ∧ low * wide = 0 := by omega
    obtain rfl : low = 0 := (Nat.mul_eq_zero.mp hlow').resolve_right hpos.ne'
    omega

/-- A copy on top of the copies of the bits below it. -/
theorem succ (h : Shares value step (remaining - step) v) (hstep : step ≤ remaining) :
    Shares value step remaining (value * 2 ^ (remaining - step) + v) := by
  obtain ⟨rest, hle, heq, hrest⟩ := h
  refine ⟨rest, hle, ?_, hrest⟩
  have hscale : 2 ^ remaining = 2 ^ (remaining - step) * 2 ^ step := by
    rw [← Nat.pow_add, Nat.sub_add_cancel hstep]
  obtain ⟨q, hq⟩ : ∃ q, 2 ^ step = q + 1 := ⟨2 ^ step - 1, by have := Nat.two_pow_pos step; omega⟩
  rw [hq, Nat.add_sub_cancel] at heq ⊢
  calc value * 2 ^ remaining
      = value * 2 ^ (remaining - step) * q + value * 2 ^ (remaining - step) := by
        rw [hscale, hq]; ring
    _ = (value * 2 ^ (remaining - step) + v) * q + rest := by rw [heq]; ring

end Shares

theorem shiftLeft_or {a b amount : Nat} (h : b < 2 ^ amount) :
    a <<< amount ||| b = a * 2 ^ amount + b := by
  rw [← Nat.shiftLeft_add_eq_or_of_lt h, Nat.shiftLeft_eq]

section Copies

variable {value step remaining : Nat}

theorem copies_zero (value step : Nat) : copies value step 0 = .ok 0 := by
  unfold copies
  exact if_pos rfl

/-- A copy has room below the top of the word. -/
theorem copies_copy (hpos : 0 < step) (hvalue : value < 2 ^ step) (hstep : step ≤ remaining)
    (hle : remaining ≤ 32) :
    copies value step remaining =
      (value <<< (remaining - step) ||| ·) <$> copies value step (remaining - step) := by
  have hword : value <<< (remaining - step) < 2 ^ 64 := by
    rw [Nat.shiftLeft_eq]
    calc value * 2 ^ (remaining - step) < 2 ^ step * 2 ^ (remaining - step) :=
          Nat.mul_lt_mul_of_pos_right hvalue (Nat.two_pow_pos _)
      _ ≤ 2 ^ 64 := by
          rw [← Nat.pow_add]
          exact Nat.pow_le_pow_right (by decide) (by omega)
  conv_lhs => unfold copies
  rw [if_neg (by omega), dif_pos ⟨hpos, hstep⟩, Checked.shiftLeft64_eq_ok (by omega),
    Nat.mod_eq_of_lt hword]
  rfl

theorem copies_cut (value : Nat) (hsome : 0 < remaining) (hcut : remaining < step)
    (hstep : step ≤ 64) : copies value step remaining = .ok (value >>> (step - remaining)) := by
  unfold copies
  rw [if_neg (by omega), dif_neg (by omega), Checked.shiftRight64_eq_ok (by omega)]

/-- The copies of a reading are its share of the bits that they fill. -/
theorem copies_shares (hpos : 0 < step) (hstep : step ≤ 32) (hvalue : value < 2 ^ step) :
    ∀ remaining ≤ 32, ∃ v, copies value step remaining = .ok v ∧ Shares value step remaining v := by
  intro remaining
  induction remaining using Nat.strongRecOn with
  | ind remaining ih =>
    intro hle
    by_cases hzero : remaining = 0
    · subst hzero
      refine ⟨0, copies_zero value step, value, by omega, ?_, id⟩
      rw [Nat.pow_zero, Nat.mul_one, Nat.zero_mul, Nat.zero_add]
    by_cases hfit : step ≤ remaining
    · obtain ⟨rest, hrest, hshares⟩ := ih (remaining - step) (by omega) (by omega)
      refine ⟨_, ?_, hshares.succ hfit⟩
      rw [copies_copy hpos hvalue hfit hle, hrest, Checked.map_ok,
        shiftLeft_or (hshares.lt hpos hvalue)]
    · exact ⟨_, copies_cut value (by omega) (by omega) (by omega),
        .of_shiftRight hvalue (by omega)⟩

end Copies

/-- A reading that is widened is its copies; nothing of them is above the depth. -/
theorem widen_eq_copies {value fromBits toBits v : Nat} (hpos : 0 < fromBits)
    (hlt : fromBits < toBits) (hto : toBits ≤ 32) (hvalue : value < 2 ^ fromBits)
    (hcopies : copies value fromBits toBits = .ok v) (hv : v < 2 ^ toBits) :
    widen value fromBits toBits = .ok v := by
  have hword : v < 1 <<< 32 := Nat.lt_of_lt_of_le hv (Nat.pow_le_pow_right (by decide) hto)
  unfold widen
  rw [if_neg (by omega), largest_eq (by omega), Nat.and_two_pow_sub_one_eq_mod,
    Nat.mod_eq_of_lt hvalue, hcopies, Checked.ok_bind, Nat.mod_eq_of_lt hword]
  rfl

/-- A reading that is widened is the same share of the wider scale. -/
theorem widen_shares {value fromBits toBits : Nat} (hpos : 0 < fromBits) (hlt : fromBits < toBits)
    (hto : toBits ≤ 32) (hvalue : value < 2 ^ fromBits) :
    ∃ v, widen value fromBits toBits = .ok v ∧ Shares value fromBits toBits v := by
  obtain ⟨v, hcopies, hshares⟩ := copies_shares hpos (by omega) hvalue toBits hto
  exact ⟨v, widen_eq_copies hpos hlt hto hvalue hcopies (hshares.lt hpos hvalue), hshares⟩

/-- A reading that is narrowed keeps its top bits. -/
theorem narrow_eq_div {value fromBits toBits : Nat} (hfrom : fromBits ≤ 32) (hto : 0 < toBits)
    (hvalue : value < 2 ^ fromBits) :
    narrow value fromBits toBits = .ok (value / 2 ^ (fromBits - toBits)) := by
  unfold narrow
  split_ifs with hsame
  · rw [Nat.sub_eq_zero_of_le hsame, Nat.pow_zero, Nat.div_one]
  · rw [Checked.shiftRight32_eq_ok (by omega), largest_eq hfrom, Nat.and_two_pow_sub_one_eq_mod,
      Nat.mod_eq_of_lt hvalue, Nat.shiftRight_eq_div_pow]

/-- A reading that is brought to another depth is one of that depth. -/
theorem rescale_le {value fromBits toBits : Nat} (hfrom : 0 < fromBits ∧ fromBits ≤ 32)
    (hto : 0 < toBits ∧ toBits ≤ 32) (hvalue : value ≤ largest fromBits) :
    ∃ v, rescale value fromBits toBits = .ok v ∧ v ≤ largest toBits := by
  rw [largest_eq hfrom.2] at hvalue
  rw [largest_eq hto.2]
  have hfull := Nat.two_pow_pos fromBits
  have hfits : value < 2 ^ fromBits := by omega
  unfold rescale
  split_ifs with hlt
  · obtain ⟨v, hwiden, hshares⟩ := widen_shares hfrom.1 hlt hto.2 hfits
    exact ⟨v, hwiden, Nat.le_sub_one_of_lt (hshares.lt hfrom.1 hfits)⟩
  · refine ⟨_, narrow_eq_div hfrom.2 hto.1 hfits, Nat.le_sub_one_of_lt ?_⟩
    refine Nat.div_lt_of_lt_mul ?_
    rw [← Nat.pow_add, Nat.sub_add_cancel (by omega)]
    exact hfits

end SensorEvents.BitDepth

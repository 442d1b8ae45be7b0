import SensorEvents.Proofs.Scaling.Widening

/-!
# Readings at another depth

The ends of one scale come to the ends of the other and the order of readings is kept. A reading that
is widened is the floor of its share of the wider scale, and it comes back when it is narrowed. The
copies that widen it lie at places that are known beforehand, one for each portion of the wider
scale that is begun.
-/
namespace SensorEvents.BitDepth

/-- A reading with its bits moved up, or moved down if the amount is below zero. -/
def moved (value : Nat) (amount : Int) : Nat :=
  if 0 ≤ amount then value <<< amount.toNat else value >>> (-amount).toNat

/-- How far the copies of `step` bits that fill the lowest `remaining` bits are moved, the one on top
first. -/
def places (step remaining : Nat) : List Int :=
  (List.range (remaining ⌈/⌉ step)).map fun k : Nat => remaining - (k + 1) * step

/-- A reading at each of some places. -/
def placed (value : Nat) (amounts : List Int) : Nat :=
  amounts.foldr (fun amount bits => moved value amount ||| bits) 0

section Places

variable {step remaining : Nat}

theorem length_places (step remaining : Nat) :
    (places step remaining).length = remaining ⌈/⌉ step := by
  rw [places, List.length_map, List.length_range]

theorem places_zero (step : Nat) : places step 0 = [] := by
  rw [places, zero_ceilDiv]
  rfl

theorem places_copy (hpos : 0 < step) (hstep : step ≤ remaining) :
    places step remaining = ((remaining - step : Nat) : Int) :: places step (remaining - step) := by
  rw [places, ceilDiv_eq_succ (by omega) hpos, List.range_succ_eq_map, List.map_cons, List.map_map,
    places]
  have hplace (k : Nat) : (remaining : Int) - ((k + 1 : Nat) + 1) * step =
      (remaining - step : Nat) - (k + 1) * step := by
    push_cast [hstep]
    ring
  refine congrArg₂ List.cons ?_ (List.map_congr_left fun k _ => hplace k)
  push_cast [hstep]
  ring

theorem places_cut (hsome : 0 < remaining) (hcut : remaining < step) :
    places step remaining = [-((step - remaining : Nat) : Int)] := by
  rw [places, ceilDiv_eq_succ hsome (by omega), Nat.sub_eq_zero_of_le hcut.le, zero_ceilDiv]
  simp only [Nat.zero_add, List.range_one, List.map_singleton, List.cons.injEq, and_true]
  push_cast [hcut.le]
  ring

/-- Only the last copy is moved down, and by less than its bits. -/
theorem places_between (hpos : 0 < step) :
    ∀ amount ∈ places step remaining, -(step : Int) < amount ∧ amount < remaining := by
  intro amount hmem
  obtain ⟨k, hk, rfl⟩ := List.mem_map.mp hmem
  rw [List.mem_range, Nat.ceilDiv_eq_add_pred_div] at hk
  have hlast : (k + 1) * step ≤ remaining + step - 1 :=
    (Nat.mul_le_mul_right step hk).trans (Nat.div_mul_le_self _ _)
  have hfirst : step ≤ (k + 1) * step := Nat.le_mul_of_pos_left step k.succ_pos
  have hcast : ((k : Int) + 1) * step = ((k + 1) * step : Nat) := by push_cast; ring
  rw [hcast]
  omega

theorem moved_natCast (value amount : Nat) : moved value amount = value <<< amount :=
  if_pos (Int.natCast_nonneg amount)

theorem moved_neg (value : Nat) {amount : Nat} (h : 0 < amount) :
    moved value (-(amount : Int)) = value >>> amount := by
  rw [moved, if_neg (by omega), neg_neg, Int.toNat_natCast]

/-- The loop that fills the bits puts a copy at each place and ends. -/
theorem copies_eq_placed {value : Nat} (hpos : 0 < step) (hstep : step ≤ 32)
    (hvalue : value < 2 ^ step) :
    ∀ remaining ≤ 32, copies value step remaining = .ok (placed value (places step remaining)) := by
  intro remaining
  induction remaining using Nat.strongRecOn with
  | ind remaining ih =>
    intro hle
    by_cases hzero : remaining = 0
    · rw [hzero, copies_zero, places_zero]
      rfl
    by_cases hfit : step ≤ remaining
    · rw [copies_copy hpos hvalue hfit hle, ih (remaining - step) (by omega) (by omega),
        Checked.map_ok, places_copy hpos hfit, ← moved_natCast]
      rfl
    · rw [copies_cut value (by omega) (by omega) (by omega), places_cut (by omega) (by omega),
        ← moved_neg value (by omega)]
      show _ = Except.ok (moved value _ ||| 0)
      rw [Nat.or_zero]

end Places

namespace Shares

variable {value step remaining v other w : Nat}

/-- Below full scale the share is cut to its floor. -/
theorem eq_div (h : Shares value step remaining v) (hvalue : value < 2 ^ step - 1) :
    v = value * 2 ^ remaining / (2 ^ step - 1) := by
  obtain ⟨rest, hle, heq, -⟩ := h
  have hfull : 0 < 2 ^ step - 1 := Nat.zero_lt_of_lt hvalue
  -- Only nothing and full scale are shared without a rest, and full scale is odd.
  have hrest : rest < 2 ^ step - 1 := by
    refine lt_of_le_of_ne hle fun hwhole => ?_
    have hdvd : 2 ^ step - 1 ∣ value * 2 ^ remaining :=
      ⟨v + 1, by rw [heq, hwhole, Nat.mul_succ, Nat.mul_comm v]⟩
    have hstep : step ≠ 0 := by
      rintro rfl
      exact absurd hfull (by decide)
    have hodd : Odd (2 ^ step - 1) :=
      Nat.Even.sub_odd Nat.one_le_two_pow (Nat.even_pow.mpr ⟨even_two, hstep⟩) odd_one
    have hcoprime : Nat.Coprime (2 ^ step - 1) (2 ^ remaining) :=
      (Nat.coprime_two_right.mpr hodd).pow_right remaining
    have hnone := Nat.eq_zero_of_dvd_of_lt (hcoprime.dvd_of_dvd_mul_right hdvd) hvalue
    rw [hnone, Nat.zero_mul] at heq
    omega
  rw [heq, Nat.mul_comm v, Nat.mul_add_div hfull, Nat.div_eq_of_lt hrest, Nat.add_zero]

/-- Two readings lie in the order of the copies on top. -/
theorem lt_of_lt (h : Shares value step remaining v) (h' : Shares other step remaining w)
    (hpos : 0 < step) (hstep : step ≤ remaining) (hother : other < 2 ^ step) (hlt : value < other) :
    v < w := by
  refine Nat.lt_of_div_lt_div (c := 2 ^ (remaining - step)) ?_
  rwa [h.div_eq hpos (hlt.trans hother) hstep, h'.div_eq hpos hother hstep]

end Shares

/-- What a reading of one depth is at another. -/
def scaled (fromBits toBits value : Nat) : Nat :=
  if fromBits < toBits then placed value (places fromBits toBits)
  else value / 2 ^ (fromBits - toBits)

section Scaled

variable {fromBits toBits value : Nat}

theorem scaled_shares (hfrom : 0 < fromBits) (hto : toBits ≤ 32) (hlt : fromBits < toBits)
    (hvalue : value < 2 ^ fromBits) :
    Shares value fromBits toBits (scaled fromBits toBits value) := by
  obtain ⟨v, hcopies, hshares⟩ := copies_shares hfrom (by omega) hvalue toBits hto
  have hplaced := copies_eq_placed hfrom (by omega) hvalue toBits hto
  rwa [scaled, if_pos hlt, ← Checked.ok_unique hcopies hplaced]

theorem rescale_eq_scaled (hfrom : 0 < fromBits ∧ fromBits ≤ 32) (hto : 0 < toBits ∧ toBits ≤ 32)
    (hvalue : value < 2 ^ fromBits) :
    rescale value fromBits toBits = .ok (scaled fromBits toBits value) := by
  by_cases hlt : fromBits < toBits
  · have hword := (scaled_shares hfrom.1 hto.2 hlt hvalue).lt hfrom.1 hvalue
    have hcopies := copies_eq_placed hfrom.1 hfrom.2 hvalue toBits hto.2
    rw [scaled, if_pos hlt] at hword ⊢
    rw [rescale, if_pos hlt]
    exact widen_eq_copies hfrom.1 hlt hto.2 hvalue hcopies hword
  · rw [rescale, if_neg hlt, scaled, if_neg hlt]
    exact narrow_eq_div hfrom.2 hto.1 hvalue

theorem scaled_zero (hfrom : 0 < fromBits) (hto : toBits ≤ 32) : scaled fromBits toBits 0 = 0 := by
  by_cases hlt : fromBits < toBits
  · exact (scaled_shares hfrom hto hlt (Nat.two_pow_pos fromBits)).eq_zero hfrom
  · rw [scaled, if_neg hlt, Nat.zero_div]

theorem scaled_full (hfrom : 0 < fromBits) (hto : toBits ≤ 32) :
    scaled fromBits toBits (2 ^ fromBits - 1) = 2 ^ toBits - 1 := by
  have hfull := Nat.two_pow_pos fromBits
  by_cases hlt : fromBits < toBits
  · exact (scaled_shares hfrom hto hlt (by omega)).eq_full hfrom
  · rw [scaled, if_neg hlt]
    have hscale : 2 ^ fromBits = 2 ^ toBits * 2 ^ (fromBits - toBits) := by
      rw [← Nat.pow_add, Nat.add_sub_cancel' (by omega)]
    have hcut := Nat.two_pow_pos (fromBits - toBits)
    have hsome := Nat.two_pow_pos toBits
    refine Nat.div_eq_of_lt_le ?_ ?_
    · rw [hscale, Nat.sub_one_mul]
      omega
    · rw [Nat.sub_add_cancel hsome, ← hscale]
      omega

theorem scaled_strictMonoOn (hfrom : 0 < fromBits) (hto : toBits ≤ 32) (hlt : fromBits < toBits) :
    StrictMonoOn (scaled fromBits toBits) (Set.Iic (2 ^ fromBits - 1)) := by
  intro v hv w hw hvw
  rw [Set.mem_Iic] at hv hw
  have hfull := Nat.two_pow_pos fromBits
  exact (scaled_shares hfrom hto hlt (by omega)).lt_of_lt (scaled_shares hfrom hto hlt (by omega))
    hfrom hlt.le (by omega) hvw

theorem scaled_monotoneOn (hfrom : 0 < fromBits) (hto : toBits ≤ 32) :
    MonotoneOn (scaled fromBits toBits) (Set.Iic (2 ^ fromBits - 1)) := by
  by_cases hlt : fromBits < toBits
  · exact (scaled_strictMonoOn hfrom hto hlt).monotoneOn
  · intro v _ w _ hvw
    rw [scaled, scaled, if_neg hlt, if_neg hlt]
    exact Nat.div_le_div_right hvw

/-- Narrowing drops all but the copy on top. -/
theorem narrow_scaled (hfrom : 0 < fromBits) (hto : toBits ≤ 32) (hlt : fromBits < toBits)
    (hvalue : value < 2 ^ fromBits) :
    narrow (scaled fromBits toBits value) toBits fromBits = .ok value := by
  have hshares := scaled_shares hfrom hto hlt hvalue
  rw [narrow_eq_div hto hfrom (hshares.lt hfrom hvalue), hshares.div_eq hfrom hvalue hlt.le]

end Scaled

/-- Between any two depths that a reading can have, the ends of a scale stay its ends and readings
stay in order. At a greater depth no two of them become one: below full scale each is the floor of
its share, and narrowing brings it back. The loop that widens puts one copy at each of its places,
and no shift on the way is by the width of the word. -/
theorem rescale_end_to_end {fromBits toBits : Nat} (hfrom : 1 ≤ fromBits ∧ fromBits ≤ 32)
    (hto : 1 ≤ toBits ∧ toBits ≤ 32) :
    ∃ scale : Nat → Nat,
      (∀ v ≤ 2 ^ fromBits - 1,
        rescale v fromBits toBits = .ok (scale v) ∧ scale v ≤ 2 ^ toBits - 1) ∧
      scale 0 = 0 ∧ scale (2 ^ fromBits - 1) = 2 ^ toBits - 1 ∧
      MonotoneOn scale (Set.Iic (2 ^ fromBits - 1)) ∧
      (fromBits < toBits →
        (∀ v < 2 ^ fromBits - 1, scale v = v * 2 ^ toBits / (2 ^ fromBits - 1)) ∧
        StrictMonoOn scale (Set.Iic (2 ^ fromBits - 1)) ∧
        (∀ v ≤ 2 ^ fromBits - 1, widen v fromBits toBits = .ok (scale v) ∧
          narrow (scale v) toBits fromBits = .ok v ∧
          copies v fromBits toBits = .ok (placed v (places fromBits toBits))) ∧
        (places fromBits toBits).length = toBits ⌈/⌉ fromBits ∧
        ∀ amount ∈ places fromBits toBits, |amount| < 64) := by
  have hfull := Nat.two_pow_pos fromBits
  have hmono := scaled_monotoneOn hfrom.1 hto.2
  refine ⟨scaled fromBits toBits, fun v hv => ⟨rescale_eq_scaled hfrom hto (by omega), ?_⟩,
    scaled_zero hfrom.1 hto.2, scaled_full hfrom.1 hto.2, hmono, fun hlt => ⟨fun v hv => ?_,
      scaled_strictMonoOn hfrom.1 hto.2 hlt, fun v hv => ?_, length_places _ _,
      fun amount hmem => ?_⟩⟩
  · rw [← scaled_full hfrom.1 hto.2]
    exact hmono hv (Set.mem_Iic.mpr le_rfl) hv
  · exact (scaled_shares hfrom.1 hto.2 hlt (by omega)).eq_div hv
  · have hrescale := rescale_eq_scaled hfrom hto (show v < 2 ^ fromBits by omega)
    rw [rescale, if_pos hlt] at hrescale
    exact ⟨hrescale, narrow_scaled hfrom.1 hto.2 hlt (by omega),
      copies_eq_placed hfrom.1 hfrom.2 (by omega) toBits hto.2⟩
  · obtain ⟨hdown, hup⟩ := places_between hfrom.1 amount hmem
    rw [abs_lt]
    omega

/-- Five bits in a whole word: six copies fit, and the seventh is cut to two bits. -/
theorem fiveBits_end_to_end :
    (1 ≤ 5 ∧ 5 ≤ 32) ∧ (1 ≤ 32 ∧ 32 ≤ 32) ∧ 5 < 32 ∧
      places 5 32 = [27, 22, 17, 12, 7, 2, -3] ∧
      ∃ scale : Nat → Nat, rescale 19 5 32 = .ok (scale 19) ∧ scale 19 = 19 * 2 ^ 32 / 31 ∧
        scale 31 = 2 ^ 32 - 1 ∧ scale 19 < scale 20 ∧ narrow (scale 19) 32 5 = .ok 19 := by
  obtain ⟨scale, hscale, -, hfull, -, hwider⟩ :=
    @rescale_end_to_end 5 32 (by decide) (by decide)
  obtain ⟨hfloor, hstrict, hback, -⟩ := hwider (by decide)
  exact ⟨by decide, by decide, by decide, by decide, scale, (hscale 19 (by decide)).1,
    hfloor 19 (by decide), hfull, hstrict (by decide) (by decide) (by decide),
    (hback 19 (by decide)).2.1⟩

end SensorEvents.BitDepth

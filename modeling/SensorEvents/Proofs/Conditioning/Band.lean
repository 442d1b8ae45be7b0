import SensorEvents.Proofs.Conditioning.Faultless

/-!
# The band around a level

After every value a quantizer holds a level whose band the value lies in. The bands of neighbouring
levels overlap, so a level stands for values up to one and a half steps away; but zero is held by the
lowest level alone, and full scale by the highest.
-/
namespace SensorEvents.Hysteresis

variable {h : Hysteresis} {value : Nat}

/-- What a level is widened to: a value of the level, at the ends of the scale the end. -/
structure Widened (h : Hysteresis) (v : Nat) : Prop where
  level : v / 2 ^ h.bits = h.level
  zero : h.level = 0 → v = 0
  full : h.level = h.topLevel → v = BitDepth.largest h.inputBits

theorem Sound.topLevel_add_one (hs : h.Sound) : h.topLevel + 1 = 2 ^ (h.inputBits - h.bits) := by
  have hall : 2 ^ h.inputBits = 2 ^ (h.inputBits - h.bits) * 2 ^ h.bits := by
    rw [← Nat.pow_add, Nat.sub_add_cancel (Nat.le_of_lt hs.remain)]
  have hpos := Nat.two_pow_pos h.bits
  obtain ⟨top, htop⟩ : ∃ top, 2 ^ (h.inputBits - h.bits) = top + 1 :=
    Nat.exists_eq_succ_of_ne_zero (Nat.two_pow_pos _).ne'
  rw [htop]
  unfold topLevel
  rw [BitDepth.largest_eq hs.input, hall, htop, Nat.succ_mul]
  refine congrArg (· + 1) (Nat.div_eq_of_lt_le ?_ ?_)
  · omega
  · rw [Nat.succ_mul]
    omega

/-- The scale is a whole number of steps. -/
theorem Sound.largest_eq (hs : h.Sound) :
    BitDepth.largest h.inputBits = h.topLevel * 2 ^ h.bits + (2 ^ h.bits - 1) := by
  have hpos := Nat.two_pow_pos h.bits
  have hall : 2 ^ h.inputBits = (h.topLevel + 1) * 2 ^ h.bits := by
    rw [hs.topLevel_add_one, ← Nat.pow_add, Nat.sub_add_cancel (Nat.le_of_lt hs.remain)]
  rw [BitDepth.largest_eq hs.input, hall, Nat.succ_mul]
  omega

/-- The level is widened to a value. -/
theorem Sound.widen_eq_ok (hs : h.Sound) :
    ∃ v, BitDepth.widen h.level (h.inputBits - h.bits) h.inputBits = .ok v ∧ h.Widened v := by
  have hremain := hs.remain
  have htop := hs.topLevel_add_one
  have hlevel := hs.level_le
  by_cases hzero : h.bits = 0
  · refine ⟨h.level, if_pos (by omega), ⟨?_, id, ?_⟩⟩
    · rw [hzero, Nat.pow_zero, Nat.div_one]
    · rw [hs.largest_eq, hzero]
      omega
  have hfits : h.level < 2 ^ (h.inputBits - h.bits) := by omega
  obtain ⟨v, hwiden, hshares⟩ := BitDepth.widen_shares (show 0 < h.inputBits - h.bits by omega)
    (show h.inputBits - h.bits < h.inputBits by omega) hs.input hfits
  refine ⟨v, hwiden, ⟨?_, ?_, ?_⟩⟩
  · have hdiv := hshares.div_eq (by omega) hfits (Nat.sub_le ..)
    rwa [Nat.sub_sub_self (Nat.le_of_lt hremain)] at hdiv
  · intro hlow
    rw [hlow] at hshares
    exact hshares.eq_zero (by omega)
  · intro hhigh
    rw [hhigh, Nat.eq_sub_of_add_eq htop] at hshares
    rw [BitDepth.largest_eq hs.input]
    exact hshares.eq_full (by omega)

/-- A level is widened to a value of the input. -/
theorem Sound.widened_le (hs : h.Sound) {v : Nat} (hv : h.Widened v) :
    v ≤ BitDepth.largest h.inputBits := by
  have hpos := Nat.two_pow_pos h.bits
  have hlevel : v / 2 ^ h.bits < h.topLevel + 1 := Nat.lt_succ_of_le (hv.level ▸ hs.level_le)
  have hbound := (Nat.div_lt_iff_lt_mul hpos).mp hlevel
  rw [Nat.succ_mul] at hbound
  rw [hs.largest_eq]
  omega

/-! ## The band -/

/-- A value lies in the step of its level. -/
theorem in_step (value bits : Nat) :
    value / 2 ^ bits * 2 ^ bits ≤ value ∧ value < value / 2 ^ bits * 2 ^ bits + 2 ^ bits :=
  ⟨Nat.div_mul_le_self .., Nat.lt_div_mul_add (Nat.two_pow_pos bits)⟩

/-- The band reaches half a step beyond the values of the level. At the ends of the scale it ends
there, but no value is beyond them. -/
theorem Sound.leaves_iff (hs : h.Sound) (hbits : 0 < h.bits)
    (hvalue : value ≤ BitDepth.largest h.inputBits) :
    h.Leaves value ↔ value + 2 ^ (h.bits - 1) ≤ h.level * 2 ^ h.bits ∨
      (h.level + 1) * 2 ^ h.bits + 2 ^ (h.bits - 1) ≤ value := by
  have hhalf := Nat.two_pow_pred_mul_two hbits
  have hpos := Nat.two_pow_pos (h.bits - 1)
  have hlow : 0 < h.level → 2 ^ h.bits ≤ h.level * 2 ^ h.bits := Nat.le_mul_of_pos_left _
  have hscale := hs.largest_eq
  have htop : ¬ h.level < h.topLevel → h.level * 2 ^ h.bits = h.topLevel * 2 ^ h.bits := fun htop =>
    congrArg (· * 2 ^ h.bits) (Nat.le_antisymm hs.level_le (Nat.not_lt.mp htop))
  have hzero : ¬ 0 < h.level → h.level * 2 ^ h.bits = 0 := fun hlevel => by
    rw [Nat.eq_zero_of_not_pos hlevel, Nat.zero_mul]
  unfold Leaves lowest highest centre margin
  rw [if_neg hbits.ne', if_neg hbits.ne', Nat.succ_mul]
  generalize h.level * 2 ^ h.bits = base at *
  generalize h.topLevel * 2 ^ h.bits = top at *
  generalize 2 ^ h.bits = step at *
  split_ifs with hlevel hbelow hbelow
  · have := hlow hlevel
    omega
  · have := hlow hlevel
    have := htop hbelow
    omega
  · have := hzero hlevel
    omega
  · have := hzero hlevel
    have := htop hbelow
    omega

/-- The level of a value that leaves the band is another one. -/
theorem Sound.div_ne_level (hs : h.Sound) (hvalue : value ≤ BitDepth.largest h.inputBits)
    (hleaves : h.Leaves value) : value / 2 ^ h.bits ≠ h.level := by
  by_cases hzero : h.bits = 0
  · unfold Leaves lowest highest at hleaves
    rw [if_pos hzero, if_pos hzero] at hleaves
    rw [hzero, Nat.pow_zero, Nat.div_one]
    omega
  · rw [hs.leaves_iff (Nat.pos_of_ne_zero hzero) hvalue, Nat.succ_mul] at hleaves
    have hhalf := Nat.two_pow_pred_mul_two (Nat.pos_of_ne_zero hzero)
    obtain ⟨hfrom, hupto⟩ := in_step value h.bits
    intro hsame
    rw [hsame] at hfrom hupto
    omega

/-- A value is in the band of its own level. -/
theorem Sound.stays_of_level (hs : h.Sound) (hvalue : value ≤ BitDepth.largest h.inputBits)
    (hlevel : value / 2 ^ h.bits = h.level) : ¬ h.Leaves value :=
  fun hleaves => hs.div_ne_level hvalue hleaves hlevel

/-- A value is in the band of the level that is held after it. -/
theorem Sound.settled_stays (hs : h.Sound) (hvalue : value ≤ BitDepth.largest h.inputBits) :
    ¬ (h.settled value).Leaves value := by
  by_cases hleaves : h.Leaves value
  · have hs' := hs.settled_sound hvalue
    rw [settled_of_leaves hleaves] at hs' ⊢
    exact hs'.stays_of_level hvalue rfl
  · rwa [settled_of_stays hleaves]

/-- The value of a level that is held is less than one and a half steps away. -/
theorem Sound.near (hs : h.Sound) (hbits : 0 < h.bits) {v : Nat} (hv : h.Widened v)
    (hvalue : value ≤ BitDepth.largest h.inputBits) (hstays : ¬ h.Leaves value) :
    v < value + 3 * 2 ^ (h.bits - 1) ∧ value < v + 3 * 2 ^ (h.bits - 1) := by
  have hhalf := Nat.two_pow_pred_mul_two hbits
  obtain ⟨hfrom, hupto⟩ := in_step v h.bits
  rw [hv.level] at hfrom hupto
  rw [hs.leaves_iff hbits hvalue, Nat.succ_mul] at hstays
  omega

/-- Without dropped bits a level is held by its value alone. -/
theorem level_of_stays (hzero : h.bits = 0) (hstays : ¬ h.Leaves value) : h.level = value := by
  unfold Leaves lowest highest at hstays
  rw [if_pos hzero, if_pos hzero] at hstays
  omega

/-- Zero is held by the lowest level alone. -/
theorem Sound.level_of_zero (hs : h.Sound) (hstays : ¬ h.Leaves 0) : h.level = 0 := by
  by_cases hzero : h.bits = 0
  · exact level_of_stays hzero hstays
  have hbits := Nat.pos_of_ne_zero hzero
  have hhalf := Nat.two_pow_pred_mul_two hbits
  have hpos := Nat.two_pow_pos (h.bits - 1)
  rw [hs.leaves_iff hbits (Nat.zero_le _)] at hstays
  by_contra hlevel
  have hone := Nat.le_mul_of_pos_left (2 ^ h.bits) (Nat.pos_of_ne_zero hlevel)
  omega

/-- Full scale is held by the highest level alone. -/
theorem Sound.level_of_full (hs : h.Sound)
    (hstays : ¬ h.Leaves (BitDepth.largest h.inputBits)) : h.level = h.topLevel := by
  have hscale := hs.largest_eq
  by_cases hzero : h.bits = 0
  · rw [level_of_stays hzero hstays, hscale, hzero]
    omega
  have hbits := Nat.pos_of_ne_zero hzero
  have hhalf := Nat.two_pow_pred_mul_two hbits
  have hpos := Nat.two_pow_pos (h.bits - 1)
  rw [hs.leaves_iff hbits (Nat.le_refl _), hscale] at hstays
  by_contra hne
  have hbelow : h.level + 1 ≤ h.topLevel := Nat.lt_of_le_of_ne hs.level_le hne
  have hstep := Nat.mul_le_mul_right (2 ^ h.bits) hbelow
  omega

/-- What a quantizer gives for a value, whatever level it held before. -/
theorem Sound.settled_widened (hs : h.Sound) (hvalue : value ≤ BitDepth.largest h.inputBits) {v : Nat}
    (hv : (h.settled value).Widened v) :
    v ≤ BitDepth.largest h.inputBits ∧ (h.bits = 0 → v = value) ∧
      (0 < h.bits → v < value + 3 * 2 ^ (h.bits - 1) ∧ value < v + 3 * 2 ^ (h.bits - 1)) ∧
      (value = 0 → v = 0) ∧
      (value = BitDepth.largest h.inputBits → v = BitDepth.largest h.inputBits) := by
  have hs' := hs.settled_sound hvalue
  have hstays := hs.settled_stays hvalue
  have hle := hs'.widened_le hv
  have hnear := fun hbits hin => hs'.near hbits hv hin hstays
  have hlevel := fun hbits => level_of_stays hbits hstays
  have hfull := fun hscale => hv.full (hs'.level_of_full hscale)
  simp only [settled_bits, settled_inputBits] at hle hnear hlevel hfull
  refine ⟨hle, fun hzero => ?_, fun hbits => hnear hbits hvalue, fun hnone => ?_,
    fun hscale => hfull (hscale ▸ hstays)⟩
  · have hwidened := hv.level
    rwa [settled_bits, hzero, Nat.pow_zero, Nat.div_one, hlevel hzero] at hwidened
  · exact hv.zero (hs'.level_of_zero (hnone ▸ hstays))

end SensorEvents.Hysteresis

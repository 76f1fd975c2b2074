import Mathlib.Tactic.Ring
import ScriptPool.Number.Rounding
import ScriptPool.Number.Shortest

namespace ScriptPool.Number

theorem roundHalfEven_eq {a b m : Nat} (hlower : 2 * (m * b) ≤ 2 * a + b)
    (hupper : 2 * a ≤ 2 * (m * b) + b)
    (hodd : m % 2 = 1 → 2 * (m * b) < 2 * a + b ∧ 2 * a < 2 * (m * b) + b) (hb : 0 < b) :
    roundHalfEven a b = m := by
  have hdiv : b * (a / b) + a % b = a := Nat.div_add_mod a b
  have hrest : a % b < b := Nat.mod_lt a hb
  have hbelow : a / b ≤ m := by
    by_contra hlt
    have hmul : b * (m + 1) ≤ b * (a / b) := Nat.mul_le_mul_left b (by omega)
    rw [Nat.mul_add, Nat.mul_comm b m] at hmul
    omega
  have habove : m ≤ a / b + 1 := by
    by_contra hlt
    have hmul : b * (a / b + 2) ≤ b * m := Nat.mul_le_mul_left b (by omega)
    rw [Nat.mul_add, Nat.mul_comm b m] at hmul
    omega
  unfold roundHalfEven
  dsimp only
  rcases Nat.eq_or_lt_of_le hbelow with hm | hm
  · rw [hm, Nat.mul_comm] at hdiv
    rw [hm, if_neg (by omega)]
  · have hm : m = a / b + 1 := by omega
    rw [hm, Nat.add_mul, Nat.one_mul, Nat.mul_comm (a / b) b] at hlower hodd
    rw [if_pos (by omega), hm]

theorem scaleFor_eq {units s : Nat} (hupper : units < 2 ^ (53 + s))
    (hlower : s = 0 ∨ 2 ^ (52 + s) ≤ units) : scaleFor units = s := by
  unfold scaleFor
  by_cases hzero : units = 0
  · subst hzero
    rcases hlower with rfl | hlower
    · rfl
    · have hpos : 0 < 2 ^ (52 + s) := Nat.two_pow_pos _
      omega
  · have hlt : units.log2 < 53 + s := (Nat.log2_lt hzero).mpr hupper
    rcases hlower with rfl | hlower
    · omega
    · have hle : 52 + s ≤ units.log2 := (Nat.le_log2 hzero).mpr hlower
      omega

namespace Magnitude

variable {x : Magnitude} {a b n d : Nat}

theorem attracts_iff : x.attracts n d = true ↔
    x.lowerQuarters * d ≤ n ∧ n ≤ x.upperQuarters * d ∧
      (x.mantissa % 2 = 1 → x.lowerQuarters * d < n ∧ n < x.upperQuarters * d) := by
  unfold attracts
  split
  · simp only [Bool.and_eq_true, decide_eq_true_eq]
    omega
  · simp only [Bool.and_eq_true, decide_eq_true_eq]
    omega

theorem units_le_lowerQuarters (x : Magnitude) :
    4 * x.units ≤ x.lowerQuarters + 2 * 2 ^ x.scale := by
  unfold lowerQuarters
  split
  · simp only [Nat.pow_eq]
    omega
  · simp only [Nat.pow_eq]
    omega

theorem scale_le_units (h : x.units ≠ 0) : 2 ^ x.scale ≤ x.units := by
  have hmantissa : 0 < x.mantissa := Nat.pos_of_ne_zero fun hzero => h (by simp [units, hzero])
  have hmul : 1 * 2 ^ x.scale ≤ x.units := Nat.mul_le_mul_right _ hmantissa
  rwa [Nat.one_mul] at hmul

theorem lowerQuarters_le (h : x.units ≠ 0) : x.lowerQuarters + 2 ^ x.scale ≤ 4 * x.units := by
  have hstep := scale_le_units h
  unfold lowerQuarters
  split
  · simp only [Nat.pow_eq]
    omega
  · simp only [Nat.pow_eq]
    omega

theorem lt_upperQuarters (x : Magnitude) : 4 * x.units < x.upperQuarters := by
  have hstep : 0 < 2 ^ x.scale := Nat.two_pow_pos _
  rw [upperQuarters, Nat.pow_eq]
  omega

theorem two_le_lowerQuarters (h : x.units ≠ 0) : 2 ≤ x.lowerQuarters := by
  have hstep : 0 < 2 ^ x.scale := Nat.two_pow_pos _
  have hscale := scale_le_units h
  have hlower := x.units_le_lowerQuarters
  omega

theorem attracts_mantissa (h : x.attracts (4 * a) b = true) :
    2 * (x.mantissa * (b * 2 ^ x.scale)) ≤ 2 * a + b * 2 ^ x.scale ∧
      2 * a ≤ 2 * (x.mantissa * (b * 2 ^ x.scale)) + b * 2 ^ x.scale ∧
      (x.mantissa % 2 = 1 →
        2 * (x.mantissa * (b * 2 ^ x.scale)) < 2 * a + b * 2 ^ x.scale ∧
          2 * a < 2 * (x.mantissa * (b * 2 ^ x.scale)) + b * 2 ^ x.scale) := by
  obtain ⟨hlower, hupper, hodd⟩ := attracts_iff.mp h
  have hunits : x.units * b = x.mantissa * (b * 2 ^ x.scale) := by
    rw [units, Nat.pow_eq]
    ring
  have hlow : 4 * (x.units * b) ≤ x.lowerQuarters * b + 2 * (b * 2 ^ x.scale) := by
    have hmul := Nat.mul_le_mul_right b x.units_le_lowerQuarters
    rw [Nat.add_mul] at hmul
    rw [Nat.mul_comm b, ← Nat.mul_assoc, ← Nat.mul_assoc]
    exact hmul
  have hhigh : x.upperQuarters * b = 4 * (x.units * b) + 2 * (b * 2 ^ x.scale) := by
    rw [upperQuarters, Nat.pow_eq]
    ring
  rw [← hunits]
  omega

/-- Unless it lies just below a power of two, an attracted quotient is cut at the scale of the
magnitude. -/
theorem ofQuotient?_of_scale (h : x.attracts (4 * a) b = true) (hb : 0 < b)
    (hscale : x.scale = 0 ∨ 2 ^ (52 + x.scale) * b ≤ a) : ofQuotient? a b = some x := by
  obtain ⟨hlower, hupper, hodd⟩ := attracts_mantissa h
  have hstep : 0 < b * 2 ^ x.scale := Nat.mul_pos hb (Nat.two_pow_pos _)
  have hmantissa : roundHalfEven a (b * 2 ^ x.scale) = x.mantissa :=
    roundHalfEven_eq hlower hupper hodd hstep
  have hlt : x.mantissa < 2 ^ 53 := x.mantissa_lt
  have hfits : scaleFor (a / b) = x.scale := by
    apply scaleFor_eq
    · rw [Nat.div_lt_iff_lt_mul hb]
      have hle : (x.mantissa + 1) * (b * 2 ^ x.scale) ≤ 2 ^ 53 * (b * 2 ^ x.scale) :=
        Nat.mul_le_mul_right _ hlt
      rw [Nat.add_mul, Nat.one_mul] at hle
      rw [Nat.pow_add, Nat.mul_assoc, Nat.mul_comm (2 ^ x.scale)]
      omega
    · rw [Nat.le_div_iff_mul_le hb]
      exact hscale
  unfold ofQuotient?
  simp only [hfits, Nat.pow_eq, hmantissa]
  rw [if_neg (by omega), ofParts?_mantissa_scale]

theorem ofQuotient?_of_carry (h : x.attracts (4 * a) b = true) (hb : 0 < b) (hscale : 0 < x.scale)
    (hbelow : a < 2 ^ (52 + x.scale) * b) : ofQuotient? a b = some x := by
  obtain ⟨s, hs⟩ : ∃ s, x.scale = s + 1 := ⟨x.scale - 1, by omega⟩
  have hhalf : 2 ^ 52 ≤ x.mantissa := by
    rcases x.full with hfull | hfull
    · exact hfull
    · omega
  have hpow : 2 ^ (52 + x.scale) * b = 2 ^ 52 * (b * 2 ^ x.scale) := by
    rw [Nat.pow_add]
    ring
  have hdouble : b * 2 ^ x.scale = 2 * (b * 2 ^ s) := by
    rw [hs, Nat.pow_succ]
    ring
  have hmantissa : x.mantissa = 2 ^ 52 := by
    by_contra hne
    have hmul : (2 ^ 52 + 1) * (b * 2 ^ x.scale) ≤ x.mantissa * (b * 2 ^ x.scale) :=
      Nat.mul_le_mul_right _ (by omega)
    have hlower := (attracts_mantissa h).1
    omega
  have hlow : 4 * (2 ^ 53 * (b * 2 ^ s)) ≤ 4 * a + 2 * (b * 2 ^ s) := by
    have hlower := (attracts_iff.mp h).1
    have hquarters : x.lowerQuarters + 2 * 2 ^ s = 4 * (2 ^ 53 * 2 ^ s) := by
      have hpow : 2 ^ x.scale = 2 * 2 ^ s := by rw [hs, Nat.pow_succ, Nat.mul_comm]
      rw [lowerQuarters, if_pos ⟨hmantissa, hscale⟩, units, hmantissa, Nat.pow_eq, hpow]
      omega
    have hmul : (x.lowerQuarters + 2 * 2 ^ s) * b = 4 * (2 ^ 53 * 2 ^ s) * b := by rw [hquarters]
    rw [Nat.add_mul, Nat.mul_assoc, Nat.mul_assoc, Nat.mul_assoc, Nat.mul_comm (2 ^ s)] at hmul
    omega
  have hfits : scaleFor (a / b) = s := by
    apply scaleFor_eq
    · rw [Nat.div_lt_iff_lt_mul hb, show 53 + s = 52 + x.scale by omega]
      exact hbelow
    · right
      rw [Nat.le_div_iff_mul_le hb, Nat.pow_add, Nat.mul_assoc, Nat.mul_comm (2 ^ s)]
      omega
  have hcarry : roundHalfEven a (b * 2 ^ s) = 2 ^ 53 := by
    have hpos : 0 < b * 2 ^ s := Nat.mul_pos hb (Nat.two_pow_pos _)
    apply roundHalfEven_eq _ _ _ hpos
    all_goals omega
  unfold ofQuotient?
  simp only [hfits, Nat.pow_eq, hcarry, if_true]
  rw [← ofParts?_mantissa_scale x, hmantissa, hs]

theorem ofQuotient?_of_attracts (h : x.attracts (4 * a) b = true) (hb : 0 < b) :
    ofQuotient? a b = some x := by
  by_cases hscale : x.scale = 0 ∨ 2 ^ (52 + x.scale) * b ≤ a
  · exact ofQuotient?_of_scale h hb hscale
  · exact ofQuotient?_of_carry h hb (by omega) (by omega)

theorem attracts_units (x : Magnitude) (d : Nat) (hd : 0 < d) :
    x.attracts (4 * x.units * d) d = true := by
  have hlower : x.lowerQuarters * d ≤ 4 * x.units * d := by
    apply Nat.mul_le_mul_right
    unfold lowerQuarters
    split
    · omega
    · omega
  have hupper : 4 * x.units * d < x.upperQuarters * d :=
    Nat.mul_lt_mul_of_pos_right x.lt_upperQuarters hd
  rw [attracts_iff]
  refine ⟨hlower, hupper.le, fun hodd => ⟨?_, hupper⟩⟩
  have hunits : x.units ≠ 0 := by
    intro hzero
    rw [units_eq_zero_iff.mp hzero] at hodd
    exact absurd hodd (by decide)
  have hstep : 0 < 2 ^ x.scale := Nat.two_pow_pos _
  have hle := lowerQuarters_le hunits
  exact Nat.mul_lt_mul_of_pos_right (by omega) hd

end Magnitude

end ScriptPool.Number

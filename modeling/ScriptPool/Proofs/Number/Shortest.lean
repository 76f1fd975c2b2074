import ScriptPool.Proofs.Number.Nearest

namespace ScriptPool.Number

theorem ten_pow_le {n m : Nat} (h : 10 * n ≤ 3 * m) : 10 ^ n ≤ 2 ^ m := by
  apply (Nat.pow_le_pow_iff_left (n := 3) (by decide)).mp
  calc (10 ^ n) ^ 3 = (10 ^ 3) ^ n := Nat.pow_right_comm 10 n 3
    _ ≤ (2 ^ 10) ^ n := Nat.pow_le_pow_left (by decide) n
    _ = 2 ^ (10 * n) := (Nat.pow_mul 2 10 n).symm
    _ ≤ 2 ^ (m * 3) := Nat.pow_le_pow_right (by decide) (by omega)
    _ = (2 ^ m) ^ 3 := Nat.pow_mul 2 m 3

theorem le_ten_pow {n m : Nat} (h : 10 * m ≤ 33 * n) : 2 ^ m ≤ 10 ^ n := by
  apply (Nat.pow_le_pow_iff_left (n := 10) (by decide)).mp
  calc (2 ^ m) ^ 10 = 2 ^ (m * 10) := (Nat.pow_mul 2 m 10).symm
    _ ≤ 2 ^ (33 * n) := Nat.pow_le_pow_right (by decide) (by omega)
    _ = (2 ^ 33) ^ n := Nat.pow_mul 2 33 n
    _ ≤ (10 ^ 10) ^ n := Nat.pow_le_pow_left (by decide) n
    _ = (10 ^ n) ^ 10 := Nat.pow_right_comm 10 10 n

theorem unitsPerOne_pos : 0 < unitsPerOne :=
  Nat.two_pow_pos _

namespace Magnitude

variable {x : Magnitude} {factor tries : Nat} {exponent : Int}

/-- The decimal `factor * 10 ^ exponent` rounds to the magnitude. -/
def AttractsDecimal (x : Magnitude) (factor : Nat) (exponent : Int) : Prop :=
  x.attracts (factor * (4 * unitsPerOne * 10 ^ exponent.toNat)) (10 ^ (-exponent).toNat) = true

theorem nearestMultiple?_attracts (h : x.nearestMultiple? exponent = some factor) :
    x.AttractsDecimal factor exponent := by
  simp only [nearestMultiple?, Nat.pow_eq] at h
  split at h
  · next hbelow habove =>
      split at h
      · rw [Option.some.injEq] at h
        rw [← h]
        exact hbelow
      · rw [Option.some.injEq] at h
        rw [← h]
        exact habove
  · next hbelow _ =>
      rw [Option.some.injEq] at h
      rw [← h]
      exact hbelow
  · next _ habove =>
      rw [Option.some.injEq] at h
      rw [← h]
      exact habove
  · cases h

theorem searchGrid_attracts {e : Int} (h : x.searchGrid tries exponent = some (factor, e)) :
    x.AttractsDecimal factor e := by
  induction tries generalizing exponent with
  | zero => cases h
  | succ tries ih =>
      unfold searchGrid at h
      split at h
      · next hfactor =>
          cases h
          exact nearestMultiple?_attracts hfactor
      · exact ih h

theorem nearestMultiple?_isSome (hunits : x.units ≠ 0)
    (hgrid : 4 * unitsPerOne * 10 ^ exponent.toNat ≤ 2 ^ x.scale * 10 ^ (-exponent).toNat) :
    (x.nearestMultiple? exponent).isSome = true := by
  have hpart : 0 < 10 ^ (-exponent).toNat := Nat.pow_pos (by decide)
  have hstep : 0 < 4 * unitsPerOne * 10 ^ exponent.toNat := by
    exact Nat.mul_pos (Nat.mul_pos (by decide) unitsPerOne_pos) (Nat.pow_pos (by decide))
  simp only [nearestMultiple?, Nat.pow_eq]
  generalize 4 * unitsPerOne * 10 ^ exponent.toNat = grid at hgrid hstep ⊢
  generalize 10 ^ (-exponent).toNat = part at hgrid hpart ⊢
  have hbelow : x.attracts (4 * x.units * part / grid * grid) part = true := by
    have hstart : 4 * x.units * part / grid * grid ≤ 4 * x.units * part := Nat.div_mul_le_self _ _
    have hend : 4 * x.units * part < 4 * x.units * part / grid * grid + grid := by
      have hlt := Nat.lt_div_mul_add hstep (a := 4 * x.units * part)
      exact hlt
    have hlower : (x.lowerQuarters + 2 ^ x.scale) * part ≤ 4 * x.units * part :=
      Nat.mul_le_mul_right part (lowerQuarters_le hunits)
    have hupper : 4 * x.units * part < x.upperQuarters * part :=
      Nat.mul_lt_mul_of_pos_right x.lt_upperQuarters hpart
    rw [Nat.add_mul] at hlower
    rw [attracts_iff]
    omega
  rw [hbelow]
  split
  · rfl
  · rfl
  · next hfalse _ => cases hfalse
  · next hfalse _ => cases hfalse

theorem searchGrid_isSome {k : Nat} (h : (x.nearestMultiple? (exponent - k)).isSome = true)
    (htries : k < tries) : (x.searchGrid tries exponent).isSome = true := by
  induction tries generalizing exponent k with
  | zero => omega
  | succ tries ih =>
      unfold searchGrid
      split
      · rfl
      · next hnone =>
          cases k with
          | zero => simp [hnone] at h
          | succ k =>
              rw [show exponent - (k + 1 : Nat) = exponent - 1 - k by omega] at h
              exact ih h (by omega)

theorem log2_units_le (h : x.units ≠ 0) : x.units.log2 ≤ 52 + x.scale := by
  have hlt : x.units < 2 ^ 53 * 2 ^ x.scale :=
    Nat.mul_lt_mul_of_pos_right x.mantissa_lt (Nat.two_pow_pos _)
  rw [← Nat.pow_add] at hlt
  have hlog : x.units.log2 < 53 + x.scale := (Nat.log2_lt h).mpr hlt
  omega

theorem finest_grid (h : x.units ≠ 0) :
    4 * unitsPerOne * 10 ^ (x.coarsestExponent - 23).toNat ≤
      2 ^ x.scale * 10 ^ (-(x.coarsestExponent - 23)).toNat := by
  have hlog := log2_units_le h
  have hscale := x.scale_le
  have hunit : 4 * unitsPerOne = 2 ^ 1076 := by decide +kernel
  unfold coarsestExponent
  generalize hexponent :
    ((x.units.log2 : Int) + 2 - 1074) * 30103 / 100000 + 1 - 23 = exponent
  rw [hunit]
  by_cases hsign : 0 ≤ exponent
  · have hpow : 10 ^ exponent.toNat ≤ 2 ^ ((10 * exponent.toNat + 2) / 3) :=
      ten_pow_le (by omega)
    calc 2 ^ 1076 * 10 ^ exponent.toNat
        ≤ 2 ^ 1076 * 2 ^ ((10 * exponent.toNat + 2) / 3) := Nat.mul_le_mul_left _ hpow
      _ = 2 ^ (1076 + (10 * exponent.toNat + 2) / 3) := (Nat.pow_add 2 _ _).symm
      _ ≤ 2 ^ x.scale := Nat.pow_le_pow_right (by decide) (by omega)
      _ = 2 ^ x.scale * 10 ^ (-exponent).toNat := by
        rw [show (-exponent).toNat = 0 by omega, Nat.pow_zero, Nat.mul_one]
  · have hpow : 2 ^ (33 * (-exponent).toNat / 10) ≤ 10 ^ (-exponent).toNat :=
      le_ten_pow (by omega)
    calc 2 ^ 1076 * 10 ^ exponent.toNat = 2 ^ 1076 := by
          rw [show exponent.toNat = 0 by omega, Nat.pow_zero, Nat.mul_one]
      _ ≤ 2 ^ (x.scale + 33 * (-exponent).toNat / 10) :=
        Nat.pow_le_pow_right (by decide) (by omega)
      _ = 2 ^ x.scale * 2 ^ (33 * (-exponent).toNat / 10) := Nat.pow_add 2 _ _
      _ ≤ 2 ^ x.scale * 10 ^ (-exponent).toNat := Nat.mul_le_mul_left _ hpow

theorem shortest_attracts (h : x.units ≠ 0) : x.AttractsDecimal x.shortest.1 x.shortest.2 := by
  have hfound : (x.searchGrid 24 x.coarsestExponent).isSome = true :=
    searchGrid_isSome (nearestMultiple?_isSome h (finest_grid h)) (by decide)
  obtain ⟨⟨factor, exponent⟩, hsearch⟩ := Option.isSome_iff_exists.mp hfound
  rw [shortest, if_neg h, hsearch]
  exact searchGrid_attracts hsearch

theorem AttractsDecimal.factor_ne_zero (h : x.AttractsDecimal factor exponent)
    (hunits : x.units ≠ 0) : factor ≠ 0 := by
  rintro rfl
  have hlower := (attracts_iff.mp h).1
  have hpos : 0 < x.lowerQuarters * 10 ^ (-exponent).toNat :=
    Nat.mul_pos (Nat.lt_of_lt_of_le (by decide) (two_le_lowerQuarters hunits))
      (Nat.pow_pos (by decide))
  rw [Nat.zero_mul] at hlower
  omega

end Magnitude

end ScriptPool.Number

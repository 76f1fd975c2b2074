import ScriptPool.Proofs.Number.ReadBack
import ScriptPool.Value.Basic

namespace ScriptPool

open ScriptPool.Number ScriptPool.Number.Numeral

attribute [local irreducible] unitsPerOne

variable {x : Magnitude} {negative : Bool}

theorem toString_int (i : Int) :
    toString i = withSign (decide (i < 0)) (Nat.toDigits 10 i.natAbs) := by
  cases i with
  | ofNat m =>
      rw [withSign, if_neg (by simp)]
      exact Nat.toString_eq_ofList_toDigits
  | negSucc m =>
      rw [withSign, if_pos (by simp), Int.toString_eq_repr]
      apply String.toList_inj.mp
      simp [Int.repr, Nat.repr_eq_ofList_toDigits]

theorem integer?_eq_some {i : Int} (h : (Double.finite negative x).integer? = some i) :
    x.units = i.natAbs * unitsPerOne ∧
      i = if negative then -(i.natAbs : Int) else (i.natAbs : Int) := by
  simp only [Double.integer?] at h
  split at h
  · next hwhole =>
      have hunits : x.units / unitsPerOne * unitsPerOne = x.units :=
        Nat.div_mul_cancel (Nat.dvd_of_mod_eq_zero hwhole)
      generalize x.units / unitsPerOne = whole at h hunits
      rw [← hunits]
      cases negative with
      | true =>
          cases h
          simp
      | false =>
          cases h
          simp
  · cases h

theorem writes_int_zero : Writes (toString (0 : Int)) .zero :=
  ⟨false, Nat.toDigits 10 0, 0, 0, rfl, unsigned_toDigits 0, rfl⟩

theorem integer?_zero (negative : Bool) : (Double.finite negative .zero).integer? = some 0 := by
  have hunits : Magnitude.zero.units = 0 := rfl
  cases negative with
  | false | true => simp [Double.integer?, hunits]

theorem displayNumber_zero (negative : Bool) :
    Value.displayNumber (.finite negative .zero) = toString (0 : Int) := by
  have hbound : (0 : Int).natAbs < Value.wholeNumberBound := by decide
  simp only [Value.displayNumber, integer?_zero, if_pos hbound]

theorem displayNumber_writes (negative : Bool) (x : Magnitude) :
    ∃ n, Writes (Value.displayNumber (.finite negative x)) n ∧
      n.equal (.finite negative x) = true ∧
      Value.displayNumber n = Value.displayNumber (.finite negative x) := by
  by_cases hunits : x.units = 0
  · rw [Magnitude.units_eq_zero_iff.mp hunits, displayNumber_zero]
    refine ⟨.zero, writes_int_zero, ?_, displayNumber_zero false⟩
    simp [Double.equal, Double.zero, Magnitude.units_eq_zero_iff]
  · refine ⟨.finite negative x, ?_, Double.equal_self_iff.mpr (by rintro ⟨⟩), rfl⟩
    unfold Value.displayNumber
    split
    · next i hi =>
        obtain ⟨hwhole, hsign⟩ := integer?_eq_some hi
        split
        · have hne : i.natAbs ≠ 0 := by
            rintro hzero
            rw [hzero, Nat.zero_mul] at hwhole
            exact hunits hwhole
          have hnegative : decide (i < 0) = negative := by
            rw [hsign]
            cases negative with
            | true => exact decide_eq_true (by rw [if_pos rfl]; omega)
            | false => exact decide_eq_false (by rw [if_neg (by decide)]; omega)
          rw [toString_int, hnegative]
          exact writes_digits negative (Magnitude.attractsDecimal_of_units hwhole) hunits
        · exact writes_plain negative hunits
    · exact writes_plain negative hunits

theorem attractsDecimal_maxCount (h : x.units = 2 ^ 64 * unitsPerOne) :
    x.AttractsDecimal Double.maxCount 0 := by
  have hpos := unitsPerOne_pos
  have hstep : 4 * unitsPerOne < 2 ^ x.scale := by
    have hlt : x.units < 2 ^ 53 * 2 ^ x.scale :=
      Nat.mul_lt_mul_of_pos_right x.mantissa_lt (Nat.two_pow_pos _)
    omega
  have hlower := Magnitude.lowerQuarters_le (x := x) (by omega)
  have hupper := x.lt_upperQuarters
  have hmax : Double.maxCount = 2 ^ 64 - 1 := rfl
  unfold Magnitude.AttractsDecimal
  rw [Int.toNat_zero, Int.neg_zero, Int.toNat_zero, Nat.pow_zero, Nat.mul_one,
    Magnitude.attracts_iff, hmax]
  omega

theorem count?_writes {n : Double} {k : Nat} (h : n.count? = some k) :
    ∃ m, Writes (toString k) m ∧ m.count? = some k := by
  have hcount := h
  unfold Double.count? at h
  split at h
  · next whole hwhole =>
      split at h
      · next hle =>
          rw [Option.some.injEq] at h
          obtain ⟨negative, x, rfl⟩ : ∃ negative x, n = .finite negative x := by
            cases n with
            | finite negative x => exact ⟨negative, x, rfl⟩
            | nan | infinite => cases hwhole
          obtain ⟨hunits, hsign⟩ := integer?_eq_some hwhole
          rw [Int.ofNat_eq_natCast, Int.natAbs_natCast] at hunits hsign
          by_cases hzero : whole = 0
          · subst hzero
            rw [← h]
            exact ⟨.zero, writes_int_zero, by simp [Double.count?, Double.zero, integer?_zero]⟩
          · have hnegative : negative = false := by
              cases negative with
              | true => simp at hsign; omega
              | false => rfl
            subst hnegative
            have hne : x.units ≠ 0 := by
              rw [hunits]
              exact Nat.mul_ne_zero hzero unitsPerOne_pos.ne'
            have hmax : Double.maxCount = 2 ^ 64 - 1 := rfl
            have hattracts : x.AttractsDecimal k 0 := by
              rcases Nat.lt_or_ge Double.maxCount whole with hlt | hge
              · have hwhole : whole = 2 ^ 64 := by simp only [Nat.pow_eq] at hle; omega
                rw [← h, min_eq_right hlt.le]
                exact attractsDecimal_maxCount (hwhole ▸ hunits)
              · rw [← h, min_eq_left hge]
                exact Magnitude.attractsDecimal_of_units hunits
            refine ⟨.finite false x, ?_, hcount⟩
            rw [Nat.toString_eq_ofList_toDigits]
            exact writes_digits false hattracts hne
      · cases h
  · cases h

end ScriptPool

import Mathlib.Data.Rat.Cast.Order
import ScriptPool.Proofs.Value.NumberText

namespace ScriptPool

open ScriptPool.Number

attribute [local irreducible] unitsPerOne

namespace Number.Double

variable {n : Double} {i : Int} {k : Nat}

/-- The exact value of a finite number. -/
def value? (n : Double) : Option ℚ :=
  n.units?.map fun units : Int => (units : ℚ) / (unitsPerOne : ℚ)

theorem value?_eq_intCast_iff : n.value? = some (i : ℚ) ↔ n.units? = some (i * unitsPerOne) := by
  have hne : (unitsPerOne : ℚ) ≠ 0 := Nat.cast_ne_zero.mpr unitsPerOne_pos.ne'
  simp only [value?, Option.map_eq_some_iff, div_eq_iff hne]
  constructor
  · rintro ⟨units, hunits, heq⟩
    rw [hunits, Option.some.injEq]
    exact_mod_cast heq
  · exact fun h => ⟨_, h, by push_cast; rfl⟩

theorem units?_eq_iff {negative : Bool} {x : Magnitude} :
    (Double.finite negative x).units? = some (i * unitsPerOne) ↔
      x.units = i.natAbs * unitsPerOne ∧
        i = if negative then -(i.natAbs : Int) else (i.natAbs : Int) := by
  have hpos : (0 : Int) < unitsPerOne := Int.natCast_pos.mpr unitsPerOne_pos
  have habs (j : Int) : (j * unitsPerOne).natAbs = j.natAbs * unitsPerOne := by
    rw [Int.natAbs_mul, Int.natAbs_natCast]
  rw [units?, Option.some.injEq]
  cases negative with
  | true =>
      rw [if_pos rfl, if_pos rfl]
      constructor
      · intro h
        have hnonpos : i ≤ 0 := by
          by_contra hlt
          have := Int.mul_pos (by omega : 0 < i) hpos
          omega
        refine ⟨?_, by omega⟩
        rw [← habs, ← h, Int.natAbs_neg, Int.natAbs_natCast]
      · rintro ⟨hunits, hi⟩
        rw [hunits, hi, Int.natAbs_neg, Int.natAbs_natCast]
        push_cast
        ring
  | false =>
      rw [if_neg (by decide), if_neg (by decide)]
      constructor
      · intro h
        have hnonneg : 0 ≤ i := by
          by_contra hlt
          have := Int.mul_neg_of_neg_of_pos (by omega : i < 0) hpos
          omega
        refine ⟨?_, by omega⟩
        rw [← habs, ← h, Int.natAbs_natCast]
      · rintro ⟨hunits, hi⟩
        rw [hunits, hi, Int.natAbs_natCast]
        push_cast
        rfl

theorem integer?_eq_some_iff : n.integer? = some i ↔ n.value? = some (i : ℚ) := by
  rw [value?_eq_intCast_iff]
  cases n with
  | nan | infinite => exact iff_of_false nofun nofun
  | finite negative x =>
      rw [units?_eq_iff]
      constructor
      · exact integer?_eq_some
      · rintro ⟨hunits, hi⟩
        have hdiv : x.units / unitsPerOne = i.natAbs := by
          rw [hunits, Nat.mul_div_cancel _ unitsPerOne_pos]
        have hmod : x.units % unitsPerOne = 0 := by rw [hunits, Nat.mul_mod_left]
        rw [integer?, if_pos hmod, hdiv, Option.some.injEq]
        exact hi.symm

theorem integer?_eq_natCast_iff : n.integer? = some (k : Int) ↔ n.value? = some (k : ℚ) := by
  rw [integer?_eq_some_iff, Int.cast_natCast]

theorem count?_eq_some_iff : n.count? = some k ↔
    (n.value? = some (k : ℚ) ∧ k ≤ maxCount) ∨ (n.value? = some (2 ^ 64) ∧ k = maxCount) := by
  have hmax : maxCount = 2 ^ 64 - 1 := rfl
  have hpast : (2 ^ 64 : ℚ) = ((2 ^ 64 : Nat) : ℚ) := by push_cast; rfl
  rw [hpast, ← integer?_eq_natCast_iff, ← integer?_eq_natCast_iff, count?]
  split
  · next whole hwhole =>
      rw [hwhole, Int.ofNat_eq_natCast, Option.some.injEq, Option.some.injEq, Int.natCast_inj,
        Int.natCast_inj, Nat.pow_eq]
      split
      · rw [Option.some.injEq]
        omega
      · exact iff_of_false (by simp) (by omega)
  · next hother =>
      exact iff_of_false (by simp) fun h => h.elim (fun h => hother k h.1) fun h => hother _ h.1

end Number.Double

/-- What a value counts for. -/
inductive Value.Counts : Value → Nat → Prop where
  /-- The number is the count. -/
  | exact {n : Double} {k : Nat} (hvalue : n.value? = some (k : ℚ)) (hle : k ≤ Double.maxCount) :
      Counts (.number n) k
  /-- The number is one above the largest count. -/
  | clipped {n : Double} (hvalue : n.value? = some (2 ^ 64)) : Counts (.number n) Double.maxCount

theorem Value.counts_number_iff {n : Double} {k : Nat} :
    (Value.number n).Counts k ↔ n.count? = some k := by
  rw [Double.count?_eq_some_iff]
  constructor
  · rintro (⟨hvalue, hle⟩ | hvalue)
    · exact .inl ⟨hvalue, hle⟩
    · exact .inr ⟨hvalue, rfl⟩
  · rintro (⟨hvalue, hle⟩ | ⟨hvalue, rfl⟩)
    · exact .exact hvalue hle
    · exact .clipped hvalue

theorem Value.asCount?_eq_some_iff {v : Value} {k : Nat} : v.asCount? = some k ↔ v.Counts k := by
  cases v with
  | number n => exact Value.counts_number_iff.symm
  | nil | boolean | string | lightRef | table | handle => exact iff_of_false nofun nofun

/-- A value is a count if it is a number that is a whole number from zero to the largest count. -/
def Value.IsCount (v : Value) (k : Nat) : Prop :=
  ∃ n, v = .number n ∧ n.value? = some (k : ℚ) ∧ k ≤ Double.maxCount

theorem Value.asCount?_iff_isCount_iff {v : Value} :
    (∀ k, v.asCount? = some k ↔ v.IsCount k) ↔ ∀ n, v = .number n → n.value? ≠ some (2 ^ 64) := by
  constructor
  · rintro hall n rfl hpast
    obtain ⟨n', heq, hvalue, -⟩ :=
      (hall Double.maxCount).mp (Value.asCount?_eq_some_iff.mpr (.clipped hpast))
    obtain rfl := Value.number.inj heq
    rw [hpast, Option.some_inj] at hvalue
    have hmax : Double.maxCount = 2 ^ 64 := by exact_mod_cast hvalue.symm
    exact absurd hmax (by decide)
  · intro hpast k
    rw [Value.asCount?_eq_some_iff]
    constructor
    · rintro (⟨hvalue, hle⟩ | hvalue)
      · exact ⟨_, rfl, hvalue, hle⟩
      · exact absurd hvalue (hpast _ rfl)
    · rintro ⟨n, rfl, hvalue, hle⟩
      exact .exact hvalue hle

end ScriptPool

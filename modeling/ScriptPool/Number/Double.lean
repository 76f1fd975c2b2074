/-!
Double precision numbers as exact quantities.

Every finite double is a whole number of *units* of 2⁻¹⁰⁷⁴, so comparing, adding and testing for
a fraction are operations on natural numbers. A `Magnitude` is the one canonical way of writing
such a quantity as mantissa and scale; `Double` adds the sign, the two infinities and a single
not-a-number.
-/

namespace ScriptPool.Number

/-- How many units make one. -/
def unitsPerOne : Nat := Nat.pow 2 1074

/-- The size of a finite double: `mantissa * 2 ^ scale` units. The mantissa has 53 bits unless the
scale is zero, so equal sizes have equal parts. -/
structure Magnitude where
  mantissa : Nat
  scale : Nat
  mantissa_lt : mantissa < Nat.pow 2 53
  scale_le : scale ≤ 2045
  full : Nat.pow 2 52 ≤ mantissa ∨ scale = 0
  deriving DecidableEq

namespace Magnitude

/-- The exact size in units. -/
def units (x : Magnitude) : Nat :=
  x.mantissa * Nat.pow 2 x.scale

def zero : Magnitude where
  mantissa := 0
  scale := 0
  mantissa_lt := by decide
  scale_le := by decide
  full := .inr rfl

/-- The magnitude with these parts, if they are canonical. -/
def ofParts? (mantissa scale : Nat) : Option Magnitude :=
  if h : mantissa < Nat.pow 2 53 ∧ scale ≤ 2045 ∧ (Nat.pow 2 52 ≤ mantissa ∨ scale = 0) then
    some ⟨mantissa, scale, h.1, h.2.1, h.2.2⟩
  else none

theorem ofParts?_mantissa_scale (x : Magnitude) : ofParts? x.mantissa x.scale = some x :=
  dif_pos ⟨x.mantissa_lt, x.scale_le, x.full⟩

theorem units_eq_zero_iff {x : Magnitude} : x.units = 0 ↔ x = zero := by
  constructor
  · intro h
    have hm : x.mantissa = 0 := by
      have hpos : 0 < Nat.pow 2 x.scale := Nat.two_pow_pos _
      rcases Nat.mul_eq_zero.mp h with h | h
      · exact h
      · omega
    have hs : x.scale = 0 := by
      rcases x.full with h | h
      · rw [hm] at h
        exact absurd h (by decide)
      · exact h
    obtain ⟨m, s, _, _, _⟩ := x
    simp only at hm hs
    subst hm hs
    rfl
  · rintro rfl
    rfl

end Magnitude

/-- A double precision number. -/
inductive Double where
  | nan
  | infinite (negative : Bool)
  | finite (negative : Bool) (size : Magnitude)
  deriving DecidableEq

namespace Double

instance : Inhabited Double := ⟨.finite false .zero⟩

/-- The number zero without a sign. -/
def zero : Double := .finite false .zero

/-- Numeric equality: the two zeros are equal and not-a-number differs from everything. -/
def equal : Double → Double → Bool
  | .infinite a, .infinite b => a = b
  | .finite a x, .finite b y => x = y && (a = b || x.units = 0)
  | _, _ => false

theorem equal_self_iff {n : Double} : n.equal n = true ↔ n ≠ .nan := by
  cases n with
  | nan | infinite | finite => simp [equal]

theorem equal_comm (a b : Double) : a.equal b = b.equal a := by
  cases a with
  | nan | infinite =>
      cases b with
      | nan | infinite | finite => simp only [equal, eq_comm]
  | finite =>
      cases b with
      | nan | infinite => rfl
      | finite =>
          simp only [equal, eq_comm]
          rename_i s x t y
          by_cases h : x = y
          · subst h
            simp
          · simp [h]

/-- The exact value of a finite number in units, with its sign. -/
def units? : Double → Option Int
  | .finite negative x => some (if negative then -(x.units : Int) else x.units)
  | _ => none

/-- The whole number that a finite double without fraction is. -/
def integer? : Double → Option Int
  | .finite negative x =>
    if x.units % unitsPerOne = 0 then
      let whole : Nat := x.units / unitsPerOne
      some (if negative then -(whole : Int) else whole)
    else none
  | _ => none

/-- The largest count: the greatest unsigned number of 64 bits. -/
def maxCount : Nat := Nat.pow 2 64 - 1

/-- The number as a count: whole, not negative and at most 2⁶⁴, where 2⁶⁴ itself, the double next
to the largest count, stands for the largest count. -/
def count? (n : Double) : Option Nat :=
  match n.integer? with
  | some (.ofNat whole) => if whole ≤ Nat.pow 2 64 then some (min whole maxCount) else none
  | _ => none

/-- The 64 bit pattern: sign, eleven bits of exponent, 52 bits of fraction. -/
def toBits : Double → Nat
  | .nan => 0x7ff8000000000000
  | .infinite negative => (if negative then Nat.pow 2 63 else 0) + 0x7ff0000000000000
  | .finite negative x =>
    (if negative then Nat.pow 2 63 else 0) +
      (if x.mantissa < Nat.pow 2 52 then x.mantissa
        else (x.scale + 1) * Nat.pow 2 52 + (x.mantissa - Nat.pow 2 52))

/-- The number with a 64 bit pattern. All patterns of not-a-number are the same number. -/
def ofBits (bits : Nat) : Double :=
  let negative := bits / Nat.pow 2 63 % 2 = 1
  let exponent := bits / Nat.pow 2 52 % Nat.pow 2 11
  let fraction := bits % Nat.pow 2 52
  if exponent = 2047 then
    if fraction = 0 then .infinite negative else .nan
  else
    let size := if exponent = 0 then Magnitude.ofParts? fraction 0
      else Magnitude.ofParts? (Nat.pow 2 52 + fraction) (exponent - 1)
    .finite negative (size.getD .zero)

end Double

end ScriptPool.Number

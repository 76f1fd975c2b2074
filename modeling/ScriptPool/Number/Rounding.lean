import ScriptPool.Number.Double

namespace ScriptPool.Number

/-- The whole number next to `a / b`; a quotient half way between two goes to the even one. -/
def roundHalfEven (a b : Nat) : Nat :=
  let quotient := a / b
  let rest := a % b
  if b < 2 * rest ∨ (b = 2 * rest ∧ quotient % 2 = 1) then quotient + 1 else quotient

/-- How far a quotient of `units` must be scaled down for its mantissa to have 53 bits. -/
def scaleFor (units : Nat) : Nat :=
  units.log2 + 1 - 53

/-- The magnitude next to `a / b` units, or `none` if that is too large to be finite. -/
def Magnitude.ofQuotient? (a b : Nat) : Option Magnitude :=
  let scale := scaleFor (a / b)
  let mantissa := roundHalfEven a (b * Nat.pow 2 scale)
  if mantissa = Nat.pow 2 53 then Magnitude.ofParts? (Nat.pow 2 52) (scale + 1)
  else Magnitude.ofParts? mantissa scale

namespace Double

/-- The double next to `± a / b` units; what is too large is infinite. -/
def ofQuotient (negative : Bool) (a b : Nat) : Double :=
  match Magnitude.ofQuotient? a b with
  | some size => .finite negative size
  | none => .infinite negative

/-- The double next to a whole number. -/
def ofInt (i : Int) : Double :=
  ofQuotient (i < 0) (i.natAbs * unitsPerOne) 1

/-- The double next to a natural number. -/
def ofNat (n : Nat) : Double :=
  ofInt n

/-- The sum of two doubles, rounded once. Opposite infinities have no sum, and a zero sum is
negative only if both summands are. -/
def add : Double → Double → Double
  | .finite a x, .finite b y =>
    let signed (negative : Bool) (units : Nat) : Int := if negative then -(units : Int) else units
    let total := signed a x.units + signed b y.units
    if total = 0 then .finite (a && b) .zero
    else ofQuotient (total < 0) total.natAbs 1
  | .nan, _ => .nan
  | _, .nan => .nan
  | .infinite a, .infinite b => if a = b then .infinite a else .nan
  | .infinite a, .finite _ _ => .infinite a
  | .finite _ _, .infinite b => .infinite b

end Double

end ScriptPool.Number

import ScriptPool.Number.Rounding
import ScriptPool.Number.Shortest
import ScriptPool.Text.Class

namespace ScriptPool.Number

open ScriptPool.Text

/-- A decimal number `± digits * 10 ^ exponent`. -/
structure Numeral where
  negative : Bool
  digits : Nat
  exponent : Int
  deriving DecidableEq

namespace Numeral

def digitsValue (ds : List Char) : Nat :=
  ds.foldl (fun n d => 10 * n + (d.toNat - '0'.toNat)) 0

/-- Reads what may follow the mantissa: nothing, or an exponent with at least one digit. -/
def readExponent : List Char → Option Int
  | [] => some 0
  | e :: rest =>
    if e = 'e' ∨ e = 'E' then
      let (negative, ds) := match rest with
        | '-' :: ds => (true, ds)
        | '+' :: ds => (false, ds)
        | ds => (false, ds)
      if ds.isEmpty || !ds.all isDigit then none
      else some (if negative then -(digitsValue ds : Int) else digitsValue ds)
    else none

/-- Reads a numeral without sign. -/
def readUnsigned (negative : Bool) (cs : List Char) : Option Numeral :=
  let whole := cs.takeWhile isDigit
  let (fraction, rest) := match cs.dropWhile isDigit with
    | '.' :: rest => (rest.takeWhile isDigit, rest.dropWhile isDigit)
    | rest => ([], rest)
  if whole.isEmpty && fraction.isEmpty then none
  else (readExponent rest).map fun exponent =>
    ⟨negative, digitsValue (whole ++ fraction), exponent - fraction.length⟩

def read : List Char → Option Numeral
  | '-' :: rest => readUnsigned true rest
  | cs => readUnsigned false cs

/-- The double next to a numeral. Far outside the range of doubles the powers of ten need not be
computed: a number of 10³¹⁰ or more is infinite and one below 10⁻³³⁰ is zero. -/
def toDouble (x : Numeral) : Double :=
  let places : Int := x.exponent + (Nat.toDigits 10 x.digits).length
  if x.digits = 0 then .finite x.negative .zero
  else if 310 < places then .infinite x.negative
  else if places < -330 then .finite x.negative .zero
  else .ofQuotient x.negative (x.digits * Nat.pow 10 x.exponent.toNat * unitsPerOne)
    (Nat.pow 10 (-x.exponent).toNat)

end Numeral

/-- `digits * 10 ^ exponent` without an exponent: zeros fill up to the point. -/
def positional (digits : List Char) (exponent : Int) : List Char :=
  match exponent with
  | .ofNat zeros => digits ++ List.replicate zeros '0'
  | .negSucc n =>
    let places := n + 1
    if places < digits.length then
      digits.take (digits.length - places) ++ '.' :: digits.drop (digits.length - places)
    else '0' :: '.' :: (List.replicate (places - digits.length) '0' ++ digits)

/-- The digits as a numeral with one digit before the point. -/
def scientific (digits : List Char) (exponent : Int) : List Char :=
  let mantissa := match digits with
    | [] => []
    | [d] => [d]
    | d :: ds => d :: '.' :: ds
  mantissa ++ 'e' :: (toString (exponent + digits.length - 1)).toList

/-- A sign in front of a negative number. -/
def withSign (negative : Bool) (cs : List Char) : String :=
  String.ofList (if negative then '-' :: cs else cs)

namespace Double

/-- The plain form of a number: its shortest digits, never with an exponent. -/
def plain : Double → String
  | .nan => "NaN"
  | .infinite negative => withSign negative "inf".toList
  | .finite negative x =>
    let (digits, exponent) := x.shortest
    withSign negative (positional (Nat.toDigits 10 digits) exponent)

/-- The precise form of a number: its shortest digits, with a point or an exponent. The exponent
is used below 10⁻⁴ and from 10¹⁶ on. -/
def precise : Double → String
  | .nan => "NaN"
  | .infinite negative => withSign negative "inf".toList
  | .finite negative x =>
    let (digits, exponent) := x.shortest
    let ds := Nat.toDigits 10 digits
    let leading : Int := exponent + ds.length - 1
    if digits ≠ 0 ∧ (leading < -4 ∨ 16 ≤ leading) then withSign negative (scientific ds exponent)
    else
      let text := positional ds exponent
      withSign negative (if text.contains '.' then text else text ++ ['.', '0'])

end Double

end ScriptPool.Number

import ScriptPool.Text.Class

namespace ScriptPool

open ScriptPool.Text

namespace Json

/-- One piece of a string: a character, or a unit of 16 bits written as an escape. -/
inductive Piece where
  | char (c : Char)
  | unit (n : Nat)
  deriving DecidableEq

end Json

inductive Json where
  | null
  | boolean (b : Bool)
  | number (text : List Char)
  | string (pieces : List Json.Piece)
  | array (items : List Json)
  | object (fields : List (List Json.Piece × Json))

namespace Json

/-- Whether a unit is the first half of a surrogate pair. -/
def isLeading (n : Nat) : Bool :=
  0xd800 ≤ n && n < 0xdc00

/-- Whether a unit is the second half of a surrogate pair. -/
def isTrailing (n : Nat) : Bool :=
  0xdc00 ≤ n && n < 0xe000

/-- The character for a surrogate pair. -/
def pairedChar (high low : Nat) : Char :=
  Char.ofNat (0x10000 + (high - 0xd800) * 0x400 + (low - 0xdc00))

/-- The characters of a string, unless a surrogate in it stands alone. -/
def textChars? : List Piece → Option (List Char)
  | [] => some []
  | .char c :: rest => (textChars? rest).map (c :: ·)
  | .unit high :: .unit low :: rest =>
    if isLeading high && isTrailing low then
      (textChars? rest).map (pairedChar high low :: ·)
    else if isLeading high || isTrailing high then none
    else (textChars? (.unit low :: rest)).map (Char.ofNat high :: ·)
  | .unit n :: rest =>
    if isLeading n || isTrailing n then none
    else (textChars? rest).map (Char.ofNat n :: ·)

def text? (pieces : List Piece) : Option String :=
  (textChars? pieces).map String.ofList

def asText? : Json → Option String
  | .string pieces => text? pieces
  | _ => none

/-- The natural number below 2⁶⁴ that a document is. A numeral with a sign, a fraction or an
exponent is none. -/
def asNatural? : Json → Option Nat
  | .number digits =>
    let n := digits.foldl (fun n d => 10 * n + (d.toNat - '0'.toNat)) 0
    if digits.all isDigit && n < Nat.pow 2 64 then some n else none
  | _ => none

end Json

end ScriptPool

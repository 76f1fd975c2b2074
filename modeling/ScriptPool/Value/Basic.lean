import ScriptPool.Number.Numeral
import ScriptPool.Value.Handle

namespace ScriptPool

open ScriptPool.Number

/-- A dynamically typed script value. -/
inductive Value where
  /-- The absence of a value. -/
  | nil
  | boolean (b : Bool)
  | number (n : Double)
  | string (s : String)
  /-- An opaque address of the host. -/
  | lightRef (address : Nat)
  | table (entries : List (Value × Value))
  | handle (h : Handle)
  deriving Inhabited

/-- The entries of a table, in order. -/
abbrev Table := List (Value × Value)

/-- How a value crosses from one context to another. -/
inductive Crossing where
  /-- Copied as it is. -/
  | primitive
  /-- Rebuilt entry by entry. -/
  | structured
  /-- Moved, leaving a reference behind. -/
  | handle
  deriving DecidableEq

namespace Value

/-- How the value crosses between contexts. -/
def crossing : Value → Crossing
  | .table _ => .structured
  | .handle _ => .handle
  | _ => .primitive

/-- The name that scripts use for the type of the value. -/
def typeName : Value → String
  | .nil => "nil"
  | .boolean _ => "boolean"
  | .number _ => "number"
  | .string _ => "string"
  | .lightRef _ => "lightref"
  | .table _ => "table"
  | .handle _ => "handle"

/-- Whether the value is `nil`. -/
def isNil : Value → Bool
  | .nil => true
  | _ => false

/-- Only `nil` and `false` count as false. -/
def isTruthy : Value → Bool
  | .nil => false
  | .boolean b => b
  | _ => true

def asNumber? : Value → Option Double
  | .number n => some n
  | _ => none

def asString? : Value → Option String
  | .string s => some s
  | _ => none

def asBoolean? : Value → Option Bool
  | .boolean b => some b
  | _ => none

def asTable? : Value → Option Table
  | .table t => some t
  | _ => none

def asHandle? : Value → Option Handle
  | .handle h => some h
  | _ => none

/-- The value as a count: a number without fraction that is not negative and not too large. -/
def asCount? : Value → Option Nat
  | .number n => n.count?
  | _ => none

@[simp] theorem isNil_iff {v : Value} : v.isNil = true ↔ v = .nil := by
  cases v with
  | nil | boolean | number | string | lightRef | table | handle => simp [isNil]

mutual

/-- Equality of values as scripts see it: numbers by their numeric value, handles by identity,
tables entry by entry in order. -/
def equal : Value → Value → Bool
  | .nil, .nil => true
  | .boolean a, .boolean b => a = b
  | .number a, .number b => a.equal b
  | .string a, .string b => a = b
  | .lightRef a, .lightRef b => a = b
  | .table a, .table b => equalEntries a b
  | .handle a, .handle b => a.identity = b.identity
  | _, _ => false

/-- Equality of tables, entry by entry. -/
def equalEntries : Table → Table → Bool
  | [], [] => true
  | (k, v) :: rest, (l, w) :: rest' => equal k l && equal v w && equalEntries rest rest'
  | _, _ => false

end

/-- Numbers without a fraction and below 10¹⁵ in size are written as whole numbers. -/
def wholeNumberBound : Nat := Nat.pow 10 15

/-- The text of a number: a whole number without a point where it is small enough, and the plain
form otherwise. -/
def displayNumber (n : Double) : String :=
  match n.integer? with
  | some whole => if whole.natAbs < wholeNumberBound then toString whole else n.plain
  | none => n.plain

/-- The text of a value as scripts print it. -/
def display : Value → String
  | .nil => "nil"
  | .boolean b => if b then "true" else "false"
  | .number n => displayNumber n
  | .string s => s
  | .lightRef address => "lightref: 0x" ++ String.ofList (Nat.toDigits 16 address)
  | .table entries => "table: " ++ toString entries.length ++ " entries"
  | .handle h => h.display

def ofCount (n : Nat) : Value :=
  .number (.ofNat n)

end Value

end ScriptPool

/-!
Handles to objects that live outside the scripts.

A handle is moved between contexts, never duplicated: taking a handle out of a place leaves a copy
behind that is tagged `moved`, so whoever passes that copy on passes a reference only.
-/

namespace ScriptPool

/-- Where an identity comes from. -/
inductive Origin where
  /-- It was supplied with a value. -/
  | supplied
  /-- It was minted for a handle by a running program. -/
  | minted
  /-- It is that of an execution context. -/
  | context
  /-- It is that of a coordinator. -/
  | coordinator
  deriving DecidableEq, Inhabited

/-- What tells one handle, context or coordinator from another. Identities of different origin never
meet, and those of one origin are numbered. -/
structure Identity where
  origin : Origin
  serial : Nat
  deriving DecidableEq, Inhabited

namespace Identity

/-- A number as hexadecimal digits, with leading zeros up to a width. -/
private def hexPadded (width n : Nat) : List Char :=
  let digits := Nat.toDigits 16 n
  List.replicate (width - digits.length) '0' ++ digits

def originNumber : Origin → Nat
  | .supplied => 0
  | .minted => 1
  | .context => 2
  | .coordinator => 3

/-- The identity as 32 hexadecimal digits in groups of 8, 4, 4, 4 and 12. -/
def text (id : Identity) : String :=
  String.ofList (hexPadded 8 (originNumber id.origin) ++ "-0000-4000-8000-".toList ++
    hexPadded 12 id.serial)

end Identity

/-- An object of the host program that scripts can hold. -/
inductive HostObject where
  /-- The object whose methods reach the parallel runtime. -/
  | coordinator
  /-- An object of the host's own, with the name of its class if it has one. -/
  | foreign (label : String) (className? : Option String)
  deriving DecidableEq

/-- The class of an object as scripts see it. -/
def HostObject.className : HostObject → String
  | .coordinator => "Coordinator"
  | .foreign _ className? => className?.getD "HostObject"

/-- Whether the context that holds a handle owns the object or merely refers to it. -/
inductive Ownership where
  | owned
  | moved
  deriving DecidableEq

/-- A tagged reference to a host object. -/
structure Handle where
  identity : Identity
  object : HostObject
  ownership : Ownership
  deriving DecidableEq

namespace Handle

/-- Whether the object has been moved to another place. -/
def isMoved (h : Handle) : Bool :=
  h.ownership = .moved

/-- The copy that stays behind when a handle is moved. -/
def relinquished (h : Handle) : Handle :=
  { h with ownership := .moved }

/-- Moves a handle: the first handle goes to the new place with the old tag, the second stays. -/
def take (h : Handle) : Handle × Handle :=
  (⟨h.identity, h.object, h.ownership⟩, h.relinquished)

def display (h : Handle) : String :=
  h.object.className ++ ": " ++ h.identity.text

@[simp] theorem take_fst (h : Handle) : h.take.1 = h := rfl

@[simp] theorem take_snd (h : Handle) : h.take.2 = h.relinquished := rfl

@[simp] theorem relinquished_identity (h : Handle) : h.relinquished.identity = h.identity := rfl

@[simp] theorem isMoved_relinquished (h : Handle) : h.relinquished.isMoved = true := rfl

end Handle

end ScriptPool

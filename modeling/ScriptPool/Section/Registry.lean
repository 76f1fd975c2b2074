import ScriptPool.Error
import ScriptPool.Report.Event
import ScriptPool.Thread
import ScriptPool.Value.Basic

/-!
Named critical sections.

A section is a lock that one thread can take and any thread can free. It comes into being when its
name is first acquired and stays. A thread that finds it taken falls asleep until it is woken;
freeing a section wakes one sleeper, which then tries again and may find that another thread was
faster.
-/

namespace ScriptPool

/-- The lock of a section and the threads asleep at it. -/
structure SectionLock where
  held : Bool
  asleep : List ThreadId

/-- The sections by name. -/
structure Registry where
  entries : List (String × SectionLock)

/-- The name of the section for an id: numbers and strings name one by their text. -/
def sectionName (id : Value) : Except PoolError String :=
  match id with
  | .number _ | .string _ => .ok id.display
  | other => .error (.invalidSectionId other.typeName)

namespace SectionLock

/-- A lock that nobody holds. -/
def fresh : SectionLock := ⟨false, []⟩

def wake (lock : SectionLock) (thread : ThreadId) : SectionLock :=
  { lock with asleep := lock.asleep.filter (· ≠ thread) }

end SectionLock

namespace Registry

def empty : Registry := ⟨[]⟩

def find? (r : Registry) (name : String) : Option SectionLock :=
  r.entries.lookup name

/-- The number of sections. -/
def size (r : Registry) : Nat :=
  r.entries.length

/-- Whether a section is taken. -/
def isHeld (r : Registry) (name : String) : Bool :=
  (r.find? name).any (·.held)

def modify (r : Registry) (name : String) (f : SectionLock → SectionLock) : Registry :=
  ⟨r.entries.map fun entry => if entry.1 = name then (entry.1, f entry.2) else entry⟩

/-- Adds a section that does not exist yet. -/
def create (r : Registry) (name : String) : Registry :=
  ⟨r.entries ++ [(name, .fresh)]⟩

def isAsleep (r : Registry) (name : String) (thread : ThreadId) : Bool :=
  (r.find? name).any fun lock => thread ∈ lock.asleep

end Registry

/-- Where a thread stands that acquires a section. -/
inductive AcquirePlace where
  /-- Before it finds or creates the section. -/
  | entering
  /-- Before it looks whether the section is free. -/
  | trying
  /-- Asleep, or woken and not running yet. -/
  | sleeping
  deriving DecidableEq

/-- One step of acquiring a section, with the events that it reports. A sleeping thread may wake
at any time, even if nobody woke it. -/
def acquireStep (name : String) (me : ThreadId) (r : Registry) :
    AcquirePlace → Registry × List Event × Stage AcquirePlace Unit
  | .entering =>
    if (r.find? name).isSome then (r, [], .going .trying)
    else (r.create name, [.sectionCreated name], .going .trying)
  | .trying =>
    if r.isHeld name then
      (r.modify name fun lock => { lock with asleep := lock.asleep ++ [me] }, [], .going .sleeping)
    else (r.modify name fun lock => { lock with held := true }, [], .over ())
  | .sleeping => (r.modify name fun lock => lock.wake me, [], .going .trying)

/-- Where a thread stands that releases a section. -/
inductive ReleasePlace where
  /-- Before it looks for the section. -/
  | looking
  /-- Before it frees the section. -/
  | freeing
  /-- Before it wakes a sleeper; it knows whether the section was taken. -/
  | waking (wasHeld : Bool)
  deriving DecidableEq

/-- One step of releasing a section. Which of several sleepers is woken is up to `pick`. A section
that is not taken is freed all the same, and one that does not exist is left alone. -/
def releaseStep (name : String) (pick : Nat) (r : Registry) :
    ReleasePlace → Registry × List Event × Stage ReleasePlace Unit
  | .looking =>
    if (r.find? name).isSome then (r, [], .going .freeing)
    else (r, [.sectionUnknown name], .over ())
  | .freeing =>
    (r.modify name fun lock => { lock with held := false }, [], .going (.waking (r.isHeld name)))
  | .waking wasHeld =>
    (r.modify name fun lock =>
        { lock with asleep := lock.asleep.eraseIdx (pick % lock.asleep.length) },
      if wasHeld then [] else [.sectionNotHeld name], .over ())

end ScriptPool

import ScriptPool.Section.Registry

namespace ScriptPool

/-- A thread on its way into a section. -/
structure Visitor where
  thread : ThreadId
  name : String
  place : AcquirePlace

/-- The sections, the threads that wait for one, and what was reported, in order. -/
structure Visit where
  registry : Registry
  waiting : List Visitor
  /-- The number of the next thread that comes. -/
  nextThread : Nat
  events : List Event

namespace Visit

/-- Nobody has been there yet. -/
def initial : Visit := ⟨.empty, [], 1, []⟩

/-- Lets a thread go on until it is in the section or asleep; `none` stands for the former. -/
def goOn (v : Visit) (visitor : Visitor) : (steps : Nat) → Visit × Option Visitor
  | 0 => (v, some visitor)
  | steps + 1 =>
    if visitor.place = .sleeping && v.registry.isAsleep visitor.name visitor.thread then
      (v, some visitor)
    else
      match acquireStep visitor.name visitor.thread v.registry visitor.place with
      | (registry, events, .going place) =>
        ({ v with registry := registry, events := v.events ++ events }).goOn
          { visitor with place := place } steps
      | (registry, events, .over ()) =>
        ({ v with registry := registry, events := v.events ++ events }, none)

/-- The steps from one sleep to the next, or into the section. -/
def stepsAwake : Nat := 3

/-- Lets the waiting threads go on, oldest first. -/
def wakeAll (v : Visit) : List Visitor → Visit
  | [] => v
  | visitor :: rest =>
    match v.goOn visitor stepsAwake with
    | (v, some visitor) => { v with waiting := v.waiting ++ [visitor] }.wakeAll rest
    | (v, none) => v.wakeAll rest

/-- Another thread comes to acquire a section; the result is whether it has to wait. -/
def come (v : Visit) (name : String) : Visit × Bool :=
  let visitor : Visitor := ⟨.host v.nextThread, name, .entering⟩
  match { v with nextThread := v.nextThread + 1 }.goOn visitor stepsAwake with
  | (v, some visitor) => ({ v with waiting := v.waiting ++ [visitor] }, true)
  | (v, none) => (v, false)

/-- Acquires a section unless it is taken; the result is whether it was free. -/
def tryAcquire (v : Visit) (name : String) : Visit × Bool :=
  if v.registry.isHeld name then (v, false)
  else ((v.goOn ⟨.host 0, name, .entering⟩ stepsAwake).1, true)

def freeing (v : Visit) (name : String) : (steps : Nat) → ReleasePlace → Visit
  | 0, _ => v
  | steps + 1, place =>
    match releaseStep name 0 v.registry place with
    | (registry, events, stage) =>
      let v := { v with registry := registry, events := v.events ++ events }
      match stage with
      | .going place => v.freeing name steps place
      | .over () => v

/-- Releases a section and lets the threads go on that this has woken. -/
def release (v : Visit) (name : String) : Visit :=
  let v := v.freeing name 3 .looking
  { v with waiting := [] }.wakeAll v.waiting

end Visit

end ScriptPool

import ScriptPool.Pool.Machine

/-!
A fixed schedule for the threads of a coordinator.

The thread of the host goes first while it can; when it has to wait, every worker takes one step in
turn. A thread that waits for something that has not happened yet is passed over, although it could
look again at any time. The bound on the number of rounds only makes the functions total.
-/

namespace ScriptPool

/-- Whether a request waits for something that has not happened: progress since it looked last, the
end of the coordinator, or being woken. -/
def Asking.isDozing (w : World) (me : ThreadId) : Asking → Bool
  | .join _ (.waiting seen) | .joinAll (.waiting seen) | .resize _ (.joining _ (.waiting seen)) =>
    w.generation = seen && !w.shutDown
  | .acquire name .sleeping => w.sections.isAsleep name me
  | _ => false

namespace World

/-- The request that a thread waits for. -/
def asking? (w : World) : ThreadId → Option Asking
  | .host host =>
    match w.host? host with
    | some (.asking asking) => some asking
    | some (.running activity) => activity.asking?
    | _ => none
  | .worker serial =>
    match w.workers[serial]? with
    | some { place := .executing _ _ (.running activity), .. } => activity.asking?
    | _ => none

/-- One step of a thread unless it dozes or has to wait. -/
def attempt (library : Library) (w : World) (thread : ThreadId) : Option World :=
  if (w.asking? thread).any (Asking.isDozing w thread) then none
  else w.advance library 0 thread

/-- One step of every worker that can take one, and whether there was any. -/
def round (library : Library) (w : World) : World × Bool :=
  (List.range w.workers.length).foldl
    (fun (w, moved) serial =>
      match w.attempt library (.worker serial) with
      | some w => (w, true)
      | none => (w, moved))
    (w, false)

/-- How many rounds a schedule may take. -/
def patience : Nat := 100000000

/-- Lets the workers go on until none of them can take a step. -/
def settle (library : Library) : (rounds : Nat) → World → World
  | 0, w => w
  | rounds + 1, w =>
    match w.round library with
    | (w, true) => settle library rounds w
    | (w, false) => w

/-- Lets the workers go on until a condition holds, or none of them can take a step. -/
def settleUntil (library : Library) (condition : World → Bool) : (rounds : Nat) → World → World
  | 0, w => w
  | rounds + 1, w =>
    if condition w then w
    else
      match w.round library with
      | (w, true) => settleUntil library condition rounds w
      | (w, false) => w

/-- Runs the call of a thread of the host to its end; the workers go on whenever it has to wait. -/
def finishCall (library : Library) (host : Nat) : (rounds : Nat) → World → World
  | 0, w => w
  | rounds + 1, w =>
    if w.isFree host then w
    else
      match w.attempt library (.host host) with
      | some w => finishCall library host rounds w
      | none =>
        match w.round library with
        | (w, true) => finishCall library host rounds w
        | (w, false) => w

/-- Makes a call on a thread of the host and runs it to its end. -/
def carryOut (library : Library) (host : Nat) (call : HostCall) (w : World) : World :=
  (w.begin library host call).finishCall library host patience

/-- What a thread of the host got from its last call. -/
def result? (w : World) (host : Nat) : Option HostResult :=
  match w.host? host with
  | some (.free last?) => last?
  | _ => none

end World

variable {library : Library}

theorem reachable_of_attempt {w w' : World} {thread : ThreadId}
    (h : w.attempt library thread = some w') : Reachable library w w' := by
  unfold World.attempt at h
  split at h
  · simp at h
  · exact reachable_of_move (m := .step 0 thread) h

theorem reachable_round (w : World) : Reachable library w (w.round library).1 := by
  unfold World.round
  generalize List.range w.workers.length = serials
  have step : ∀ (v : World) (moved : Bool), Reachable library w v →
      Reachable library w (serials.foldl
        (fun (w, moved) serial =>
          match w.attempt library (.worker serial) with
          | some w => (w, true)
          | none => (w, moved)) (v, moved)).1 := by
    induction serials with
    | nil => exact fun v moved h => h
    | cons serial rest ih =>
        intro v moved h
        rw [List.foldl_cons]
        dsimp only
        split
        · next v' hv => exact ih v' true (h.trans (reachable_of_attempt hv))
        · exact ih v moved h
  exact step w false (.refl w)

theorem reachable_settle (rounds : Nat) (w : World) :
    Reachable library w (w.settle library rounds) := by
  induction rounds generalizing w with
  | zero => exact .refl w
  | succ rounds ih =>
      have h : Reachable library w (w.round library).1 := reachable_round w
      unfold World.settle
      split
      · next v hv =>
          rw [hv] at h
          exact h.trans (ih v)
      · next v hv =>
          rw [hv] at h
          exact h

theorem reachable_finishCall (host rounds : Nat) (w : World) :
    Reachable library w (w.finishCall library host rounds) := by
  induction rounds generalizing w with
  | zero => exact .refl w
  | succ rounds ih =>
      unfold World.finishCall
      split
      · exact .refl w
      · split
        · next v hv => exact (reachable_of_attempt hv).trans (ih v)
        · have h : Reachable library w (w.round library).1 := reachable_round w
          split
          · next v hv =>
              rw [hv] at h
              exact h.trans (ih v)
          · next v hv =>
              rw [hv] at h
              exact h

theorem reachable_carryOut {host : Nat} {w : World} {call : HostCall}
    (h : w.canBegin host call = true) : Reachable library w (w.carryOut library host call) := by
  have hm : w.move? library (.begin host call) = some (w.begin library host call) := by
    simp [World.move?, h]
  exact (reachable_of_move hm).trans (reachable_finishCall host _ _)

end ScriptPool

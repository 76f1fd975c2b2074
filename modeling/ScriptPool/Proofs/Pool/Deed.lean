import ScriptPool.Proofs.Pool.Log
import ScriptPool.Proofs.Pool.Watch

namespace ScriptPool

/-- What threads do to tasks. -/
inductive Deed where
  | pushed (s : Submission)
  /-- A worker takes the task out of the queue. -/
  | claimed (i : Nat) (s : Submission)
  /-- The worker invokes the function of the task. -/
  | started (i : Nat) (s : Submission)
  /-- One result of the task is written into the main context. -/
  | wrote (s : Submission) (name : String) (value : Value)
  /-- The task is counted as completed or as failed. -/
  | finished (i : Nat) (s : Submission) (outcome : Invocation)

namespace Deed

/-- The task that a deed is about. -/
def submission : Deed → Submission
  | .pushed s | .claimed _ s | .started _ s | .wrote s .. | .finished _ s _ => s

def pushed? : Deed → Option Submission
  | .pushed s => some s
  | _ => none

def claimed? : Deed → Option Submission
  | .claimed _ s => some s
  | _ => none

/-- What a deed writes into the main context. -/
def pair? : Deed → Option (String × Value)
  | .wrote _ name value => some (name, value)
  | _ => none

/-- What a deed writes for a task. -/
def write? (s : Submission) : Deed → Option (String × Value)
  | .wrote s' name value => if s'.ticket = s.ticket then some (name, value) else none
  | _ => none

/-- Whether a deed is a stage in the life of a task. -/
def isStageOf (s : Submission) : Deed → Bool
  | .wrote .. => false
  | d => d.submission.ticket = s.ticket

/-- Whether a task is counted as completed. -/
def completes : Deed → Bool
  | .finished _ _ outcome => outcome.isHealthy
  | _ => false

/-- Whether a task is counted as failed. -/
def fails : Deed → Bool
  | .finished _ _ outcome => !outcome.isHealthy
  | _ => false

end Deed

/-- What the next step of a worker's own loop does to a task. -/
def WorkerPlace.deed? (queue : List Submission) (i : Nat) : WorkerPlace → Option Deed
  | .popping _ => queue.head?.map (.claimed i)
  | .executing _ s .preparing => some (.started i s)
  | .executing _ s (.writing _ (name :: _) results) => some (.wrote s name (firstResult results))
  | .executing _ s (.countingTotal outcome) => some (.finished i s outcome)
  | _ => none

/-- What the next step of a thread does to a task. -/
def World.deed? (w : World) (thread : ThreadId) : Option Deed :=
  match w.asking? thread with
  | some (.submit _ (.pushing task)) => some (.pushed ⟨w.tickets, task⟩)
  | some _ => none
  | none =>
    match thread with
    | .host _ => none
    | .worker i => w.workers[i]?.bind (·.place.deed? w.queue i)

/-- What some moves do to tasks, in order. -/
def World.deeds (library : Library) (w : World) (moves : List Move) : List Deed :=
  w.notes library World.deed? moves

/-- What some deeds wrote for a task. -/
def writes (s : Submission) (deeds : List Deed) : List (String × Value) :=
  deeds.filterMap (·.write? s)

/-- The tasks in the order in which they were pushed. -/
def pushes (deeds : List Deed) : List Submission :=
  deeds.filterMap Deed.pushed?

/-- The tasks in the order in which they were claimed. -/
def claims (deeds : List Deed) : List Submission :=
  deeds.filterMap Deed.claimed?

/-- What happened to one task, but for the writing of its results. -/
def life (deeds : List Deed) (s : Submission) : List Deed :=
  deeds.filter (·.isStageOf s)

variable {library : Library} {pick i : Nat} {thread : ThreadId} {w w' : World} {hand : Hand}
  {s s' : Submission} {d : Deed} {deeds deeds' : List Deed} {queue : List Submission}

theorem mem_pushes : s ∈ pushes deeds ↔ .pushed s ∈ deeds := by
  unfold pushes
  rw [List.mem_filterMap]
  constructor
  · rintro ⟨d, hd, heq⟩
    cases d with
    | pushed =>
        cases heq
        exact hd
    | claimed | started | wrote | finished => cases heq
  · exact fun h => ⟨_, h, rfl⟩

theorem writes_append (s : Submission) (deeds deeds' : List Deed) :
    writes s (deeds ++ deeds') = writes s deeds ++ writes s deeds' :=
  List.filterMap_append

theorem writes_eq_nil (h : ∀ s' name value, .wrote s' name value ∈ deeds → s'.ticket ≠ s.ticket) :
    writes s deeds = [] := by
  refine List.filterMap_eq_nil_iff.mpr fun d hd => ?_
  cases d with
  | wrote s' name value => exact if_neg (h s' name value hd)
  | pushed | claimed | started | finished => rfl

theorem WorkerPlace.deed?_bare (queue : List Submission) (i : Nat) (p : WorkerPlace) :
    p.bare.deed? queue i = p.deed? queue i :=
  WorkerPlace.apply_bare (f := (·.deed? queue i)) (fun _ _ _ => rfl) p

theorem WorkerPlace.deed?_cases {p : WorkerPlace} (h : p.deed? queue i = some d) :
    (∃ once s rest, p = .popping once ∧ queue = s :: rest ∧ d = .claimed i s) ∨
    (∃ once s, p = .executing once s .preparing ∧ d = .started i s) ∨
    (∃ once s outcome name names results,
      p = .executing once s (.writing outcome (name :: names) results) ∧
        d = .wrote s name (firstResult results)) ∨
    ∃ once s outcome, p = .executing once s (.countingTotal outcome) ∧
      d = .finished i s outcome := by
  unfold WorkerPlace.deed? at h
  split at h
  · cases queue with
    | nil => cases h
    | cons s rest =>
        cases h
        exact .inl ⟨_, s, rest, rfl, rfl, rfl⟩
  · cases h
    exact .inr (.inl ⟨_, _, rfl, rfl⟩)
  · cases h
    exact .inr (.inr (.inl ⟨_, _, _, _, _, _, rfl, rfl⟩))
  · cases h
    exact .inr (.inr (.inr ⟨_, _, _, rfl, rfl⟩))
  · cases h

theorem WorkerPlace.deed?_ne_pushed (p : WorkerPlace) : p.deed? queue i ≠ some (.pushed s) := by
  intro h
  rcases WorkerPlace.deed?_cases h with ⟨_, _, _, -, -, ⟨⟩⟩ | ⟨_, _, -, ⟨⟩⟩ |
    ⟨_, _, _, _, _, _, -, ⟨⟩⟩ | ⟨_, _, _, -, ⟨⟩⟩

theorem World.deed?_of_own (hidle : w.asking? (.worker i) = none)
    (hhand : w.scene.hands[i]? = some hand) :
    w.deed? (.worker i) = hand.place.deed? w.queue i := by
  obtain ⟨worker, hworker, rfl⟩ := World.worker_of_scene_hands hhand
  have hplace := WorkerPlace.deed?_bare w.queue i worker.place
  simp only [World.deed?, hidle, hworker, Option.bind_some]
  exact hplace.symm

theorem World.deed?_of_inCode (hcode : w.scene.InCode thread) :
    w.deed? thread = none ∨ ∃ source task, w.asking? thread = some (.submit source (.pushing task)) ∧
      w.deed? thread = some (.pushed ⟨w.tickets, task⟩) := by
  cases hask : w.asking? thread with
  | none =>
      cases thread with
      | host host => exact .inl (by simp only [World.deed?, hask])
      | worker i =>
          obtain ⟨hand, once, s, activity, hhand, hplace⟩ := hcode
          exact .inl (by rw [World.deed?_of_own hask hhand, hplace]; rfl)
  | some a =>
      by_cases hpush : ∃ source task, a = .submit source (.pushing task)
      · obtain ⟨source, task, rfl⟩ := hpush
        exact .inr ⟨source, task, rfl, by simp only [World.deed?, hask]⟩
      · refine .inl ?_
        simp only [World.deed?, hask]
        split
        · next heq =>
            cases heq
            exact absurd ⟨_, _, rfl⟩ hpush
        · rfl
        · next heq => cases heq

theorem World.asking?_of_pushed (h : w.deed? thread = some (.pushed s)) :
    ∃ source task, w.asking? thread = some (.submit source (.pushing task)) ∧
      s = ⟨w.tickets, task⟩ := by
  unfold World.deed? at h
  split at h
  · next source task hask =>
      cases h
      exact ⟨source, task, hask, rfl⟩
  · cases h
  · split at h
    · cases h
    · obtain ⟨worker, -, h⟩ := Option.bind_eq_some_iff.mp h
      exact absurd h (WorkerPlace.deed?_ne_pushed _)

theorem World.advance_push {source : ContextId} {task : Task}
    (hask : w.asking? thread = some (.submit source (.pushing task)))
    (h : w.advance library pick thread = some w') :
    w'.scene = { w.scene with
      queue := w.scene.queue ++ [⟨w.tickets, task⟩], tickets := w.tickets + 1 } := by
  obtain ⟨v, stage, hs, hscene, -, -⟩ := World.advance_asking hask h
  simp only [askingStep, submitStep, Option.map_eq_some_iff, World.onQueue_eq_some_iff] at hs
  obtain ⟨⟨u, stage'⟩, ⟨-, heq⟩, heq'⟩ := hs
  cases heq
  cases heq'
  exact hscene

theorem WorkerPlace.of_deed? {p : WorkerPlace} (h : p.deed? queue i = some d) :
    (∃ s rest, queue = s :: rest ∧ d = .claimed i s) ∨ p.held? = some d.submission := by
  rcases WorkerPlace.deed?_cases h with ⟨_, s, rest, -, hqueue, rfl⟩ | ⟨_, s, rfl, rfl⟩ |
    ⟨_, s, _, _, _, _, rfl, rfl⟩ | ⟨_, s, _, rfl, rfl⟩
  · exact .inl ⟨s, rest, hqueue, rfl⟩
  · exact .inr rfl
  · exact .inr rfl
  · exact .inr rfl

/-- Tasks are pushed, and all else is done by a worker: to the first task of the queue, or to the
one that it holds. -/
theorem World.of_deed? (hs : Stride thread w w') (h : w.deed? thread = some d) :
    (∃ task, d = .pushed ⟨w.tickets, task⟩) ∨ (∃ i s rest, w.queue = s :: rest ∧ d = .claimed i s) ∨
      ∃ i, thread = .worker i ∧ w.scene.Holds i d.submission := by
  cases hs with
  | errand hcode =>
      rcases World.deed?_of_inCode hcode with hnone | ⟨_, task, -, hpush⟩
      · rw [hnone] at h
        cases h
      · rw [hpush] at h
        cases h
        exact .inl ⟨task, rfl⟩
  | own hme hhand _ _ _ _ hidle _ =>
      subst hme
      rw [World.deed?_of_own hidle hhand] at h
      rcases WorkerPlace.of_deed? h with ⟨s, rest, hqueue, rfl⟩ | hheld
      · exact .inr (.inl ⟨_, s, rest, hqueue, rfl⟩)
      · exact .inr (.inr ⟨_, rfl, _, hhand, hheld⟩)

end ScriptPool

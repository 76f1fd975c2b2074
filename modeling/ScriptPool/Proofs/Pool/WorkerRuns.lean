import ScriptPool.Proofs.Pool.Tending

/-!
The runs of a worker.

The marks of a worker are what the others can notice of its own steps: it takes commands from its
mailbox and tasks from the queue, shows functions and clears them, lowers its flag and announces
progress. They are read off the crew before and after a step, whatever the place of the worker.
`WorkerPlace.Follows` says that the marks come in whole runs, one after another, and how far the
last run has come when the worker is at a given place.
-/

namespace ScriptPool

/-- Something that the others can notice of a step of a worker. -/
inductive Mark where
  /-- A command to run is taken from the mailbox. -/
  | began
  /-- A task is taken from the queue. -/
  | claimed (s : Submission)
  | showed (function : String)
  | cleared
  /-- The flag is lowered. -/
  | lowered
  /-- Progress is announced. -/
  | announced

/-- What has changed of a worker. -/
def Hand.marks (hand hand' : Hand) : List Mark :=
  (if hand'.mailbox.count .run < hand.mailbox.count .run then [.began] else []) ++
  (if hand'.current? = hand.current? then [] else [hand'.current?.elim .cleared .showed]) ++
  if hand.running && !hand'.running then [.lowered] else []

/-- What a step of a worker has changed. -/
def Crew.marks (i : Nat) (c c' : Crew) : List Mark :=
  (c.queue.take (c.queue.length - c'.queue.length)).map .claimed ++
  (c.hands[i]?.elim [] fun hand => c'.hands[i]?.elim [] hand.marks) ++
  if c.generation < c'.generation then [.announced] else []

/-- The marks of a worker in what happens, which are those of its own steps. -/
def Tending.marks (i : Nat) (w w' : World) : Tending → List Mark
  | .move (.step _ thread) => if thread = .worker i then w.scene.marks i w'.scene else []
  | _ => []

/-- The marks of a worker along some tendings. -/
def Tended.marks (library : Library) (i : Nat) : Tended → List Tending → List Mark
  | _, [] => []
  | t, tending :: tendings => (t.next? library tending).elim [] fun t' =>
    tending.marks i t.world t'.world ++ t'.marks library i tendings

/-- The marks of a task from its claim on, with the number of times that its code has announced
progress. -/
def taskMarks (task : Submission × Nat) : List Mark :=
  .claimed task.1 :: .showed task.1.function :: List.replicate task.2 .announced ++
    [.cleared, .announced]

/-- The marks of a run that has executed some tasks. -/
def runMarks (tasks : List (Submission × Nat)) : List Mark :=
  .began :: tasks.flatMap taskMarks

/-- The marks of a run that is over, after the first of them. -/
def overMarks (tasks : List (Submission × Nat)) : List Mark :=
  tasks.flatMap taskMarks ++ [.lowered, .announced]

/-- The marks of runs that are over. -/
def pastMarks (runs : List (List (Submission × Nat))) : List Mark :=
  runs.flatMap fun tasks => .began :: overMarks tasks

/-- The marks of a task that a worker is about to finish. -/
def TaskPlace.marks (s : Submission) (n : Nat) : TaskPlace → List Mark
  | .publishing => [.claimed s]
  | .notifying => .claimed s :: .showed s.function :: List.replicate n .announced ++ [.cleared]
  | _ => .claimed s :: .showed s.function :: List.replicate n .announced

/-- The marks of the run in progress, by the place of the worker. -/
def WorkerPlace.marks (tasks : List (Submission × Nat)) (n : Nat) : WorkerPlace → List Mark
  | .beginning | .receiving | .exiting | .gone => []
  | .measuring | .comparing _ | .checking _ | .popping _ | .resting => runMarks tasks
  | .executing _ s p => runMarks tasks ++ p.marks s n
  | .announcing => runMarks tasks ++ [.lowered]

/-- The marks of a worker so far fit its place. -/
def WorkerPlace.Follows (log : List Mark) (p : WorkerPlace) : Prop :=
  ∃ runs tasks n, log = pastMarks runs ++ p.marks tasks n

variable {me : ThreadId} {c c' c₁ : Crew} {e e' : Errand} {i n : Nat} {hand hand' : Hand}
  {w w' : World} {log : List Mark} {tasks : List (Submission × Nat)} {s : Submission}

theorem TaskPlace.Moves.marks_eq {p p' : TaskPlace} (h : p.Moves s p') :
    p'.marks s n = p.marks s n := by
  cases h with
  | prepare | finish | lock | lockErrored | write | written | unlock | count | replace => rfl

theorem WorkerPlace.Moves.marks_eq {p p' : WorkerPlace} (h : p.Moves p') :
    p'.marks tasks n = p.marks tasks n := by
  cases h with
  | task once s h => simp only [WorkerPlace.marks, h.marks_eq]
  | begin | measure | compare | check | exit => rfl

theorem WorkerPlace.marks_bare (p : WorkerPlace) : p.bare.marks tasks n = p.marks tasks n :=
  WorkerPlace.apply_bare (f := WorkerPlace.marks tasks n) (fun _ _ _ => rfl) p

theorem pastMarks_append (runs : List (List (Submission × Nat)))
    (tasks : List (Submission × Nat)) :
    pastMarks (runs ++ [tasks]) = pastMarks runs ++ (runMarks tasks ++ [.lowered, .announced]) := by
  simp [pastMarks, overMarks, runMarks]

theorem runMarks_append (tasks : List (Submission × Nat)) (task : Submission × Nat) :
    runMarks (tasks ++ [task]) = runMarks tasks ++ taskMarks task := by
  simp [runMarks]

theorem Crew.marks_put (hhand : c.hands[i]? = some hand) (hhands : c₁.hands = c.hands) :
    c.marks i (c₁.put i hand') =
      (c.queue.take (c.queue.length - c₁.queue.length)).map .claimed ++ hand.marks hand' ++
        if c.generation < c₁.generation then [.announced] else [] := by
  obtain ⟨hlt, rfl⟩ := List.getElem?_eq_some_iff.mp hhand
  simp [marks, put, hhands, hlt]

theorem Crew.Own.follows (h : Crew.Own i c hand c₁ hand') (hhand : c.hands[i]? = some hand)
    (hsound : hand.Sound) (hcandid : hand.Candid) (hlog : hand.place.Follows log) :
    hand'.place.Follows (log ++ c.marks i (c₁.put i hand')) := by
  obtain ⟨runs, tasks, n, rfl⟩ := hlog
  rw [Crew.marks_put hhand h.hands_eq]
  cases h with
  | move p hp => exact ⟨runs, tasks, n, by simp [Hand.marks, hp.marks_eq]⟩
  | receive command rest hplace hmailbox =>
      cases command with
      | run => exact ⟨runs, [], 0, by
          simp [Hand.marks, hmailbox, hplace, Command.place, WorkerPlace.marks, runMarks]⟩
      | stop => exact ⟨runs, [], 0, by
          simp [Hand.marks, hmailbox, hplace, Command.place, WorkerPlace.marks]⟩
  | leave once hplace =>
      refine ⟨runs, tasks, n, ?_⟩
      rcases hplace with hplace | hplace
      · simp [Hand.marks, hplace, WorkerPlace.marks]
      · simp [Hand.marks, hplace, WorkerPlace.marks]
  | pop once s rest hplace _ hqueue => exact ⟨runs, tasks, n, by
      simp [Hand.marks, hplace, hqueue, WorkerPlace.marks, TaskPlace.marks]⟩
  | publish once s hplace =>
      have hcurrent : hand.current? = none := by rw [hcandid, hplace]; rfl
      exact ⟨runs, tasks, 0, by
        simp [Hand.marks, hplace, hcurrent, WorkerPlace.marks, TaskPlace.marks]⟩
  | unlockQueue once s hplace | fail once s outcome hplace | complete once s outcome hplace =>
      exact ⟨runs, tasks, n, by simp [Hand.marks, hplace, WorkerPlace.marks, TaskPlace.marks]⟩
  | clear once s hplace =>
      have hcurrent : hand.current? = some s.function := by rw [hcandid, hplace]; rfl
      exact ⟨runs, tasks, n, by
        simp [Hand.marks, hplace, hcurrent, WorkerPlace.marks, TaskPlace.marks]⟩
  | report once s hplace =>
      refine ⟨runs, tasks ++ [(s, n)], 0, ?_⟩
      cases once with
      | false | true =>
          simp [Hand.marks, hplace, WorkerPlace.marks, TaskPlace.marks, runMarks_append, taskMarks]
  | rest hplace =>
      have hrunning := (hsound.busy (by rw [hplace]; rfl)).1
      exact ⟨runs, tasks, n, by simp [Hand.marks, hplace, hrunning, WorkerPlace.marks]⟩
  | announce hplace => exact ⟨runs ++ [tasks], [], 0, by
      simp [Hand.marks, hplace, WorkerPlace.marks, pastMarks_append]⟩

theorem Crew.Step.marks (h : Crew.Step me c e c' e') :
    c.marks i c' = [] ∨ c.marks i c' = [.announced] := by
  have hhands : (c.hands[i]?.elim [] fun hand => c'.hands[i]?.elim [] hand.marks) = [] := by
    cases hhand' : c'.hands[i]? with
    | none =>
        cases c.hands[i]? with
        | none | some => rfl
    | some hand' =>
        have htouched : Touched (.host 0) c e e' i hand' := h.touched hhand'
        cases htouched with
        | same hhand => simp [hhand, Hand.marks]
        | raised hhand _ _ _ _ heq | started hhand _ _ _ heq | stopped hhand _ _ heq =>
            simp [hhand, heq, Hand.marks, List.count_append]
        | hired hi => simp [hi]
        | own _ hme => cases hme
  simp only [Crew.marks, hhands]
  cases h with
  | notify => exact .inr (by simp)
  | push => exact .inl (by simp)
  | still | count | lock | lockHired | skip | stop | raise | send | hold | unlock | take | tell
  | hire | add => exact .inl (by simp [Crew.modify])

theorem Crew.marks_self (c : Crew) : c.marks i c = [] := by
  cases hhand : c.hands[i]? with
  | none | some => simp [marks, hhand, Hand.marks]

/-- The place of a worker; one that is not hired yet has not begun. -/
def Crew.placeOf (c : Crew) (i : Nat) : WorkerPlace :=
  c.view (fun _ => .beginning) id (.worker i)

theorem Crew.placeOf_eq (h : c.hands[i]? = some hand) : c.placeOf i = hand.place := by
  simp [placeOf, view, h]

theorem World.placeOf_scene (w : World) :
    w.scene.placeOf i = w.crew.view (fun _ => .beginning) WorkerPlace.bare (.worker i) := by
  simp only [World.scene, Crew.scene, Crew.placeOf, Crew.view, List.getElem?_map]
  cases w.crew.hands[i]? with
  | none | some => rfl

theorem WorkerPlace.Follows.announce {once : Bool} {activity : Activity} {p : WorkerPlace}
    (h : p.Follows log) (hp : p = .executing once s (.running activity)) :
    p.Follows (log ++ [.announced]) := by
  obtain ⟨runs, tasks, n, rfl⟩ := h
  exact ⟨runs, tasks, n + 1, by
    simp [hp, WorkerPlace.marks, TaskPlace.marks, List.replicate_succ']⟩

theorem Stride.follows {owed : Caller → Option Nat} (ho : Orderly w.scene owed)
    (h : Stride (.worker i) w w') (hlog : (w.scene.placeOf i).Follows log) :
    (w'.scene.placeOf i).Follows (log ++ w.scene.marks i w'.scene) := by
  cases h with
  | errand hcode h =>
      obtain ⟨hand, once, s, activity, hhand, hplace⟩ := hcode
      have hsame : w'.scene.placeOf i = w.scene.placeOf i := h.view_eq _
      rw [hsame]
      rcases h.marks (i := i) with hmarks | hmarks
      · rwa [hmarks, List.append_nil]
      · rw [hmarks]
        exact hlog.announce ((Crew.placeOf_eq hhand).trans hplace)
  | own hme hhand hown hscene =>
      cases hme
      obtain ⟨hsound, hcandid⟩ := ho.hands hhand
      have hhand' := (hown.put_getElem? hhand i).trans (if_pos rfl)
      rw [Crew.placeOf_eq hhand] at hlog
      rw [hscene, Crew.placeOf_eq hhand']
      exact hown.follows hhand hsound hcandid hlog

theorem Tending.marks_eq_nil {tending : Tending} (hm : ∀ m, tending ≠ .move m) :
    tending.marks i w w' = [] := by
  cases tending with
  | move m => exact absurd rfl (hm m)
  | start | command | stop => rfl

theorem Tended.Turn.follows {t t' : Tended} {tending : Tending}
    (ho : Orderly t.world.scene t.owed?) (h : t.Turn tending t')
    (hlog : (t.world.scene.placeOf i).Follows log) :
    (t'.world.scene.placeOf i).Follows (log ++ tending.marks i t.world t'.world) := by
  cases h with
  | @stride pick me w h =>
      by_cases hme : me = .worker i
      · subst hme
        rw [Tending.marks, if_pos rfl]
        exact h.follows ho hlog
      · rw [Tending.marks, if_neg hme, List.append_nil]
        rw [World.placeOf_scene] at hlog ⊢
        rwa [h.view_eq (Ne.symm hme)]
  | @stir m w h =>
      have hmarks : Tending.marks i t.world w (.move m) = [] := by
        cases m with
        | step => simp [Tending.marks, h.scene_eq, Crew.marks_self]
        | _ => rfl
      rwa [hmarks, List.append_nil, h.scene_eq]
  | call k hm h =>
      have hsame : t'.world.scene.placeOf i = t.world.scene.placeOf i := h.view_eq _
      rwa [Tending.marks_eq_nil hm, List.append_nil, hsame]
  | withdraw k serial hm hscene =>
      have hsame : t'.world.scene.placeOf i = t.world.scene.placeOf i := by
        rw [hscene]
        apply Crew.view_modify
        intro hand
        rfl
      rwa [Tending.marks_eq_nil hm, List.append_nil, hsame]

/-- What holds of a tended world and of the marks of a worker so far. -/
structure Tended.Steady (t : Tended) (i : Nat) (log : List Mark) : Prop where
  known : Known t.world.scene t.world.errand
  orderly : Orderly t.world.scene t.owed?
  follows : (t.world.scene.placeOf i).Follows log

theorem Tended.Steady.turn {t t' : Tended} {tending : Tending} (hs : t.Steady i log)
    (h : t.Turn tending t') : t'.Steady i (log ++ tending.marks i t.world t'.world) where
  known := hs.known.turn h
  orderly := hs.orderly.deal (h.deal hs.known)
  follows := h.follows hs.orderly hs.follows

theorem Tended.Steady.run {library : Library} {t t' : Tended} {tendings : List Tending}
    (hs : t.Steady i log) (h : t.follow library tendings = some t') :
    t'.Steady i (log ++ t.marks library i tendings) := by
  induction tendings generalizing t log with
  | nil =>
      cases h
      rwa [marks, List.append_nil]
  | cons tending tendings ih =>
      rw [follow, List.foldlM_cons] at h
      obtain ⟨u, hu, h⟩ := Option.bind_eq_some_iff.mp h
      rw [marks, hu, Option.elim_some, ← List.append_assoc]
      exact ih (hs.turn (next?_turn hu)) h

theorem Tended.steady_initial (engine : Engine) (main : ContextId) (poolSize others : Nat) :
    (Tended.initial engine main poolSize others).Steady i [] where
  known := by
    constructor
    · intro i hi
      simp [initial] at hi
    · intro thread i hi
      simp [initial, World.errand_initial, Errand.workers] at hi
  orderly := by
    constructor
    · intro i hand hi
      simp [initial] at hi
    · intro caller i hi
      cases caller with
      | thread | call => simp [initial, owed?, World.errand_initial, Errand.owed?] at hi
    · intro caller caller' i hi
      cases caller with
      | thread | call => simp [initial, owed?, World.errand_initial, Errand.owed?] at hi
  follows := ⟨[], [], 0, rfl⟩

section Blocks

variable {α : Type} {b : α} {body rest earlier later : List α} {bodies : List (List α)}

theorem exists_middle_of_append_eq (hbody : b ∉ body) (h : body ++ rest = earlier ++ b :: later) :
    ∃ middle, earlier = body ++ middle ∧ rest = middle ++ b :: later := by
  rcases List.append_eq_append_iff.mp h with hmiddle | ⟨middle, hsplit, hlater⟩
  · exact hmiddle
  · cases middle with
    | nil => exact ⟨[], by simpa using hsplit.symm, hlater.symm⟩
    | cons x middle =>
        cases hlater
        simp [hsplit] at hbody

/-- What stands between two occurrences of the mark that begins a block is a whole block, and not
the last one. -/
theorem mem_dropLast_of_flatMap_cons {run : List α} (hfree : ∀ body ∈ bodies, b ∉ body)
    (hrun : b ∉ run) (h : bodies.flatMap (b :: ·) = earlier ++ b :: run ++ b :: later) :
    run ∈ bodies.dropLast := by
  induction bodies generalizing earlier with
  | nil => simp at h
  | cons body bodies ih =>
      obtain ⟨hbody, hfree⟩ := List.forall_mem_cons.mp hfree
      rw [List.flatMap_cons, List.append_assoc] at h
      cases earlier with
      | nil =>
          obtain ⟨middle, rfl, hrest⟩ := exists_middle_of_append_eq hbody (List.cons.inj h).2
          cases bodies with
          | nil => simp at hrest
          | cons next bodies =>
              cases middle with
              | nil => simp
              | cons x middle =>
                  obtain rfl := (List.cons.inj hrest).1
                  simp at hrun
      | cons x earlier =>
          obtain ⟨middle, rfl, hrest⟩ := exists_middle_of_append_eq hbody (List.cons.inj h).2
          have hmem := ih hfree (by rw [List.append_assoc]; exact hrest)
          cases bodies with
          | nil => simp at hmem
          | cons next bodies => exact List.mem_cons_of_mem _ hmem

end Blocks

theorem began_notMem_taskMarks (task : Submission × Nat) : .began ∉ taskMarks task := by
  simp [taskMarks, List.mem_replicate]

theorem began_notMem_flatMap_taskMarks (tasks : List (Submission × Nat)) :
    .began ∉ tasks.flatMap taskMarks := by
  intro h
  obtain ⟨task, -, htask⟩ := List.mem_flatMap.mp h
  exact began_notMem_taskMarks task htask

theorem TaskPlace.began_notMem_marks (p : TaskPlace) : .began ∉ p.marks s n := by
  cases p with
  | publishing | unlockingQueue | preparing | running | lockingMain | writing | unlockingMain
  | counting | countingTotal | replacing | clearing | notifying =>
      simp [marks, List.mem_replicate]

theorem WorkerPlace.marks_cases (p : WorkerPlace) (tasks : List (Submission × Nat)) (n : Nat) :
    p.marks tasks n = [] ∨ ∃ body, p.marks tasks n = .began :: body ∧ .began ∉ body := by
  have hfree := began_notMem_flatMap_taskMarks tasks
  cases p with
  | beginning | receiving | exiting | gone => exact .inl rfl
  | measuring | comparing | checking | popping | resting => exact .inr ⟨_, rfl, hfree⟩
  | executing once s p =>
      refine .inr ⟨_, rfl, fun h => ?_⟩
      rcases List.mem_append.mp h with h | h
      · exact hfree h
      · exact p.began_notMem_marks h
  | announcing => exact .inr ⟨_, rfl, by simp [hfree]⟩

theorem began_notMem_overMarks (tasks : List (Submission × Nat)) : .began ∉ overMarks tasks := by
  have htasks := began_notMem_flatMap_taskMarks tasks
  simp [overMarks, htasks]

theorem pastMarks_eq (runs : List (List (Submission × Nat))) :
    pastMarks runs = (runs.map overMarks).flatMap (.began :: ·) := by
  rw [pastMarks, List.flatMap_map]

theorem WorkerPlace.Follows.between {p : WorkerPlace} {earlier run later : List Mark}
    (h : p.Follows log) (hlog : log = earlier ++ .began :: run ++ .began :: later)
    (hrun : .began ∉ run) : ∃ tasks, run = overMarks tasks := by
  obtain ⟨runs, tasks, n, rfl⟩ := h
  have hfree : ∀ body ∈ runs.map overMarks, .began ∉ body :=
    List.forall_mem_map.mpr fun tasks _ => began_notMem_overMarks tasks
  rw [pastMarks_eq] at hlog
  have hmem : run ∈ runs.map overMarks := by
    rcases p.marks_cases tasks n with hmarks | ⟨body, hmarks, hbody⟩
    · rw [hmarks, List.append_nil] at hlog
      exact List.mem_of_mem_dropLast (mem_dropLast_of_flatMap_cons hfree hrun hlog)
    · -- the run in progress is the last block, and no other run has begun since
      have hall : (runs.map overMarks ++ [body]).flatMap (.began :: ·) =
          earlier ++ .began :: run ++ .began :: later := by
        rw [List.flatMap_append, List.flatMap_singleton, ← hmarks, hlog]
      have hfree' : ∀ body' ∈ runs.map overMarks ++ [body], .began ∉ body' :=
        List.forall_mem_append.mpr ⟨hfree, List.forall_mem_singleton.mpr hbody⟩
      have hlast := mem_dropLast_of_flatMap_cons hfree' hrun hall
      rwa [List.dropLast_concat] at hlast
  obtain ⟨tasks, -, rfl⟩ := List.mem_map.mp hmem
  exact ⟨tasks, rfl⟩

theorem Hand.Sound.count_le (hs : hand.Sound) :
    hand.mailbox.count .run + (if hand.place.isBusy then 1 else 0) ≤ 1 := by
  by_cases hm : .run ∈ hand.mailbox
  · have hidle : hand.place.isBusy = false :=
      Bool.eq_false_iff.mpr fun hb => (hs.busy hb).2 hm
    simp [hidle, (hs.mailed hm).2]
  · rw [List.count_eq_zero.mpr hm]
    split
    · simp
    · simp

theorem Hand.Candid.current?_eq_none (hc : hand.Candid) (hidle : hand.place.isBusy = false) :
    hand.current? = none := by
  cases hs : hand.place.shown? with
  | none => rw [hc, hs, Option.map_none]
  | some s =>
      rw [WorkerPlace.isBusy_of_shown? hs] at hidle
      cases hidle

theorem WorkerPlace.Follows.showing {p : WorkerPlace} (h : p.Follows log)
    (hs : p.shown? = some s) :
    ∃ runs tasks n, log = pastMarks runs ++ runMarks tasks ++
      .claimed s :: .showed s.function :: List.replicate n .announced := by
  obtain ⟨runs, tasks, n, rfl⟩ := h
  refine ⟨runs, tasks, n, ?_⟩
  cases p with
  | executing once s' p =>
      cases p with
      | publishing | notifying => cases hs
      | _ =>
          cases hs
          exact (List.append_assoc _ _ _).symm
  | _ => cases hs

theorem Hand.Candid.of_bare (hc : hand.bare.Candid) : hand.Candid := by
  have hcurrent : hand.current? = hand.place.bare.shown?.map Submission.function := hc
  rwa [WorkerPlace.shown?_bare] at hcurrent

theorem WorkerPlace.Follows.of_bare {p : WorkerPlace} (h : p.bare.Follows log) : p.Follows log := by
  obtain ⟨runs, tasks, n, rfl⟩ := h
  exact ⟨runs, tasks, n, by rw [p.marks_bare]⟩

/-- The flag of a worker covers its runs.

Threads try to start workers and tell them to stop in any order and at any time, between the steps
of the worker and between raising its flag and sending it the command. Whatever they do, a worker
has at most one command to run in its mailbox or in progress, where a run is in progress from the
moment when the command is taken until the flag is lowered. A worker whose flag is down has no
command to run ahead of it, is in no run and shows no function. A worker that shows a function has
its flag raised and is executing a task with that function: it has claimed this task, and since then
it has shown the function and otherwise only announced progress, as the code of a task may. Between
two runs, after the last task of the first, the worker lowers its flag and announces progress; the
next command may be in the mailbox before that announcement. Whoever has raised the flag and not
sent the command yet is alone in this, and the worker waits for the command. -/
theorem flag_covers_worker_runs (library : Library) (engine : Engine) (main : ContextId)
    (poolSize others : Nat) (tendings : List Tending) (t : Tended)
    (h : (Tended.initial engine main poolSize others).follow library tendings = some t)
    (i : Nat) (worker : Worker) (hworker : t.world.workers[i]? = some worker) :
    worker.mailbox.count .run + (if worker.place.isBusy then 1 else 0) ≤ 1 ∧
    (worker.running = false →
      .run ∉ worker.mailbox ∧ worker.place.isBusy = false ∧ worker.current? = none) ∧
    (∀ name, worker.current? = some name →
      worker.running = true ∧ worker.place.isBusy = true ∧
      ∃ s runs tasks n, worker.place.shown? = some s ∧ s.function = name ∧
        (Tended.initial engine main poolSize others).marks library i tendings =
          pastMarks runs ++ runMarks tasks ++
            .claimed s :: .showed name :: List.replicate n .announced) ∧
    (∀ earlier run later,
      (Tended.initial engine main poolSize others).marks library i tendings =
        earlier ++ .began :: run ++ .began :: later → .began ∉ run →
      ∃ tasks : List (Submission × Nat),
        run = tasks.flatMap taskMarks ++ [.lowered, .announced]) ∧
    ∀ caller, t.owed? caller = some i →
      worker.running = true ∧ .run ∉ worker.mailbox ∧ worker.place.isBusy = false ∧
      ∀ caller', t.owed? caller' = some i → caller' = caller := by
  have hsteady := (Tended.steady_initial (i := i) engine main poolSize others).run h
  rw [List.nil_append] at hsteady
  obtain ⟨-, horderly, hfollows⟩ := hsteady
  have hhand := World.scene_hands_getElem? hworker
  rw [Crew.placeOf_eq hhand] at hfollows
  have hsound : worker.hand.Sound := (horderly.hands hhand).1.of_bare
  have hcandid : worker.hand.Candid := (horderly.hands hhand).2.of_bare
  have hfollows : worker.place.Follows _ := hfollows.of_bare
  refine ⟨hsound.count_le, fun hdown => ?_, fun name hname => ?_,
    fun earlier run later hlog hrun => hfollows.between hlog hrun, fun caller howed => ?_⟩
  · have hresting := hsound.resting hdown
    exact ⟨hresting.unmailed, hresting.idle, hcandid.current?_eq_none hresting.idle⟩
  · have hshown : some name = worker.place.shown?.map Submission.function := hname ▸ hcandid
    obtain ⟨s, hs, rfl⟩ := Option.map_eq_some_iff.mp hshown.symm
    have hbusy := WorkerPlace.isBusy_of_shown? hs
    obtain ⟨runs, tasks, n, hlog⟩ := hfollows.showing hs
    exact ⟨(hsound.busy hbusy).1, hbusy, s, runs, tasks, n, hs, rfl, hlog⟩
  · obtain ⟨hand, hhand', harmed⟩ := horderly.armed howed
    cases hhand.symm.trans hhand'
    have harmed : worker.hand.Armed := harmed.of_bare
    exact ⟨harmed.running, harmed.unmailed, harmed.idle,
      fun caller' howed' => horderly.alone howed' howed⟩

def soloTended : Tended :=
  Tended.initial (Engine.initial "solo" none).createContext.2 0 1 0

/-- The worker has lowered its flag and not announced that yet when a thread raises the flag again.
Another task is submitted, and then the command is sent. -/
def soloTwice : List Tending :=
  [soloSubmitted.map .move, List.replicate 19 (.move (.step 0 (.worker 0))),
    [.start (.host 0) 0, .move (.begin 0 (.ask 0 (.parallel "x = f()")))],
    List.replicate 8 (.move (.step 0 (.host 0))), [.command (.host 0) 0],
    List.replicate 7 (.move (.step 0 (.worker 0)))].flatten

/-- Whether the first of some marks begins a run, and another one after it. -/
def beginsTwice : List Mark → Bool
  | .began :: marks => marks.any (· matches .began)
  | _ => false

/-- A worker shows a function in its second run. -/
theorem flag_covers_worker_runs_solo : ∃ t worker run later,
    soloTended.follow soloLibrary soloTwice = some t ∧ t.world.workers[0]? = some worker ∧
    worker.current? = some "f" ∧ worker.running = true ∧
    soloTended.marks soloLibrary 0 soloTwice = .began :: run ++ .began :: later ∧
    ∃ tasks : List (Submission × Nat),
      run = tasks.flatMap taskMarks ++ [.lowered, .announced] := by
  have hend : (soloTended.follow soloLibrary soloTwice).any (fun t =>
      t.world.workers[0]?.any fun worker => worker.current? = some "f") = true := by
    decide +kernel
  have htwice : beginsTwice (soloTended.marks soloLibrary 0 soloTwice) = true := by
    decide +kernel
  obtain ⟨t, ht, hend⟩ := (Option.any_eq_true _ _).mp hend
  obtain ⟨worker, hworker, hshows⟩ := (Option.any_eq_true _ _).mp hend
  have hcurrent : worker.current? = some "f" := of_decide_eq_true hshows
  obtain ⟨-, -, hshown, hbetween, -⟩ := flag_covers_worker_runs _ _ _ _ _ _ _ ht 0 worker hworker
  obtain ⟨run, later, hlog, hrun⟩ : ∃ run later,
      soloTended.marks soloLibrary 0 soloTwice = .began :: run ++ .began :: later ∧
        .began ∉ run := by
    generalize soloTended.marks soloLibrary 0 soloTwice = log at htwice
    unfold beginsTwice at htwice
    split at htwice
    · next marks =>
        obtain ⟨mark, hmark, hbegan⟩ := List.any_eq_true.mp htwice
        cases mark with
        | began =>
            cases hbegan
            obtain ⟨run, later, rfl, hrun⟩ := List.eq_append_cons_of_mem hmark
            exact ⟨run, later, rfl, hrun⟩
        | claimed | showed | cleared | lowered | announced => cases hbegan
    · cases htwice
  exact ⟨t, worker, run, later, ht, hworker, hcurrent, (hshown "f" hcurrent).1, hlog,
    hbetween [] run later hlog hrun⟩

end ScriptPool

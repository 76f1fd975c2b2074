import ScriptPool.Proofs.Pool.Stock

/-!
In which contexts threads set globals.

A thread of the host works in the contexts of the host and a worker in its own one, and nobody else
reaches the context of a worker. Besides code, only a capture, the start of a task and the writing of
its results set globals.
-/

namespace ScriptPool

/-- The contexts in which the next step of a request sets globals. -/
def Asking.touches : Asking → List ContextId
  | .submit source (.tagging ..) => [source]
  | _ => []

/-- The context in which the next step of code sets a global. -/
def Activity.sets? (activity : Activity) : Option ContextId :=
  match activity.asking?, activity.execution.code with
  | none, .perform (.writeGlobal ..) _ => some activity.execution.context
  | _, _ => none

def Activity.touches (activity : Activity) : List ContextId :=
  activity.asking?.elim activity.sets?.toList Asking.touches

def HostPlace.touches : HostPlace → List ContextId
  | .asking a => a.touches
  | .running activity => activity.touches
  | _ => []

def WorkerPlace.touches (context main : ContextId) : WorkerPlace → List ContextId
  | .executing _ _ .preparing => [context]
  | .executing _ _ (.running activity) => activity.touches
  | .executing _ _ (.writing _ (_ :: _) _) => [context, main]
  | _ => []

/-- The private context of a worker. -/
def World.contextOf? (w : World) (i : Nat) : Option ContextId :=
  w.workers[i]?.map (·.context)

/-- Globals are set in some contexts only, and everybody keeps the contexts that they have. -/
structure Aside (cs : List ContextId) (w w' : World) : Prop where
  hostContexts : w'.hostContexts = w.hostContexts
  globals : ∀ c < w.engine.contexts.length, c ∉ cs → w'.engine.globals c = w.engine.globals c
  contexts : ∀ i c, w.contextOf? i = some c → w'.contextOf? i = some c

variable {library : Library} {pick : Nat} {me : ThreadId} {w v w' : World} {cs : List ContextId}
  {c : ContextId} {i : Nat}

theorem World.contextOf?_eq_stations (w : World) (i : Nat) :
    w.contextOf? i = w.stations[i]?.map Prod.fst := by
  rw [World.contextOf?, World.stations, List.getElem?_map, Option.map_map]
  rfl

theorem Aside.refl (cs : List ContextId) (w : World) : Aside cs w w :=
  ⟨rfl, fun _ _ _ => rfl, fun _ _ h => h⟩

theorem Aside.still (h : Aside cs w v) (hv : Still v w') (hhost : w'.hostContexts = v.hostContexts) :
    Aside cs w w' where
  hostContexts := hhost.trans h.hostContexts
  globals := fun c hc hcs => (Engine.globals_of_contexts hv.contexts c).trans (h.globals c hc hcs)
  contexts := fun i c hi => by
    rw [World.contextOf?_eq_stations, hv.stations, ← World.contextOf?_eq_stations]
    exact h.contexts i c hi

theorem Still.aside (h : Still w w') (hhost : w'.hostContexts = w.hostContexts)
    (cs : List ContextId) : Aside cs w w' :=
  (Aside.refl cs w).still h hhost

theorem Oversees.hostContexts (h : Oversees me w w') : w'.hostContexts = w.hostContexts := by
  induction h with
  | refl => rfl
  | lock _ hlock ih =>
      obtain ⟨-, rfl⟩ := World.lockPool_eq_some_iff.mp hlock
      exact ih
  | unlock _ ih | raise _ _ ih | send _ _ ih | report _ _ ih => exact ih

theorem Manages.hostContexts (h : Manages me w w') : w'.hostContexts = w.hostContexts := by
  induction h with
  | refl => rfl
  | oversees _ hv ih => exact hv.hostContexts.trans ih
  | regroup _ _ ih | dismiss _ _ ih | close _ ih | notify _ ih | size _ _ ih => exact ih

theorem Manages.aside (h : Manages me w w') (cs : List ContextId) : Aside cs w w' :=
  h.still.aside h.hostContexts cs

theorem World.privateContext_aside {result : Except ScriptError ContextId}
    (h : w.privateContext = (result, v)) : Aside cs w v ∧ v.workers = w.workers := by
  rcases World.privateContext_eq h with ⟨-, rfl⟩ | ⟨e, -, rfl, -, hglobals⟩
  · exact ⟨.refl cs _, rfl⟩
  · exact ⟨⟨rfl, fun c hc _ => hglobals c hc, fun _ _ h => h⟩, rfl⟩

theorem Aside.addWorker (h : Aside cs w v) (hworkers : v.workers = w.workers) (id : Nat)
    (c : ContextId) : Aside cs w (v.addWorker id c) where
  hostContexts := h.hostContexts
  globals := h.globals
  contexts := fun i c' hi => by
    have hlt : i < w.workers.length := by
      rw [World.contextOf?, Option.map_eq_some_iff] at hi
      obtain ⟨worker, hworker, -⟩ := hi
      exact (List.getElem?_eq_some_iff.mp hworker).1
    rw [World.contextOf?, World.addWorker, hworkers, List.getElem?_append_left hlt]
    exact hi

theorem Hires.aside (h : Hires me w w') (cs : List ContextId) : Aside cs w w' := by
  cases h with
  | manages h => exact h.aside cs
  | hire id hcontext h =>
      obtain ⟨hv, hworkers⟩ := World.privateContext_aside hcontext
      exact (hv.addWorker hworkers id _).still h.calm.toStill h.hostContexts
  | fail hcontext => exact (World.privateContext_aside hcontext).1

theorem submitStep_aside {source : ContextId} {place : SubmitPlace} {stage : Stage SubmitPlace Reply}
    (h : submitStep source me w place = some (w', stage)) :
    Aside (Asking.submit source place).touches w w' := by
  cases stage with
  | going place' =>
      cases submitStep_goes h with
      | checked | checkedApart | found | copied | moved | read | readApart => exact .refl _ w
      | locked | unlocked | pushed | counted | notified =>
          exact ⟨rfl, fun _ _ _ => rfl, fun _ _ h => h⟩
      | tagged =>
          refine ⟨rfl, fun c _ hc => ?_, fun _ _ h => h⟩
          exact Engine.globals_setGlobals_of_ne _ _ (List.ne_of_not_mem_cons hc)
      | start hs => exact (startStep_oversees hs).manages.aside _
  | «over» reply =>
      cases submitStep_replies h with
      | refused | misread => exact .refl _ w
      | idle hs => exact ((startStep_oversees hs).report _).manages.aside _
      | started _ hs => exact (startStep_oversees hs).manages.aside _

theorem askingStep_aside {a : Asking} {stage : Stage Asking Reply}
    (h : askingStep pick me w a = some (w', stage)) : Aside a.touches w w' := by
  cases askingStep_goes h with
  | submits hs | submitted hs => exact submitStep_aside hs
  | joins hs | joined hs => exact (joinStep_oversees hs).manages.aside _
  | joinsAll hs | joinedAll hs => exact (joinAllStep_oversees hs).manages.aside _
  | resizes hs | resized hs => exact (resizeStep_hires hs).aside _
  | acquires | acquired | releases | released =>
      exact (World.withSections_calm _ _ _).toStill.aside rfl _
  | refused => exact .refl _ w

theorem Execution.step_globals {x x' : Execution} {e e' : Engine}
    (h : x.step library e = .goesOn x' e') (hc : c ∉ (Activity.mk x none).touches) :
    e'.globals c = e.globals c := by
  rcases (Execution.step_keeps h).contexts with hsame | ⟨name, value, next, hcode, rfl⟩
  · rw [Engine.globals, hsame, Engine.globals]
  · have htouches : (Activity.mk x none).touches = [x.context] := by
      simp only [Activity.touches, Activity.sets?, hcode]
      rfl
    rw [htouches] at hc
    exact Engine.globals_setGlobals_of_ne _ _ (List.ne_of_not_mem_cons hc)

theorem activityStep_aside {activity : Activity} {stage : Stage Activity Ending}
    (h : activityStep library pick me w activity = some (w', stage)) :
    Aside activity.touches w w' := by
  cases activityStep_goes h with
  | asks hs | replied hs => exact askingStep_aside hs
  | went hstep => exact ⟨rfl, fun c _ hc => Execution.step_globals hstep hc, fun _ _ h => h⟩
  | asked | ended => exact .refl _ w

/-- Calls are submitted from some contexts only. -/
def Asking.WorksIn (p : ContextId → Prop) : Asking → Prop
  | .submit source _ => p source
  | _ => True

/-- Code runs in some contexts only, and submits calls from there. -/
def Activity.WorksIn (p : ContextId → Prop) (activity : Activity) : Prop :=
  p activity.execution.context ∧ ∀ a, activity.asking? = some a → a.WorksIn p

def HostPlace.WorksIn (p : ContextId → Prop) : HostPlace → Prop
  | .asking a => a.WorksIn p
  | .running activity => activity.WorksIn p
  | _ => True

def WorkerPlace.WorksIn (p : ContextId → Prop) : WorkerPlace → Prop
  | .executing _ _ (.running activity) => activity.WorksIn p
  | _ => True

variable {p : ContextId → Prop}

theorem Asking.WorksIn.touches {a : Asking} (h : a.WorksIn p) : ∀ c ∈ a.touches, p c := by
  intro c hc
  cases a with
  | submit source place =>
      cases place with
      | tagging =>
          obtain rfl := List.mem_singleton.mp hc
          exact h
      | _ => cases hc
  | _ => cases hc

theorem Activity.WorksIn.touches {activity : Activity} (h : activity.WorksIn p) :
    ∀ c ∈ activity.touches, p c := by
  intro c hc
  obtain ⟨x, a?⟩ := activity
  cases a? with
  | some a => exact (h.2 a rfl).touches c hc
  | none =>
      have hsets : Activity.sets? ⟨x, none⟩ = some c := Option.mem_toList.mp hc
      unfold Activity.sets? at hsets
      split at hsets
      · cases hsets
        exact h.1
      · cases hsets

theorem askingStep_worksIn {a a' : Asking} {stage : Stage Asking Reply} (ha : a.WorksIn p)
    (h : askingStep pick me w a = some (v, stage)) (ha' : stage.asking? = some a') :
    a'.WorksIn p := by
  cases askingStep_goes h with
  | submits =>
      cases ha'
      exact ha
  | joins | joinsAll | acquires | releases | resizes =>
      cases ha'
      trivial
  | submitted | joined | joinedAll | acquired | released | resized | refused => cases ha'

theorem Request.begin_worksIn {source : ContextId} (hsource : p source) (r : Request) :
    (r.begin source).WorksIn p := by
  cases r with
  | parallel => exact hsource
  | join | joinAll | resize => trivial
  | acquire id | release id =>
      unfold Request.begin
      dsimp only
      split
      · trivial
      · trivial

theorem activityStep_worksIn {activity activity' : Activity} (hactivity : activity.WorksIn p)
    (h : activityStep library pick me w activity = some (v, .going activity')) :
    activity'.WorksIn p := by
  obtain ⟨hx, ha⟩ := hactivity
  cases activityStep_goes h with
  | asks hs =>
      refine ⟨hx, ?_⟩
      rintro b ⟨⟩
      exact askingStep_worksIn (ha _ rfl) hs rfl
  | @replied x a reply _ hs =>
      refine ⟨?_, by rintro a ⟨⟩⟩
      rw [Execution.answer_context x reply]
      exact hx
  | went hstep =>
      refine ⟨?_, by rintro a ⟨⟩⟩
      rw [(Execution.step_keeps hstep).context]
      exact hx
  | asked =>
      refine ⟨hx, ?_⟩
      rintro b ⟨⟩
      exact Request.begin_worksIn hx _

theorem hostStep_worksIn {host : Nat} {place : HostPlace} (hplace : place.WorksIn p)
    (h : hostStep library pick host place w = some w') :
    ∃ (v : World) (place' : HostPlace), w' = v.placeHost host place' ∧ place'.WorksIn p := by
  obtain ⟨v, place', rfl, hgoes⟩ := hostStep_goes h
  refine ⟨v, place', rfl, ?_⟩
  cases hgoes with
  | asks hs => exact askingStep_worksIn hplace hs rfl
  | runs hs => exact activityStep_worksIn hplace hs
  | opens | opened | replied | closes | closed | measures | measured | ended => trivial

theorem hostStep_aside {host : Nat} {place : HostPlace}
    (h : hostStep library pick host place w = some w') : Aside place.touches w w' := by
  obtain ⟨v, place', rfl, hgoes⟩ := hostStep_goes h
  have hv : Aside place.touches w v := by
    cases hgoes with
    | opens hs | opened hs => exact (openStep_hires hs).aside _
    | asks hs | replied hs => exact askingStep_aside hs
    | closes hs | closed hs => exact (shutdownStep_manages hs).aside _
    | measures hs | measured hs => exact (measureStep_oversees hs).manages.aside _
    | runs hs | ended hs => exact activityStep_aside hs
  exact ⟨hv.hostContexts, hv.globals, hv.contexts⟩

/-- What a step of a worker comes to: contexts of other workers stay, and its own one stays unless
it is replaced. -/
structure Apart (i : Nat) (cs : List ContextId) (w w' : World) : Prop where
  hostContexts : w'.hostContexts = w.hostContexts
  globals : ∀ c < w.engine.contexts.length, c ∉ cs → w'.engine.globals c = w.engine.globals c
  contexts : ∀ j c, j ≠ i → w.contextOf? j = some c → w'.contextOf? j = some c

theorem Aside.apart (h : Aside cs w w') (i : Nat) : Apart i cs w w' :=
  ⟨h.hostContexts, h.globals, fun j c _ => h.contexts j c⟩

theorem World.contextOf?_modifyWorker_of_ne {f : Worker → Worker} {j : Nat} (hne : j ≠ i) :
    (w.modifyWorker i f).contextOf? j = w.contextOf? j := by
  simp [World.contextOf?, World.modifyWorker, Ne.symm hne]

theorem Apart.modifyWorker (h : Apart i cs w v) (f : Worker → Worker) :
    Apart i cs w (v.modifyWorker i f) where
  hostContexts := h.hostContexts
  globals := h.globals
  contexts := fun j c hne hj => by
    rw [World.contextOf?_modifyWorker_of_ne hne]
    exact h.contexts j c hne hj

theorem Apart.report (h : Apart i cs w v) (event : Event) : Apart i cs w (v.report event) :=
  ⟨h.hostContexts, h.globals, h.contexts⟩

theorem TaskPlace.Goes.apart {worker : Worker} {once : Bool} {s : Submission}
    {place place' : TaskPlace} (h : place.Goes library pick i worker s.task w v place') :
    Apart i ((WorkerPlace.executing once s place).touches worker.context w.main) w v := by
  cases h with
  | published | counted | cleared => exact ((Aside.refl _ w).apart i).modifyWorker _
  | unlockedQueue | locked | lockedErrored | unlocked | failed | completed =>
      exact ⟨rfl, fun _ _ _ => rfl, fun _ _ _ h => h⟩
  | prepared =>
      refine ⟨rfl, fun c _ hc => ?_, fun _ _ _ h => h⟩
      exact Engine.globals_setGlobals_of_ne _ _ (List.ne_of_not_mem_cons hc)
  | ran hs => exact (activityStep_aside hs).apart i
  | ended | written => exact (Aside.refl _ w).apart i
  | wrote =>
      refine ⟨rfl, fun c _ hc => ?_, fun _ _ _ h => h⟩
      exact writeResult_globals_of_ne _ _ (List.ne_of_not_mem_cons hc)
        (List.ne_of_not_mem_cons (List.not_mem_of_not_mem_cons hc))
  | @replaced _ u hcontext =>
      apply Apart.modifyWorker
      have hu : Apart i [] w u := (World.privateContext_aside hcontext).1.apart i
      exact ⟨hu.hostContexts, hu.globals, hu.contexts⟩
  | notReplaced hcontext => exact ((World.privateContext_aside hcontext).1.apart i).report _

theorem workerStep_apart {worker : Worker} (h : workerStep library pick i worker w = some w') :
    Apart i (worker.place.touches worker.context w.main) w w' := by
  obtain ⟨place, hplace, hgoes⟩ := workerStep_goes h
  rw [hplace]
  cases hgoes with
  | began | compared | popped | finished | announced | exited =>
      apply Apart.modifyWorker
      exact ⟨rfl, fun _ _ _ => rfl, fun _ _ _ h => h⟩
  | received | measured | checkedEmpty | checked | missed | rested =>
      exact ((Aside.refl _ w).apart i).modifyWorker _
  | went once hs => exact hs.apart.modifyWorker _

/-- The contexts in which the next step of a thread sets globals. -/
def World.touches (w : World) : ThreadId → List ContextId
  | .host host => w.hosts[host]?.elim [] HostPlace.touches
  | .worker i => w.workers[i]?.elim [] fun worker => worker.place.touches worker.context w.main

theorem World.advance_hostContexts (h : w.advance library pick me = some w') :
    w'.hostContexts = w.hostContexts := by
  cases me with
  | host host =>
      obtain ⟨place, -, h⟩ := World.advance_host_iff.mp h
      exact (hostStep_aside h).hostContexts
  | worker i =>
      obtain ⟨worker, -, h⟩ := World.advance_worker_iff.mp h
      exact (workerStep_apart h).hostContexts

theorem World.advance_globals (h : w.advance library pick me = some w')
    (hknown : c < w.engine.contexts.length) (hc : c ∉ w.touches me) :
    w'.engine.globals c = w.engine.globals c := by
  cases me with
  | host host =>
      obtain ⟨place, hplace, h⟩ := World.advance_host_iff.mp h
      rw [World.touches, hplace] at hc
      exact (hostStep_aside h).globals c hknown hc
  | worker i =>
      obtain ⟨worker, hworker, h⟩ := World.advance_worker_iff.mp h
      rw [World.touches, hworker] at hc
      exact (workerStep_apart h).globals c hknown hc

theorem World.advance_contextOf? (h : w.advance library pick me = some w') (hne : .worker i ≠ me)
    (hi : w.contextOf? i = some c) : w'.contextOf? i = some c := by
  cases me with
  | host host =>
      obtain ⟨place, -, h⟩ := World.advance_host_iff.mp h
      exact (hostStep_aside h).contexts i c hi
  | worker j =>
      obtain ⟨worker, -, h⟩ := World.advance_worker_iff.mp h
      exact (workerStep_apart h).contexts i c (fun heq => hne (heq ▸ rfl)) hi

/-- Threads of the host work in the contexts of the host, and workers in their own ones, which are
none of these. -/
structure World.Enclosed (w : World) : Prop where
  hosts : ∀ (host : Nat) (place : HostPlace), w.hosts[host]? = some place →
    place.WorksIn (· ∈ w.hostContexts)
  workers : ∀ (i : Nat) (worker : Worker), w.workers[i]? = some worker →
    worker.place.WorksIn (· = worker.context)
  apart : ∀ i c, w.contextOf? i = some c → c ∉ w.hostContexts
  known : ∀ c ∈ w.hostContexts, c < w.engine.contexts.length

theorem TaskPlace.Goes.worksIn {worker u : Worker} {once : Bool} {s : Submission}
    {place place' : TaskPlace} (hworker : w.workers[i]? = some worker)
    (hplace : (WorkerPlace.executing once s place).WorksIn (· = worker.context))
    (h : place.Goes library pick i worker s.task w v place') (hu : v.workers[i]? = some u) :
    (WorkerPlace.executing once s place').WorksIn (· = u.context) := by
  cases h with
  | prepared =>
      have hsame : w.workers[i]? = some u := hu
      rw [hworker] at hsame
      cases hsame
      exact ⟨rfl, by rintro a ⟨⟩⟩
  | @ran activity _ _ hs =>
      have hactivity : activity.WorksIn (· = worker.context) := hplace
      have hv : v.contextOf? i = some worker.context :=
        (activityStep_aside hs).contexts i _ (by rw [World.contextOf?, hworker]; rfl)
      rw [World.contextOf?, hu] at hv
      have hcontext : u.context = worker.context := Option.some.inj hv
      rw [hcontext]
      exact activityStep_worksIn hactivity hs
  | published | unlockedQueue | ended | locked | lockedErrored | written | wrote | unlocked | counted
  | failed | completed | replaced | notReplaced | cleared => trivial

theorem workerStep_worksIn {worker worker' : Worker} (hworker : w.workers[i]? = some worker)
    (hplace : worker.place.WorksIn (· = worker.context))
    (h : workerStep library pick i worker w = some w') (hworker' : w'.workers[i]? = some worker') :
    worker'.place.WorksIn (· = worker'.context) := by
  have hmodify {v : World} {f : Worker → Worker} (hw' : w' = v.modifyWorker i f) :
      ∃ u, v.workers[i]? = some u ∧ worker' = f u := by
    subst hw'
    rw [World.modifyWorker, List.getElem?_modify_eq] at hworker'
    obtain ⟨u, hu, hfu⟩ := Option.map_eq_some_iff.mp hworker'
    exact ⟨u, hu, hfu.symm⟩
  obtain ⟨place, hwhere, hgoes⟩ := workerStep_goes h
  cases hgoes with
  | received =>
      obtain ⟨u, hu, rfl⟩ := hmodify rfl
      rw [hworker] at hu
      cases hu
      rcases Worker.receive_place hwhere with h | h | h
      · rw [h]
        trivial
      · rw [h]
        trivial
      · rw [h]
        trivial
  | went once hs =>
      obtain ⟨u, hu, rfl⟩ := hmodify rfl
      rw [hwhere] at hplace
      have hafter := hs.worksIn hworker hplace hu
      exact hafter
  | finished once s =>
      obtain ⟨u, -, rfl⟩ := hmodify rfl
      cases once with
      | false | true => trivial
  | began | measured | compared | checkedEmpty | checked | missed | popped | rested | announced
  | exited =>
      obtain ⟨u, -, rfl⟩ := hmodify rfl
      trivial

theorem Stride.host_of_ne (h : Stride me w w') {host : Nat} (hne : .host host ≠ me) :
    w'.hosts[host]? = w.hosts[host]? :=
  h.view_eq hne id fun _ => none

theorem Stride.place_of_ne (h : Stride me w w') {worker' : Worker} (hne : .worker i ≠ me)
    (hworker' : w'.workers[i]? = some worker') :
    worker'.place = w.workers[i]?.elim .beginning (·.place) := by
  have hview := h.view_eq hne (fun _ => .beginning) id
  rw [World.view_worker hworker'] at hview
  refine hview.trans ?_
  simp only [Crew.view, World.crew, List.getElem?_map]
  cases w.workers[i]? with
  | none | some => rfl

theorem Rehomes.contextOf? (h : Rehomes w w') (hmain : w'.main = w.main)
    (hi : w'.contextOf? i = some c) : (∃ j, w.contextOf? j = some c) ∨
      c = w.engine.contexts.length := by
  have hmem {u : World} {j : Nat} (hj : u.contextOf? j = some c) :
      c ∈ u.workers.map (·.context) := by
    rw [World.contextOf?, Option.map_eq_some_iff] at hj
    obtain ⟨worker, hworker, rfl⟩ := hj
    exact List.mem_map_of_mem (List.mem_of_getElem? hworker)
  have hold (hc : c ∈ w.workers.map (·.context)) : ∃ j, w.contextOf? j = some c := by
    obtain ⟨j, hj⟩ := List.mem_iff_getElem?.mp hc
    exact ⟨j, by rw [World.contextOf?, ← List.getElem?_map]; exact hj⟩
  have hc := hmem hi
  cases h with
  | keep hhomes =>
      rw [World.homes, World.homes, hmain, List.cons.injEq] at hhomes
      exact .inl (hold (hhomes.2 ▸ hc))
  | hire hhomes =>
      rw [World.homes, World.homes, hmain, List.cons_append, List.cons.injEq] at hhomes
      rw [hhomes.2, List.mem_append, List.mem_singleton] at hc
      exact hc.imp_left hold
  | replace k hhomes =>
      rw [World.homes, World.homes, hmain] at hhomes
      cases k with
      | zero =>
          rw [List.set_cons_zero, List.cons.injEq] at hhomes
          exact .inl (hold (hhomes.2 ▸ hc))
      | succ k =>
          rw [List.set_cons_succ, List.cons.injEq] at hhomes
          rw [hhomes.2] at hc
          exact (List.mem_or_eq_of_mem_set hc).imp_left hold

theorem World.Enclosed.advance (he : w.Enclosed) (hm : MainLocked w)
    (h : w.advance library pick me = some w') : w'.Enclosed := by
  have hstride := World.advance_stride h
  have hhostContexts := World.advance_hostContexts h
  have hrehomes := World.advance_rehomes h
  have hmain := (World.advance_main (hm.apt me) h).1.main_eq
  have hmade : w.engine.contexts.length ≤ w'.engine.contexts.length := by
    cases hrehomes with
    | keep _ hmade => exact hmade
    | hire _ hmade | replace _ _ hmade => exact hmade.le
  constructor
  case hosts =>
    intro host place hplace
    rw [hhostContexts]
    by_cases hme : .host host = me
    · subst hme
      obtain ⟨place₀, hplace₀, h⟩ := World.advance_host_iff.mp h
      obtain ⟨v, place', rfl, hworks⟩ := hostStep_worksIn (he.hosts host place₀ hplace₀) h
      rw [World.placeHost, List.getElem?_set] at hplace
      split at hplace
      · split at hplace
        · cases hplace
          exact hworks
        · cases hplace
      · next hne => exact absurd rfl hne
    · rw [hstride.host_of_ne hme] at hplace
      exact he.hosts host place hplace
  case workers =>
    intro i worker' hworker'
    by_cases hme : .worker i = me
    · subst hme
      obtain ⟨worker, hworker, h⟩ := World.advance_worker_iff.mp h
      exact workerStep_worksIn hworker (he.workers i worker hworker) h hworker'
    · rw [hstride.place_of_ne hme hworker']
      cases hworker : w.workers[i]? with
      | none => trivial
      | some worker =>
          have hcontext := World.advance_contextOf? h hme
            (show w.contextOf? i = some worker.context by rw [World.contextOf?, hworker]; rfl)
          rw [World.contextOf?, hworker'] at hcontext
          have hsame : worker'.context = worker.context := Option.some.inj hcontext
          rw [hsame]
          exact he.workers i worker hworker
  case apart =>
    intro i c hi
    rw [hhostContexts]
    rcases hrehomes.contextOf? hmain hi with ⟨j, hj⟩ | rfl
    · exact he.apart j c hj
    · exact fun hmem => (he.known _ hmem).false
  case known =>
    rw [hhostContexts]
    exact fun c hc => (he.known c hc).trans_le hmade

theorem World.Enclosed.move {m : Move} (he : w.Enclosed) (hs : w.Secluded) (hm : MainLocked w)
    (h : w.move? library m = some w') : w'.Enclosed := by
  cases m with
  | step pick thread => exact he.advance hm h
  | begin host call =>
      obtain ⟨hbegin, rfl⟩ := World.move?_begin_iff.mp h
      refine ⟨fun host' place hplace => ?_, he.workers, he.apart, fun c hc => ?_⟩
      rotate_left
      · cases call with
        | ask | shutDown | measure | invoke | load => exact he.known c hc
      have hcall : (call.place library).WorksIn (· ∈ w.hostContexts) := by
        have hcontext : call.context?.all (w.hostContexts.contains ·) = true := by
          simp only [World.canBegin, Bool.and_eq_true] at hbegin
          exact hbegin.2
        cases call with
        | ask source r =>
            simp only [HostCall.context?, Option.all_some, List.contains_iff_mem] at hcontext
            exact Request.begin_worksIn hcontext r
        | invoke | load =>
            simp only [HostCall.context?, Option.all_some, List.contains_iff_mem] at hcontext
            exact ⟨hcontext, by rintro a ⟨⟩⟩
        | shutDown | measure => trivial
      simp only [World.begin, World.placeHost, List.getElem?_set] at hplace
      split at hplace
      · split at hplace
        · cases hplace
          exact hcall
        · cases hplace
      · exact he.hosts host' place hplace
  | addContext =>
      cases h
      have hgrows {q : HostPlace} (hq : q.WorksIn (· ∈ w.hostContexts)) :
          q.WorksIn (· ∈ w.addContext.1.hostContexts) := by
        have hmem : ∀ c, c ∈ w.hostContexts → c ∈ w.addContext.1.hostContexts :=
          fun c hc => List.mem_append_left _ hc
        have hasking {a : Asking} (ha : a.WorksIn (· ∈ w.hostContexts)) :
            a.WorksIn (· ∈ w.addContext.1.hostContexts) := by
          cases a with
          | submit source => exact hmem _ ha
          | _ => trivial
        cases q with
        | asking a => exact hasking hq
        | running activity => exact ⟨hmem _ hq.1, fun a ha => hasking (hq.2 a ha)⟩
        | _ => trivial
      have hlength : w.addContext.1.engine.contexts.length = w.engine.contexts.length + 1 := by
        simp [World.addContext, Engine.createContext, Engine.bind]
      refine ⟨fun host place hplace => hgrows (he.hosts host place hplace), he.workers,
        fun i c hi => ?_, fun c hc => ?_⟩
      · have hknown : c < w.engine.contexts.length := by
          apply hs.known
          rw [World.contextOf?, Option.map_eq_some_iff] at hi
          obtain ⟨worker, hworker, rfl⟩ := hi
          exact List.mem_cons_of_mem _ (List.mem_map_of_mem (List.mem_of_getElem? hworker))
        intro hmem
        rcases List.mem_append.mp hmem with hmem | hmem
        · exact he.apart i c hi hmem
        · exact absurd (List.mem_singleton.mp hmem) hknown.ne
      · rw [hlength]
        rcases List.mem_append.mp hc with hc | hc
        · exact (he.known c hc).trans (Nat.lt_succ_self _)
        · exact (List.mem_singleton.mp hc) ▸ Nat.lt_succ_self _
  | setGlobal context name value =>
      obtain ⟨-, rfl⟩ := World.move?_setGlobal_iff.mp h
      exact ⟨he.hosts, he.workers, he.apart, fun c hc => by
        simpa [Engine.set, Engine.setGlobals] using he.known c hc⟩
  | openGate | openAllGates | setBudget =>
      cases h
      exact ⟨he.hosts, he.workers, he.apart, he.known⟩

theorem World.Enclosed.initial {engine : Engine} {main : ContextId}
    (hmain : main < engine.contexts.length) (poolSize others : Nat) :
    (World.initial engine main poolSize others).Enclosed := by
  constructor
  case hosts =>
    intro host place hplace
    simp only [World.initial] at hplace
    cases host with
    | zero =>
        cases hplace
        trivial
    | succ host =>
        simp only [List.getElem?_cons_succ, List.getElem?_replicate] at hplace
        split at hplace
        · cases hplace
          trivial
        · cases hplace
  case workers =>
    intro i worker hworker
    simp [World.initial] at hworker
  case apart =>
    intro i c hi
    simp [World.contextOf?, World.initial] at hi
  case known =>
    intro c hc
    rw [List.mem_singleton.mp hc]
    exact hmain

theorem World.Enclosed.run {moves : List Move} (he : w.Enclosed) (hs : w.Secluded)
    (hm : MainLocked w) (h : Run library w moves w') : w'.Enclosed := by
  induction h using Run.head_induction with
  | nil => exact he
  | cons hv _ ih => exact ih (he.move hs hm hv) (hs.move hv) (hm.move hv)

end ScriptPool

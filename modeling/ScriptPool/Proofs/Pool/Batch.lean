import ScriptPool.Proofs.Pool.Calm
import ScriptPool.Proofs.Pool.JoinAllBarrier
import ScriptPool.Proofs.Script.Inline

namespace ScriptPool

theorem Request.begin_isCalm {r : Request} (h : r.submits = false) (source : ContextId) :
    (r.begin source).isCalm = true := by
  cases r with
  | parallel => cases h
  | join | joinAll | resize => rfl
  | acquire | release =>
      unfold Request.begin
      dsimp only
      split
      · rfl
      · rfl

theorem writeResult_of_plain {context main : ContextId} {name : String} {value : Value}
    (hvalue : value.Plain) (e : Engine) : writeResult context main name value e =
      (e.setGlobals context ((e.globals context).set name value)).set main name value := by
  rw [writeResult, Globals.takeOut_set hvalue]

/-- A batch of calls of functions with known answers, submitted from a main context. -/
structure Batch where
  library : Library
  main : ContextId
  /-- The globals of the main context before the first call. -/
  start : Globals
  calls : List Call
  answer : String → List Value → List Value

namespace Batch

/-- The calls can be deferred: they are answered, and do not get in each other's way. -/
structure Sound (b : Batch) : Prop where
  plain : b.start.Plain
  answered : ∀ call ∈ b.calls, call.Answered b.library b.answer
  apart : b.calls.Pairwise Call.Apart

def results (b : Batch) (call : Call) : List Value :=
  b.answer call.function (call.argumentsIn b.start)

/-- The task is that of the call with its number, and brings along what the call reads. -/
structure Fits (b : Batch) (s : Submission) : Prop where
  call : b.calls[s.ticket]? = some s.task.call
  arguments : ∀ g, s.task.argumentValues (s.task.loadSnapshot g) = s.task.call.argumentsIn b.start

/-- The outcome is the one that the batch foresees for a task. -/
structure Foresees (b : Batch) (s : Submission) (outcome : Invocation) : Prop where
  healthy : outcome.isHealthy = true
  results : outcome.results = b.results s.task.call

/-- The worker of a task is on the way to what the batch foresees. -/
def OnTrack (b : Batch) (e : Engine) (context : ContextId) (s : Submission) : TaskPlace → Prop
  | .running activity =>
    activity.execution.context = context ∧
      match activity.asking? with
      | none => activity.execution.Leads b.library e (b.results s.task.call)
      | some asking => asking.isCalm = true ∧
        ∀ reply, (activity.execution.answer reply).Leads b.library e (b.results s.task.call)
  | .lockingMain outcome | .unlockingMain outcome | .counting outcome | .countingTotal outcome =>
    b.Foresees s outcome
  | .writing outcome names results =>
    b.Foresees s outcome ∧ names <:+ s.task.call.returns ∧ ∀ v ∈ results, v.Plain
  | .replacing => False
  | _ => True

/-- What a worker executes belongs to the batch and is on its way. -/
def Tracks (b : Batch) (e : Engine) (context : ContextId) : WorkerPlace → Prop
  | .executing _ s place => b.Fits s ∧ b.OnTrack e context s place
  | _ => True

/-- What was done belongs to the batch. -/
def Allows (b : Batch) : Deed → Prop
  | .pushed s | .claimed _ s | .started _ s => b.Fits s
  | .wrote s name _ => b.Fits s ∧ name ∈ s.task.call.returns
  | .finished _ s outcome => b.Fits s ∧ b.Foresees s outcome

/-- The state of a batch: what was written into the main context, what waits, and what the workers
do. -/
structure Engaged (b : Batch) (w : World) (deeds : List Deed) : Prop where
  main : w.main = b.main
  known : b.main < w.engine.contexts.length
  globals : ∀ name, (w.engine.globals b.main).get? name =
    (b.start.setAll (deeds.filterMap Deed.pair?)).get? name
  secluded : ∀ {i : Nat} {c : ContextId} {place : WorkerPlace}, w.stations[i]? = some (c, place) →
    c < w.engine.contexts.length ∧ c ≠ b.main
  distinct : ∀ {i j : Nat} {c : ContextId} {place place' : WorkerPlace},
    w.stations[i]? = some (c, place) → w.stations[j]? = some (c, place') → i = j
  queue : ∀ s ∈ w.queue, b.Fits s
  tracks : ∀ {i : Nat} {c : ContextId} {place : WorkerPlace}, w.stations[i]? = some (c, place) →
    b.Tracks w.engine c place
  allowed : ∀ d ∈ deeds, b.Allows d
  complete : ∀ ticket < w.tickets, ∃ s, .pushed s ∈ deeds ∧ s.ticket = ticket

variable {b : Batch} {w w' : World} {deeds deeds' : List Deed} {e e' : Engine} {context : ContextId}
  {s : Submission}

theorem OnTrack.congr {place : TaskPlace} (h : b.OnTrack e context s place)
    (hglobals : e'.globals context = e.globals context) : b.OnTrack e' context s place := by
  cases place with
  | running activity =>
      obtain ⟨execution, asking?⟩ := activity
      obtain ⟨rfl, h⟩ := h
      refine ⟨rfl, ?_⟩
      cases asking? with
      | none => exact Execution.Leads.congr h hglobals
      | some asking =>
          obtain ⟨hcalm, hleads⟩ := h
          refine ⟨hcalm, fun reply => Execution.Leads.congr (hleads reply) ?_⟩
          rw [Execution.answer_context]
          exact hglobals
  | publishing | unlockingQueue | preparing | lockingMain | writing | unlockingMain | counting
  | countingTotal | replacing | clearing | notifying => exact h

theorem Tracks.congr {place : WorkerPlace} (h : b.Tracks e context place)
    (hglobals : e'.globals context = e.globals context) : b.Tracks e' context place := by
  cases place with
  | executing once s place => exact ⟨h.1, h.2.congr hglobals⟩
  | beginning | receiving | measuring | comparing | checking | popping | resting | announcing
  | exiting | gone => trivial

theorem Engaged.still (h : b.Engaged w deeds) (hs : Still w w') : b.Engaged w' deeds := by
  have hglobals := Engine.globals_of_contexts hs.contexts
  constructor
  case main => exact hs.main.trans h.main
  case known => exact hs.contexts ▸ h.known
  case globals =>
    intro name
    rw [hglobals]
    exact h.globals name
  case secluded =>
    rw [hs.stations, hs.contexts]
    exact h.secluded
  case distinct =>
    rw [hs.stations]
    exact h.distinct
  case queue => exact hs.queue ▸ h.queue
  case tracks =>
    intro i c place hi
    rw [hs.stations] at hi
    exact (h.tracks hi).congr (hglobals c)
  case allowed => exact h.allowed
  case complete => exact hs.tickets ▸ h.complete

theorem Engaged.allows_snoc (h : b.Engaged w deeds) {d : Deed} (hallows : b.Allows d) :
    ∀ d' ∈ deeds ++ [d], b.Allows d' := by
  intro d' hd'
  rw [List.mem_append, List.mem_singleton] at hd'
  rcases hd' with hd' | rfl
  · exact h.allowed d' hd'
  · exact hallows

theorem Engaged.complete_snoc (h : b.Engaged w deeds) (d : Deed) :
    ∀ ticket < w.tickets, ∃ s, .pushed s ∈ deeds ++ [d] ∧ s.ticket = ticket := by
  intro ticket hticket
  obtain ⟨s, hs, hsame⟩ := h.complete ticket hticket
  exact ⟨s, List.mem_append_left _ hs, hsame⟩

theorem Engaged.record (h : b.Engaged w deeds) {d : Deed} (hallows : b.Allows d)
    (hpair : d.pair? = none) : b.Engaged w (deeds ++ [d]) := by
  refine { h with
    globals := fun name => ?_, allowed := h.allows_snoc hallows, complete := h.complete_snoc d }
  rw [List.filterMap_append, List.filterMap_cons_none hpair, List.filterMap_nil, List.append_nil]
  exact h.globals name

theorem Engaged.dequeue (h : b.Engaged w deeds) {rest : List Submission}
    (hrest : ∀ s ∈ rest, s ∈ w.queue) (holder? : Option ThreadId) :
    b.Engaged { w with queue := rest, queueHolder? := holder? } deeds :=
  { h with queue := fun s hs => h.queue s (hrest s hs) }

section Worker

variable {i : Nat} {c : ContextId} {place place' : WorkerPlace}

theorem Engaged.restation (h : b.Engaged w deeds) (hi : w.stations[i]? = some (c, place))
    (htracks : b.Tracks w.engine c place') {workers : List Worker}
    (hstations : workers.map Worker.station = w.stations.set i (c, place')) :
    b.Engaged { w with workers := workers } deeds := by
  have hback : ∀ {j : Nat} {c' : ContextId} {p : WorkerPlace},
      (workers.map Worker.station)[j]? = some (c', p) →
        (∃ p', w.stations[j]? = some (c', p')) ∧ b.Tracks w.engine c' p := by
    intro j c' p hj
    rw [hstations, List.getElem?_set] at hj
    split at hj
    · next heq =>
        subst heq
        split at hj
        · cases hj
          exact ⟨⟨place, hi⟩, htracks⟩
        · cases hj
    · exact ⟨⟨p, hj⟩, h.tracks hj⟩
  refine { h with
    secluded := fun hj => ?_, distinct := fun hj hk => ?_, tracks := fun hj => (hback hj).2 }
  · obtain ⟨⟨p', hj'⟩, -⟩ := hback hj
    exact h.secluded hj'
  · obtain ⟨⟨q, hj'⟩, -⟩ := hback hj
    obtain ⟨⟨q', hk'⟩, -⟩ := hback hk
    exact h.distinct hj' hk'

theorem Engaged.move (h : b.Engaged w deeds) (hi : w.stations[i]? = some (c, place))
    (htracks : b.Tracks w.engine c place') : b.Engaged (w.placeWorker i place') deeds :=
  h.restation hi htracks (World.stations_placeWorker hi)

theorem Engaged.setPrivate (h : b.Engaged w deeds) (hi : w.stations[i]? = some (c, place))
    (g : Globals) (htracks : b.Tracks (w.engine.setGlobals c g) c place) :
    b.Engaged { w with engine := w.engine.setGlobals c g } deeds := by
  have hlength : (w.engine.setGlobals c g).contexts.length = w.engine.contexts.length := by
    simp [Engine.setGlobals]
  have hmain := (h.secluded hi).2
  refine { h with known := hlength ▸ h.known, globals := ?_, secluded := ?_, tracks := ?_ }
  · intro name
    show ((w.engine.setGlobals c g).globals b.main).get? name = _
    rw [Engine.globals_setGlobals_of_ne _ _ (Ne.symm hmain)]
    exact h.globals name
  · intro j c' p hj
    show c' < (w.engine.setGlobals c g).contexts.length ∧ c' ≠ b.main
    rw [hlength]
    exact h.secluded hj
  · intro j c' p hj
    by_cases hc : c' = c
    · subst hc
      have hij := h.distinct hi hj
      subst hij
      have hj : w.stations[i]? = some (c', p) := hj
      rw [hi] at hj
      cases hj
      exact htracks
    · exact (h.tracks hj).congr (Engine.globals_setGlobals_of_ne _ _ hc)

theorem Engaged.setMain (h : b.Engaged w deeds) (hfits : b.Fits s) {name : String} {value : Value}
    (hname : name ∈ s.task.call.returns) :
    b.Engaged { w with engine := w.engine.set w.main name value }
      (deeds ++ [.wrote s name value]) := by
  have hlength : (w.engine.set w.main name value).contexts.length = w.engine.contexts.length := by
    simp [Engine.set, Engine.setGlobals]
  have hset : (w.engine.set w.main name value).globals b.main =
      (w.engine.globals b.main).set name value := by
    rw [h.main]
    exact Engine.globals_setGlobals_self _ _ h.known
  refine { h with
    known := hlength ▸ h.known, globals := ?_, secluded := ?_, tracks := ?_
    allowed := h.allows_snoc ⟨hfits, hname⟩, complete := h.complete_snoc _ }
  · intro other
    show ((w.engine.set w.main name value).globals b.main).get? other = _
    rw [hset, List.filterMap_append, Globals.setAll_append]
    exact Globals.get?_set_congr (h.globals other) name value
  · intro j c' p hj
    show c' < (w.engine.set w.main name value).contexts.length ∧ c' ≠ b.main
    rw [hlength]
    exact h.secluded hj
  · intro j c' p hj
    have hc : c' ≠ w.main := by
      rw [h.main]
      exact (h.secluded hj).2
    exact (h.tracks hj).congr (Engine.globals_setGlobals_of_ne _ _ hc)

end Worker

/-- Besides the state of the batch, the step of a worker may only announce progress. -/
structure Spares (w w' : World) : Prop where
  pool : w'.pool = w.pool
  shutDown : w'.shutDown = w.shutDown
  tickets : w'.tickets = w.tickets
  hosts : w'.hosts = w.hosts

theorem Fits.answered (hfits : b.Fits s) (hsound : b.Sound) :
    s.task.call.Answered b.library b.answer :=
  hsound.answered _ (List.mem_of_getElem? hfits.call)

theorem Fits.results_plain (hfits : b.Fits s) (hsound : b.Sound) :
    ∀ v ∈ b.results s.task.call, v.Plain := by
  have hcall := hfits.answered hsound
  obtain ⟨f, -, hanswer⟩ := hcall.answers
  exact (hanswer _ (Call.argumentsIn_plain hsound.plain hcall.plain)).2

theorem Fits.leads (hfits : b.Fits s) (hsound : b.Sound) (g : Globals) :
    (Execution.invoke b.library context s.task.function
      (s.task.argumentValues (s.task.loadSnapshot g))).Leads b.library e
        (b.results s.task.call) := by
  have hcall := hfits.answered hsound
  obtain ⟨f, hf, hanswer⟩ := hcall.answers
  have htame := (hanswer _ (Call.argumentsIn_plain hsound.plain hcall.plain)).1 (e.globals context)
  have hcode : Execution.codeOf b.library s.task.function
      (s.task.argumentValues (s.task.loadSnapshot g)) =
        f s.task.call.function (s.task.call.argumentsIn b.start) := by
    rw [hfits.arguments g]
    unfold Execution.codeOf Task.function
    rw [hf]
  rw [Execution.Leads, Execution.invoke, hcode]
  exact .last htame

section Steps

variable {pick i : Nat} {worker : Worker} {once : Bool} {v : World}

/-- What the step of a worker in a task has to keep. -/
structure Advances (b : Batch) (w v : World) (context : ContextId) (s : Submission)
    (stage : Stage TaskPlace Unit) (deeds : List Deed) : Prop where
  engaged : b.Engaged v deeds
  stations : v.stations = w.stations
  spares : Spares w v
  onTrack : ∀ place, stage = .going place → b.OnTrack v.engine context s place

theorem Engaged.goesOn {place : TaskPlace} (h : b.Engaged w deeds) (hs : Still w v)
    (hspares : Spares w v) (htrack : b.OnTrack v.engine context s place) :
    b.Advances w v context s (.going place) (deeds ++ []) := by
  rw [List.append_nil]
  refine ⟨h.still hs, hs.stations, hspares, ?_⟩
  rintro _ ⟨⟩
  exact htrack

theorem Engaged.codeStep {activity : Activity} {stage : Stage Activity Ending}
    (hi : w.stations[i]? = some (context, .executing once s (.running activity)))
    (h : b.Engaged w deeds) (hmember : i ∈ w.pool)
    (hs : activityStep b.library pick (.worker i) w activity = some (v, stage)) :
    Still w v ∧ Spares w v ∧
      match stage with
      | .going activity' => b.OnTrack v.engine context s (.running activity')
      | .over ending => b.Foresees s (ending.guarded s.task.function) := by
  obtain ⟨-, htrack⟩ := h.tracks hi
  have hme : w.isPoolThread (.worker i) = true := decide_eq_true hmember
  cases activityStep_goes hs with
  | asks hasking =>
      obtain ⟨rfl, hcalm, hleads⟩ := htrack
      obtain ⟨hv, hgoing⟩ := askingStep_calm hme hcalm hasking
      exact ⟨hv.toStill, ⟨hv.pool, hv.shutDown, hv.tickets, (askingStep_crew hasking).hosts_eq⟩, rfl,
        hgoing, fun reply => (hleads reply).congr (Engine.globals_of_contexts hv.contexts _)⟩
  | replied hasking =>
      obtain ⟨rfl, hcalm, hleads⟩ := htrack
      obtain ⟨hv, -⟩ := askingStep_calm hme hcalm hasking
      exact ⟨hv.toStill, ⟨hv.pool, hv.shutDown, hv.tickets, (askingStep_crew hasking).hosts_eq⟩,
        Execution.answer_context _ _,
        (hleads _).congr (Engine.globals_of_contexts hv.contexts _)⟩
  | went hgoes =>
      obtain ⟨rfl, hleads⟩ := htrack
      have hstep := Execution.Leads.step hleads
      rw [hgoes] at hstep
      cases hstep with
      | goesOn hx hsame hcontexts =>
          exact ⟨⟨hcontexts, rfl, rfl, rfl, rfl⟩, ⟨rfl, rfl, rfl, rfl⟩, hsame,
            hx.congr (Engine.globals_of_contexts hcontexts _)⟩
  | asked hasks =>
      obtain ⟨rfl, hleads⟩ := htrack
      have hstep := Execution.Leads.step hleads
      rw [hasks] at hstep
      cases hstep with
      | asks hr hreply =>
          exact ⟨.refl w, ⟨rfl, rfl, rfl, rfl⟩, rfl, Request.begin_isCalm hr _, hreply⟩
  | ended hends =>
      obtain ⟨rfl, hleads⟩ := htrack
      have hstep := Execution.Leads.step hleads
      rw [hends] at hstep
      cases hstep with
      | ends hhealthy hresults => exact ⟨.refl w, ⟨rfl, rfl, rfl, rfl⟩, hhealthy, hresults⟩

theorem Engaged.taskStep {place place' : TaskPlace} (hsound : b.Sound) (h : b.Engaged w deeds)
    (hmember : i ∈ w.pool)
    (hi : w.stations[i]? = some (worker.context, .executing once s place))
    (hs : place.Goes b.library pick i worker s.task w v place') :
    b.Advances w v worker.context s (.going place')
      (deeds ++ ((WorkerPlace.executing once s place).deed? w.queue i).toList) := by
  obtain ⟨hfits, htrack⟩ := h.tracks hi
  cases hs with
  | published | cleared =>
      refine h.goesOn (World.modifyWorker_calm ?_ w i).toStill ⟨rfl, rfl, rfl, rfl⟩ trivial
      intro worker
      rfl
  | unlockedQueue => exact h.goesOn ⟨rfl, rfl, rfl, rfl, rfl⟩ ⟨rfl, rfl, rfl, rfl⟩ trivial
  | prepared =>
      have hprivate := (h.still (w.report_still (.taskSpan s.task.function))).setPrivate hi
        (s.task.loadSnapshot (w.engine.globals worker.context)) ⟨hfits, trivial⟩
      refine ⟨?_, rfl, ⟨rfl, rfl, rfl, rfl⟩, ?_⟩
      · exact (hprivate.still (World.report_still _ _)).record (d := .started i s) hfits rfl
      · rintro _ ⟨⟩
        exact ⟨rfl, hfits.leads hsound _⟩
  | ran hcode =>
      obtain ⟨hstill, hspares, hstage⟩ := h.codeStep hi hmember hcode
      exact h.goesOn hstill hspares hstage
  | ended _ hcode =>
      obtain ⟨hstill, hspares, hstage⟩ := h.codeStep hi hmember hcode
      exact h.goesOn hstill hspares hstage
  | locked =>
      refine h.goesOn ⟨rfl, rfl, rfl, rfl, rfl⟩ ⟨rfl, rfl, rfl, rfl⟩
        ⟨htrack, List.suffix_refl _, ?_⟩
      rw [htrack.results]
      exact hfits.results_plain hsound
  | lockedErrored _ herrored =>
      rw [htrack.healthy] at herrored
      cases herrored
  | written => exact h.goesOn (.refl w) ⟨rfl, rfl, rfl, rfl⟩ htrack.1
  | wrote outcome name names results =>
      obtain ⟨hforesees, hnames, hplain⟩ := htrack
      have hprivate := h.setPrivate hi
        ((w.engine.globals worker.context).set name (firstResult results))
        ⟨hfits, hforesees, hnames, hplain⟩
      refine ⟨?_, rfl, ⟨rfl, rfl, rfl, rfl⟩, ?_⟩
      · rw [writeResult_of_plain (firstResult_plain hplain)]
        exact hprivate.setMain hfits (hnames.subset List.mem_cons_self)
      · rintro _ ⟨⟩
        exact ⟨hforesees, (List.suffix_cons _ _).trans hnames,
          fun v hv => hplain v (List.mem_of_mem_tail hv)⟩
  | unlocked => exact h.goesOn ⟨rfl, rfl, rfl, rfl, rfl⟩ ⟨rfl, rfl, rfl, rfl⟩ htrack
  | counted outcome =>
      refine h.goesOn (World.modifyWorker_calm ?_ w i).toStill ⟨rfl, rfl, rfl, rfl⟩ htrack
      intro worker
      split
      · rfl
      · rfl
  | failed e =>
      have herrored := htrack.healthy
      cases herrored
  | @completed outcome =>
      have hrecord := h.record (d := .finished i s outcome) ⟨hfits, htrack⟩ rfl
      refine ⟨hrecord.still ⟨rfl, rfl, rfl, rfl, rfl⟩, rfl, ⟨rfl, rfl, rfl, rfl⟩, ?_⟩
      rintro _ ⟨⟩
      trivial
  | replaced | notReplaced => cases htrack

theorem Engaged.workerStep (hsound : b.Sound) (h : b.Engaged w deeds)
    (hworker : w.workers[i]? = some worker)
    (hmember : ∀ once s place, worker.place = .executing once s place → i ∈ w.pool)
    (hs : workerStep b.library pick i worker w = some w') :
    b.Engaged w' (deeds ++ (worker.place.deed? w.queue i).toList) ∧ Spares w w' := by
  have hi := World.stations_getElem? hworker
  have hquiet {u : World} {place : WorkerPlace} (hu : Still w u) (hspares : Spares w u)
      (hplace : b.Tracks u.engine worker.context place) :
      b.Engaged (u.placeWorker i place) (deeds ++ []) ∧ Spares w (u.placeWorker i place) := by
    rw [List.append_nil]
    have hi' : u.stations[i]? = some (worker.context, worker.place) := by rw [hu.stations, hi]
    exact ⟨(h.still hu).move hi' hplace, hspares.pool, hspares.shutDown, hspares.tickets,
      hspares.hosts⟩
  have hbusy (f : Worker → Worker) (hcontext : (f worker).context = worker.context)
      (hplace : b.Tracks w.engine worker.context (f worker).place) :
      b.Engaged (w.modifyWorker i f) (deeds ++ []) ∧ Spares w (w.modifyWorker i f) := by
    have hstation : (f worker).station = (worker.context, (f worker).place) := by
      rw [Worker.station, hcontext]
    rw [List.append_nil]
    exact ⟨h.restation hi hplace (hstation ▸ World.stations_modify hworker f), rfl, rfl, rfl, rfl⟩
  obtain ⟨place, hp, hgoes⟩ := workerStep_goes hs
  rw [hp] at hi ⊢
  cases hgoes with
  | began => exact hquiet (w.report_still _) ⟨rfl, rfl, rfl, rfl⟩ trivial
  | received =>
      apply hbusy _ worker.receive_context
      rcases Worker.receive_place hp with h | h | h
      · rw [h]
        trivial
      · rw [h]
        trivial
      · rw [h]
        trivial
  | measured | compared | checkedEmpty | checked =>
      exact hquiet (.refl w) ⟨rfl, rfl, rfl, rfl⟩ trivial
  | missed once _ hqueue =>
      rw [WorkerPlace.deed?, hqueue]
      exact hquiet (.refl w) ⟨rfl, rfl, rfl, rfl⟩ trivial
  | @popped once submission rest _ hqueue =>
      have hrest : ∀ s ∈ rest, s ∈ w.queue := by
        intro s hs
        rw [hqueue]
        exact List.mem_cons_of_mem _ hs
      have hfits : b.Fits submission := h.queue submission (by simp [hqueue])
      have hrecord := h.record (d := .claimed i submission) hfits rfl
      have hpopped := hrecord.dequeue hrest (some (.worker i))
      rw [WorkerPlace.deed?, hqueue]
      exact ⟨hpopped.move hi ⟨hfits, trivial⟩, rfl, rfl, rfl, rfl⟩
  | @went once s place place' u htask =>
      obtain ⟨hengaged, hstations, hspares, htrack⟩ :=
        h.taskStep hsound (hmember once s place hp) hi htask
      have hi' : u.stations[i]? = some (worker.context, .executing once s place) := by
        rw [hstations, hi]
      exact ⟨hengaged.move hi' ⟨(h.tracks hi).1, htrack place' rfl⟩, hspares.pool,
        hspares.shutDown, hspares.tickets, hspares.hosts⟩
  | finished once s =>
      cases once with
      | false | true => exact hquiet ⟨rfl, rfl, rfl, rfl, rfl⟩ ⟨rfl, rfl, rfl, rfl⟩ trivial
  | rested => exact hbusy _ rfl trivial
  | announced | exited => exact hquiet ⟨rfl, rfl, rfl, rfl, rfl⟩ ⟨rfl, rfl, rfl, rfl⟩ trivial

end Steps

end Batch

end ScriptPool

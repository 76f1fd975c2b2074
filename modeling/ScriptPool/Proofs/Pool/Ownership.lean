import ScriptPool.Proofs.Pool.Stock

namespace ScriptPool

section Hosts

variable {library : Library} {i : Identity} {pick host : Nat} {w v w' : World}
  {hostPlace hostPlace' : HostPlace}

theorem World.hosts_placeHost (hhost : w.hosts[host]? = some hostPlace) (place : HostPlace) :
    (w.placeHost host place).hosts[host]? = some place := by
  rw [World.placeHost, List.getElem?_set_self (List.getElem?_eq_some_iff.mp hhost).1]

theorem MainLocked.unwritten_host (hm : MainLocked w) (hhost : w.hosts[host]? = some hostPlace)
    (hin : hostPlace.inMain w.main = true) : w.unwritten = hostPlace.unwritten :=
  (hm.unwritten_of_inMain ((World.view_host hhost).trans hin)).trans (World.view_host hhost)

theorem OwnedOnce.quietHost (h : OwnedOnce i w)
    (hadv : w.advance library pick (.host host) = some w')
    (hhost : w.hosts[host]? = some hostPlace) (hw' : w' = v.placeHost host hostPlace')
    (hhosts : v.hosts = w.hosts) (hmain : v.main = w.main) (hstations : v.stations = w.stations)
    (hcontexts : v.engine.contexts = w.engine.contexts)
    (hqueue : ∀ s ∈ v.queue, s.task.call.Plain)
    (hunwritten : hostPlace.unwritten = []) (hunwritten' : hostPlace'.unwritten = [])
    (hasks : hostPlace'.Asks i w.main)
    (hbalance : v.pendingOwns i + hostPlace'.owns i ≤ w.pendingOwns i + hostPlace.owns i) :
    OwnedOnce i w' := by
  have hlt := (List.getElem?_eq_some_iff.mp hhost).1
  have hopen : w'.unwritten = w.unwritten := by
    apply World.unwritten_advance h.locked hadv
    · exact (World.view_host hhost).trans hunwritten
    · rw [hw']
      exact (World.view_placeHost (hhosts ▸ hlt) _).trans hunwritten'
  have hglobals := Engine.globals_of_contexts hcontexts
  subst hw'
  refine h.moveHost (h.secluded.rehomes (World.advance_rehomes hadv)) (h.locked.advance hadv) hhost
    hmain (congrArg (List.set · host hostPlace') hhosts) hstations (fun d _ => hglobals d) hqueue
    hasks ?_
  have hpart : (v.placeHost host hostPlace').mainOwns i = w.mainOwns i := by
    rw [World.mainOwns, hopen]
    show ((v.engine.globals v.main).without _).owns i = _
    rw [hglobals, hmain, World.mainOwns]
  rw [hpart, Nat.add_assoc, Nat.add_assoc]
  exact Nat.add_le_add_left hbalance _

theorem OwnedOnce.stillHost (h : OwnedOnce i w)
    (hadv : w.advance library pick (.host host) = some (v.placeHost host hostPlace'))
    (hhost : w.hosts[host]? = some hostPlace) (hhosts : v.hosts = w.hosts) (hstill : Still w v)
    (hunwritten : hostPlace.unwritten = []) (hunwritten' : hostPlace'.unwritten = [])
    (hasks : hostPlace'.Asks i w.main) (hbalance : hostPlace'.owns i ≤ hostPlace.owns i) :
    OwnedOnce i (v.placeHost host hostPlace') := by
  refine h.quietHost hadv hhost rfl hhosts hstill.main hstill.stations hstill.contexts ?_
    hunwritten hunwritten' hasks ?_
  · rw [hstill.queue]
    exact h.queue
  · rw [World.pendingOwns, hstill.queue]
    exact Nat.add_le_add_left hbalance _

theorem OwnedOnce.captureMain (h : OwnedOnce i w) {call : Call} {name : String}
    {names : List String} {captured captured' : Snapshot} {left : Value}
    (hadv : w.advance library pick (.host host) = some w')
    (hhost : w.hosts[host]? = some
      (.asking (.submit w.main (.reading call (name :: names) captured))))
    (hplain : call.Plain) (hleft : (captureGlobal (w.engine.get? w.main name)).2 = some left)
    (hcaptured : captured' = captured ++ [(name, (captureGlobal (w.engine.get? w.main name)).1)])
    (hw' : w' = w.placeHost host
      (.asking (.submit w.main (.tagging call name left names captured')))) :
    OwnedOnce i w' := by
  have hlocked := h.locked.advance hadv
  have hhost' : w'.hosts[host]? = some
      (.asking (.submit w.main (.tagging call name left names captured'))) :=
    hw' ▸ World.hosts_placeHost hhost _
  have hmain : w'.main = w.main := by rw [hw']; rfl
  have hunwritten : w.unwritten = [] := h.locked.unwritten_host hhost (decide_eq_true rfl)
  have hunwritten' : w'.unwritten = [name] :=
    hlocked.unwritten_host hhost' (decide_eq_true hmain.symm)
  have hmainOwns : w.mainOwns i = (w.engine.globals w.main).owns i := by
    rw [World.mainOwns, hunwritten, Globals.without_nil]
  have hmainOwns' : w'.mainOwns i = ((w.engine.globals w.main).without [name]).owns i := by
    rw [World.mainOwns, hunwritten', hw']
    rfl
  have hcopy : (captureGlobal (w.engine.get? w.main name)).1.owns i =
      ((w.engine.globals w.main).get name).owns i := owns_captureGlobal _ i
  have htaken := (w.engine.globals w.main).owns_without_add_get name i
  have hsnapshot : Snapshot.owns captured' i =
      captured.owns i + (captureGlobal (w.engine.get? w.main name)).1.owns i := by
    rw [hcaptured, Snapshot.owns_append_singleton]
  subst hw'
  refine h.moveHost (h.secluded.rehomes (World.advance_rehomes hadv)) hlocked hhost rfl rfl rfl
    (fun _ _ => rfl) h.queue ⟨rfl, hplain, owns_left hleft i⟩ ?_
  rw [hmainOwns, hmainOwns']
  show _ + w.pendingOwns i + Snapshot.owns captured' i ≤ _ + w.pendingOwns i + captured.owns i
  omega

theorem OwnedOnce.tagMain (h : OwnedOnce i w) {call : Call} {name : String} {names : List String}
    {captured : Snapshot} {left : Value}
    (hadv : w.advance library pick (.host host) = some w')
    (hhost : w.hosts[host]? = some
      (.asking (.submit w.main (.tagging call name left names captured))))
    (hplain : call.Plain) (hleft : left.owns i = 0)
    (hw' : w' = { w with engine := w.engine.set w.main name left }.placeHost host
      (.asking (.submit w.main (.reading call names captured)))) :
    OwnedOnce i w' := by
  have hlocked := h.locked.advance hadv
  have hhost' : w'.hosts[host]? = some (.asking (.submit w.main (.reading call names captured))) :=
    hw' ▸ World.hosts_placeHost hhost _
  have hmain : w'.main = w.main := by rw [hw']; rfl
  have hunwritten : w.unwritten = [name] := h.locked.unwritten_host hhost (decide_eq_true rfl)
  have hunwritten' : w'.unwritten = [] := hlocked.unwritten_host hhost' (decide_eq_true hmain.symm)
  have hknown : w.main < w.engine.contexts.length := h.secluded.known _ List.mem_cons_self
  have hset : (w.engine.set w.main name left).globals w.main =
      (w.engine.globals w.main).set name left := Engine.globals_setGlobals_self _ _ hknown
  have hsame : w'.mainOwns i = w.mainOwns i := by
    rw [World.mainOwns, World.mainOwns, hunwritten, hunwritten', hw', Globals.without_nil]
    show ((w.engine.set w.main name left).globals w.main).owns i = _
    rw [hset, Globals.owns_set, hleft, Nat.add_zero]
  subst hw'
  refine h.moveHost (h.secluded.rehomes (World.advance_rehomes hadv)) hlocked hhost rfl rfl rfl
    (fun d hd => Engine.globals_setGlobals_of_ne _ _ hd) h.queue ⟨rfl, hplain⟩ ?_
  rw [hsame]
  exact Nat.le_refl _

theorem OwnedOnce.submitStep (h : OwnedOnce i w) {place : SubmitPlace}
    {stage : Stage SubmitPlace Reply}
    (hs : ScriptPool.submitStep w.main (.host host) w place = some (v, stage))
    (hadv : w.advance library pick (.host host) = some w')
    (hhost : w.hosts[host]? = some (.asking (.submit w.main place)))
    (hw' : w' = v.placeHost host (match stage with
      | .going place' => .asking (.submit w.main place')
      | .over reply => .free (some (.replied reply)))) :
    OwnedOnce i w' := by
  have hplain : place.Plain i := (h.hosts _ (List.mem_of_getElem? hhost)).2
  have hhosts := (submitStep_crew hs).hosts_eq
  cases stage with
  | going place' =>
      cases submitStep_goes hs with
      | checked _ hparse =>
          subst hw'
          exact h.stillHost hadv hhost rfl (.refl w) rfl rfl ⟨rfl, Call.plain_of_parse hparse⟩
            (Nat.le_refl _)
      | checkedApart _ _ hapart | readApart _ _ hapart => exact absurd rfl hapart
      | locked | unlocked =>
          subst hw'
          exact h.stillHost hadv hhost rfl ⟨rfl, rfl, rfl, rfl, rfl⟩ rfl rfl ⟨rfl, hplain⟩
            (Nat.le_refl _)
      | found =>
          subst hw'
          exact h.stillHost hadv hhost rfl (.refl w) rfl rfl ⟨rfl, hplain⟩ (Nat.le_refl _)
      | moved call hnew hleft => exact h.captureMain hadv hhost hplain hleft rfl hw'
      | @copied call name names captured hnew hwhole =>
          subst hw'
          refine h.stillHost hadv hhost rfl (.refl w) rfl rfl ⟨rfl, hplain⟩ ?_
          have hcopy := owns_captureGlobal (w.engine.get? w.main name) i
          rw [owns_of_not_left hwhole] at hcopy
          have hsame := Snapshot.owns_append_singleton captured name
            (captureGlobal (w.engine.get? w.main name)).1 i
          rw [hcopy] at hsame
          exact hsame.le
      | tagged => exact h.tagMain hadv hhost hplain.1 hplain.2 hw'
      | read call captured =>
          subst hw'
          exact h.stillHost hadv hhost rfl (.refl w) rfl rfl ⟨rfl, hplain⟩
            (Task.owns_ofCaptured_le call captured i)
      | pushed task =>
          refine h.quietHost hadv hhost hw' rfl rfl rfl rfl ?_ rfl rfl ⟨rfl, trivial⟩ ?_
          · intro s hs
            rcases List.mem_append.mp hs with hs | hs
            · exact h.queue s hs
            · rw [List.mem_singleton] at hs
              exact hs ▸ hplain
          · have hpushed : (w.push task).queue = w.queue ++ [⟨w.tickets, task⟩] := rfl
            simp [World.pendingOwns, World.report, hpushed, HostPlace.owns, SubmitPlace.owns]
      | counted | notified =>
          subst hw'
          exact h.stillHost hadv hhost rfl ⟨rfl, rfl, rfl, rfl, rfl⟩ rfl rfl ⟨rfl, trivial⟩
            (Nat.le_refl _)
      | start hstart =>
          subst hw'
          exact h.stillHost hadv hhost hhosts (startStep_oversees hstart).calm.toStill rfl rfl
            ⟨rfl, trivial⟩ (Nat.le_refl _)
  | «over» reply =>
      subst hw'
      cases submitStep_replies hs with
      | refused | misread =>
          exact h.stillHost hadv hhost rfl (.refl w) rfl rfl trivial (Nat.le_refl _)
      | idle hstart =>
          have hcalm := ((startStep_oversees hstart).report .noIdleWorker).calm
          exact h.stillHost hadv hhost hhosts hcalm.toStill rfl rfl trivial (Nat.le_refl _)
      | started _ hstart =>
          have hcalm := (startStep_oversees hstart).calm
          exact h.stillHost hadv hhost hhosts hcalm.toStill rfl rfl trivial (Nat.le_refl _)

theorem OwnedOnce.hostStep (h : OwnedOnce i w)
    (hadv : w.advance library pick (.host host) = some w') : OwnedOnce i w' := by
  obtain ⟨place, hhost, hs⟩ := World.advance_host_iff.mp hadv
  obtain ⟨v, place', rfl, hgoes⟩ := hostStep_goes hs
  have hasks := h.hosts _ (List.mem_of_getElem? hhost)
  have hhosts : v.hosts = w.hosts := hgoes.crew.hosts_eq
  cases hgoes with
  | opens | opened | closes | closed | measures | measured | runs | ended => cases hasks
  | asks hask =>
      cases askingStep_goes hask with
      | submits hsubmit =>
          obtain ⟨rfl, -⟩ := hasks
          exact h.submitStep hsubmit hadv hhost rfl
      | joins hjoin =>
          have hstill := (joinStep_oversees hjoin).calm.toStill
          exact h.stillHost hadv hhost hhosts hstill rfl rfl trivial (Nat.le_refl _)
      | joinsAll hjoin =>
          have hstill := (joinAllStep_oversees hjoin).calm.toStill
          exact h.stillHost hadv hhost hhosts hstill rfl rfl trivial (Nat.le_refl _)
      | acquires | releases =>
          exact h.stillHost hadv hhost hhosts (World.withSections_calm w _ _).toStill rfl rfl
            trivial (Nat.le_refl _)
      | resizes => cases hasks
  | replied hask =>
      cases askingStep_goes hask with
      | submitted hsubmit =>
          obtain ⟨rfl, -⟩ := hasks
          exact h.submitStep hsubmit hadv hhost rfl
      | joined hjoin =>
          have hstill := (joinStep_oversees hjoin).calm.toStill
          exact h.stillHost hadv hhost hhosts hstill rfl rfl trivial (Nat.le_refl _)
      | joinedAll hjoin =>
          have hstill := (joinAllStep_oversees hjoin).calm.toStill
          exact h.stillHost hadv hhost hhosts hstill rfl rfl trivial (Nat.le_refl _)
      | acquired | released =>
          exact h.stillHost hadv hhost hhosts (World.withSections_calm w _ _).toStill rfl rfl
            trivial (Nat.le_refl _)
      | refused => exact h.stillHost hadv hhost hhosts (.refl w) rfl rfl trivial (Nat.le_refl _)
      | resized => cases hasks

end Hosts

/-- The code only returns values, and these own nothing that no argument owns. -/
def Program.BuiltFrom (arguments : List Value) : Program (List Value) → Prop
  | .done results => ∀ i, (∀ v ∈ arguments, v.owns i = 0) → ∀ v ∈ results, v.owns i = 0
  | .fail _ => True
  | .perform _ _ => False

/-- All functions only return values built from their arguments. -/
def Library.OnlyReturns (library : Library) : Prop :=
  ∀ name f, library.find? name = some f → ∀ arguments,
    (f name arguments).BuiltFrom arguments

/-- A worker is about to hand back a handle that its context goes on owning under a name that is not
written, or that is handed back under several names. -/
def WorkerPlace.keepsBack (g : Globals) (i : Identity) : WorkerPlace → Bool
  | .executing _ s (.lockingMain outcome) =>
    0 < delivered i s.task.call.returns outcome.results &&
      1 < (g.without s.task.call.returns).owns i +
        delivered i s.task.call.returns outcome.results
  | _ => false

/-- No worker is about to hand back a handle that it keeps back. -/
def World.handsOver (i : Identity) (w : World) : Bool :=
  w.workers.all fun worker => !worker.place.keepsBack (w.engine.globals worker.context) i

section Workers

variable {library : Library} {i : Identity} {pick j : Nat} {w v w' : World} {c : ContextId}
  {place place' : WorkerPlace} {worker : Worker} {once : Bool} {s : Submission}

theorem Library.OnlyReturns.codeOf (h : library.OnlyReturns) (function : String)
    (arguments : List Value) :
    (Execution.codeOf library function arguments).BuiltFrom arguments := by
  unfold Execution.codeOf
  split
  · next f hf => exact h function f hf arguments
  · trivial

theorem World.privateContext_empty (h : w.privateContext = (.ok c, v)) :
    v.engine.globals c = .empty := by
  unfold World.privateContext Engine.spawnContext at h
  split at h
  · next c' e heq =>
      cases h
      split at heq
      · cases heq
      · cases heq
        refine (Engine.globals_bind _ _ _ _).trans ?_
        simp [Engine.globals, Engine.report]
  · cases h

theorem MainLocked.unwritten_worker (hm : MainLocked w) (hj : w.stations[j]? = some (c, place))
    (hin : place.inMain w.main = true) : w.unwritten = place.unwritten :=
  (hm.unwritten_of_inMain ((World.view_station hj).trans hin)).trans (World.view_station hj)

theorem World.station_of_set {c' : ContextId} (hj : w.stations[j]? = some (c, place))
    (hstations : w'.stations = w.stations.set j (c', place')) :
    w'.stations[j]? = some (c', place') := by
  rw [hstations, List.getElem?_set_self (List.getElem?_eq_some_iff.mp hj).1]

theorem OwnedOnce.quietWorker (h : OwnedOnce i w)
    (hadv : w.advance library pick (.worker j) = some w')
    (hj : w.stations[j]? = some (c, place)) (hhosts : w'.hosts = w.hosts) (hmain : w'.main = w.main)
    (hstations : w'.stations = w.stations.set j (c, place'))
    (hcontexts : w'.engine.contexts = w.engine.contexts)
    (hqueue : ∀ s ∈ w'.queue, s.task.call.Plain)
    (hunwritten : place.unwritten = []) (hunwritten' : place'.unwritten = [])
    (hbacked : place'.Backed (w.engine.globals c) i)
    (hbalance : w'.pendingOwns i + place'.owns i ≤ w.pendingOwns i + place.owns i)
    (hgone : place ≠ .gone) : OwnedOnce i w' := by
  have hj' : w'.stations[j]? = some (c, place') :=
    World.station_of_set hj hstations
  have hglobals := Engine.globals_of_contexts hcontexts
  have hopen : w'.unwritten = w.unwritten := World.unwritten_advance h.locked hadv
    ((World.view_station hj).trans hunwritten) ((World.view_station hj').trans hunwritten')
  refine h.moveWorker (h.secluded.rehomes (World.advance_rehomes hadv)) (h.locked.advance hadv) hj
    hmain hhosts hstations (fun d _ _ _ => hglobals d) hqueue (by rwa [hglobals]) ?_
  have hbefore := Engine.stationOwns_eq hgone w.engine i c
  rw [hunwritten, Globals.without_nil] at hbefore
  have hafter := w'.engine.stationOwns_le i c place'
  rw [hunwritten', Globals.without_nil, hglobals] at hafter
  have hpart : w'.mainOwns i = w.mainOwns i := by
    rw [World.mainOwns, hopen, hglobals, hmain, World.mainOwns]
  rw [hpart, hbefore]
  omega

theorem OwnedOnce.stillWorker (h : OwnedOnce i w)
    (hadv : w.advance library pick (.worker j) = some w')
    (hj : w.stations[j]? = some (c, place)) (hw' : w' = v.placeWorker j place')
    (hhosts : v.hosts = w.hosts) (hstill : Still w v) (hunwritten : place.unwritten = [])
    (hunwritten' : place'.unwritten = []) (hbacked : place'.Backed (w.engine.globals c) i)
    (hbalance : place'.owns i ≤ place.owns i) (hgone : place ≠ .gone) : OwnedOnce i w' := by
  have hj' : v.stations[j]? = some (c, place) := by rw [hstill.stations, hj]
  have hstations : w'.stations = w.stations.set j (c, place') := by
    rw [hw', World.stations_placeWorker hj', hstill.stations]
  subst hw'
  refine h.quietWorker hadv hj hhosts hstill.main hstations hstill.contexts ?_ hunwritten
    hunwritten' hbacked ?_ hgone
  · show ∀ s ∈ v.queue, s.task.call.Plain
    rw [hstill.queue]
    exact h.queue
  · have hpending : v.pendingOwns i = w.pendingOwns i := by
      rw [World.pendingOwns, hstill.queue, World.pendingOwns]
    exact hpending ▸ Nat.add_le_add_left hbalance _

theorem OwnedOnce.stationOwns_add_main_le (h : OwnedOnce i w)
    (hj : w.stations[j]? = some (c, place)) :
    w.engine.stationOwns i (c, place) + w.mainOwns i ≤ 1 := by
  have hmem : w.engine.stationOwns i (c, place) ≤ (w.stations.map (w.engine.stationOwns i)).sum :=
    (Nat.le_add_left _ _).trans_eq (sum_set_add (by rw [List.getElem?_map, hj]; rfl) 0)
  have hstock := h.stock
  unfold World.stock at hstock
  omega

theorem OwnedOnce.prepare (h : OwnedOnce i w) (hlibrary : library.OnlyReturns)
    (hadv : w.advance library pick (.worker j) = some w')
    (hj : w.stations[j]? = some (c, .executing once s .preparing))
    (hw' : w' = (startTask library c s.task (w.report (.taskSpan s.task.function))).1.placeWorker j
      (.executing once s (.running
        (startTask library c s.task (w.report (.taskSpan s.task.function))).2))) :
    OwnedOnce i w' := by
  have hplain : s.task.call.Plain := h.stations _ (List.mem_of_getElem? hj)
  obtain ⟨hknown, hne⟩ := h.secluded.station hj
  have hset : w'.engine.globals c = s.task.loadSnapshot (w.engine.globals c) := by
    rw [hw']
    exact Engine.globals_setGlobals_self (w.report _).engine _ hknown
  have hothers : ∀ d, d ≠ c → w'.engine.globals d = w.engine.globals d := by
    intro d hd
    rw [hw']
    exact Engine.globals_setGlobals_of_ne (w.report _).engine _ hd
  have hmain : w'.main = w.main := by rw [hw']; rfl
  have hqueue : w'.queue = w.queue := by rw [hw']; rfl
  have hstations : w'.stations = w.stations.set j (c, .executing once s (.running
      (startTask library c s.task (w.report (.taskSpan s.task.function))).2)) := by
    rw [hw']
    exact World.stations_placeWorker hj
  have hj' : w'.stations[j]? = some (c, .executing once s (.running
      (startTask library c s.task (w.report (.taskSpan s.task.function))).2)) :=
    World.station_of_set hj hstations
  have hopen : w'.unwritten = w.unwritten :=
    World.unwritten_advance h.locked hadv (World.view_station hj) (World.view_station hj')
  have hbuilt := hlibrary.codeOf s.task.function
    (s.task.argumentValues (s.task.loadSnapshot (w.engine.globals c)))
  refine h.moveWorker (h.secluded.rehomes (World.advance_rehomes hadv)) (h.locked.advance hadv) hj
    hmain (by rw [hw']; rfl) hstations (fun d _ hd _ => hothers d hd) (hqueue ▸ h.queue) ?_ ?_
  · refine ⟨rfl, rfl, ?_⟩
    rw [hset]
    show (s.task.loadSnapshot (w.engine.globals c)).BacksCode i (Execution.codeOf library
      s.task.function (s.task.argumentValues (s.task.loadSnapshot (w.engine.globals c))))
    cases hcode : Execution.codeOf library s.task.function
        (s.task.argumentValues (s.task.loadSnapshot (w.engine.globals c))) with
    | done results =>
        rw [hcode] at hbuilt
        intro hnone
        refine hbuilt i fun v hv => ?_
        have hle := Task.owns_of_mem_argumentValues (i := i) hplain hv
        omega
    | fail failure => trivial
    | perform operation next =>
        rw [hcode] at hbuilt
        exact hbuilt
  · have hload := s.task.owns_loadSnapshot_le (w.engine.globals c) i
    have hbefore : w.engine.stationOwns i (c, .executing once s .preparing) =
        ((w.engine.globals c).without []).owns i + s.task.owns i := rfl
    have hafter := w'.engine.stationOwns_le i c (.executing once s (.running
      (startTask library c s.task (w.report (.taskSpan s.task.function))).2))
    rw [hset] at hafter
    simp only [WorkerPlace.unwritten, WorkerPlace.owns, Globals.without_nil] at hafter hbefore
    have hpart : w'.mainOwns i = w.mainOwns i := by
      rw [World.mainOwns, hopen, hmain, hothers _ hne.symm, World.mainOwns]
    have hpending : w'.pendingOwns i = w.pendingOwns i := by
      rw [World.pendingOwns, hqueue, World.pendingOwns]
    rw [hpart, hpending, hbefore]
    omega

theorem WorkerPlace.Backed.activityStep {g : Globals} {activity : Activity}
    {stage : Stage Activity Ending}
    (hbacked : (WorkerPlace.executing once s (.running activity)).Backed g i)
    (hs : ScriptPool.activityStep library pick (.worker j) w activity = some (v, stage)) :
    v = w ∧ ∃ ending, stage = .over ending ∧
      (WorkerPlace.executing once s
        (.lockingMain (ending.guarded s.task.function))).Backed g i := by
  obtain ⟨⟨x, function, code, frames, suspended⟩, asking?⟩ := activity
  obtain ⟨rfl, hframes, hcode⟩ := hbacked
  obtain rfl : frames = [] := hframes
  cases code with
  | done results =>
      cases hs
      refine ⟨rfl, _, rfl, ?_⟩
      cases suspended with
      | false | true => exact hcode
  | fail failure =>
      have hnone : g.Backs i [] := fun _ v hv => absurd hv List.not_mem_nil
      cases failure with
      | script | message | panic =>
          cases hs
          exact ⟨rfl, _, rfl, hnone⟩
  | perform => cases hcode

theorem OwnedOnce.lockMain (h : OwnedOnce i w) {outcome : Invocation}
    (hadv : w.advance library pick (.worker j) = some w')
    (hj : w.stations[j]? = some (c, .executing once s (.lockingMain outcome)))
    (hfree : w.mainHolder? = none)
    (hover : (WorkerPlace.executing once s (.lockingMain outcome)).keepsBack
      (w.engine.globals c) i = false)
    (hw' : w' = { w with mainHolder? := some (.worker j) }.placeWorker j
      (.executing once s (.writing outcome s.task.call.returns outcome.results))) :
    OwnedOnce i w' := by
  have hlocked := h.locked.advance hadv
  have hbacked : (w.engine.globals c).Backs i outcome.results :=
    h.stations _ (List.mem_of_getElem? hj)
  have hstations : w'.stations = w.stations.set j
      (c, .executing once s (.writing outcome s.task.call.returns outcome.results)) := by
    rw [hw']
    exact World.stations_placeWorker hj
  have hj' : w'.stations[j]? = some
      (c, .executing once s (.writing outcome s.task.call.returns outcome.results)) :=
    World.station_of_set hj hstations
  have hunwritten' : w'.unwritten = s.task.call.returns := hlocked.unwritten_worker hj' rfl
  have hmainOwns : w.mainOwns i = (w.engine.globals w.main).owns i := by
    rw [World.mainOwns, World.unwritten, hfree]
    exact congrArg (Globals.owns · i) (Globals.without_nil _)
  have hmainOwns' : w'.mainOwns i =
      ((w.engine.globals w.main).without s.task.call.returns).owns i := by
    rw [World.mainOwns, hunwritten', hw']
    rfl
  have hmine := h.stationOwns_add_main_le hj
  have hmain := (w.engine.globals w.main).owns_without_le s.task.call.returns i
  have hprivate := (w.engine.globals c).owns_without_le s.task.call.returns i
  simp only [WorkerPlace.keepsBack, Bool.and_eq_false_iff, decide_eq_false_iff_not, Nat.not_lt,
    Nat.le_zero] at hover
  subst hw'
  refine h.moveWorker (h.secluded.rehomes (World.advance_rehomes hadv)) hlocked hj rfl rfl hstations
    (fun _ _ _ _ => rfl) h.queue trivial ?_
  rw [hmainOwns, hmainOwns']
  show _ + w.pendingOwns i + (((w.engine.globals c).without s.task.call.returns).owns i +
    delivered i s.task.call.returns outcome.results) ≤ _ + w.pendingOwns i + _
  rw [hmainOwns] at hmine
  simp only [Engine.stationOwns, WorkerPlace.unwritten, WorkerPlace.owns, Globals.without_nil]
    at hmine ⊢
  by_cases hnone : (w.engine.globals c).owns i = 0
  · have hdelivered := delivered_of_results (hbacked hnone) s.task.call.returns
    omega
  · omega

theorem OwnedOnce.writeMain (h : OwnedOnce i w) {outcome : Invocation} {name : String}
    {names : List String} {results : List Value}
    (hadv : w.advance library pick (.worker j) = some w')
    (hj : w.stations[j]? = some (c, .executing once s (.writing outcome (name :: names) results)))
    (hw' : w' = { w with
        engine := writeResult c w.main name (firstResult results) w.engine }.placeWorker j
      (.executing once s (.writing outcome names results.tail))) : OwnedOnce i w' := by
  have hlocked := h.locked.advance hadv
  obtain ⟨hknown, hne⟩ := h.secluded.station hj
  have hmade : w.main < w.engine.contexts.length := h.secluded.known _ List.mem_cons_self
  have hstations : w'.stations = w.stations.set j
      (c, .executing once s (.writing outcome names results.tail)) := by
    rw [hw']
    exact World.stations_placeWorker hj
  have hj' : w'.stations[j]? = some
      (c, .executing once s (.writing outcome names results.tail)) :=
    World.station_of_set hj hstations
  have hunwritten : w.unwritten = name :: names := h.locked.unwritten_worker hj rfl
  have hunwritten' : w'.unwritten = names := hlocked.unwritten_worker hj' rfl
  have hprivate := owns_writeResult_private hne hknown name (firstResult results) names i
  have hmainOwns : w.mainOwns i = ((w.engine.globals w.main).without (name :: names)).owns i := by
    rw [World.mainOwns, hunwritten]
  have hmainOwns' : w'.mainOwns i = ((w.engine.globals w.main).without (name :: names)).owns i +
      if name ∈ names then 0 else (firstResult results).owns i := by
    rw [World.mainOwns, hunwritten', hw']
    exact owns_writeResult_main hmade hne name (firstResult results) names i
  subst hw'
  refine h.moveWorker (h.secluded.rehomes (World.advance_rehomes hadv)) hlocked hj rfl rfl hstations
    (fun d _ hd hd' => writeResult_globals_of_ne _ _ hd hd') h.queue trivial ?_
  rw [hmainOwns, hmainOwns']
  show _ + w.pendingOwns i + ((((writeResult c w.main name (firstResult results)
      w.engine).globals c).without names).owns i + delivered i names results.tail) ≤
    _ + w.pendingOwns i +
      (((w.engine.globals c).without (name :: names)).owns i + delivered i (name :: names) results)
  rw [hprivate, delivered]
  omega

theorem OwnedOnce.replace (h : OwnedOnce i w) {fresh : ContextId}
    (hadv : w.advance library pick (.worker j) = some w')
    (hj : w.stations[j]? = some (c, .executing once s .replacing))
    (hfresh : w.privateContext = (.ok fresh, v))
    (hw' : w' = ({ v.report .contextReplaced with
        engine := (v.report .contextReplaced).engine.unregister c }.modifyWorker j fun worker =>
          { worker with context := fresh }).placeWorker j (.executing once s .clearing)) :
    OwnedOnce i w' := by
  have hmade : w.main < w.engine.contexts.length := h.secluded.known _ List.mem_cons_self
  have hempty := World.privateContext_empty hfresh
  rcases World.privateContext_eq hfresh with ⟨heq, -⟩ | ⟨e, heq, rfl, -, hglobals⟩
  · cases heq
  cases heq
  obtain ⟨worker, hworker, hstation⟩ : ∃ worker, w.workers[j]? = some worker ∧
      worker.station = (c, .executing once s .replacing) := by
    rwa [World.stations, List.getElem?_map, Option.map_eq_some_iff] at hj
  have hplace : worker.place = .executing once s .replacing := congrArg Prod.snd hstation
  have hstations : w'.stations = w.stations.set j
      (w.engine.contexts.length, .executing once s .clearing) := by
    rw [hw', World.placeWorker, World.modifyWorker_modifyWorker]
    exact World.stations_modify hworker _
  have hj' : w'.stations[j]? = some (w.engine.contexts.length, .executing once s .clearing) :=
    World.station_of_set hj hstations
  have hopen : w'.unwritten = w.unwritten :=
    World.unwritten_advance h.locked hadv (World.view_station hj) (World.view_station hj')
  subst hw'
  refine h.moveWorker (h.secluded.rehomes (World.advance_rehomes hadv)) (h.locked.advance hadv) hj
    rfl rfl hstations (fun d hd _ _ => hglobals d hd) h.queue trivial ?_
  have hpart : World.mainOwns _ i = w.mainOwns i :=
    congrArg₂ (fun g names => (g.without names).owns i) (hglobals _ hmade) hopen
  have hnothing : (e.globals w.engine.contexts.length).owns i = 0 := by rw [hempty]; rfl
  rw [hpart]
  show _ + w.pendingOwns i + (((e.globals w.engine.contexts.length).without []).owns i + 0) ≤ _
  rw [Globals.without_nil, hnothing]
  exact Nat.add_le_add_left (Nat.zero_le _) _

theorem OwnedOnce.taskStep (h : OwnedOnce i w) (hlibrary : library.OnlyReturns)
    (hover : w.handsOver i = true) {taskPlace taskPlace' : TaskPlace}
    (hworker : w.workers[j]? = some worker) (hplace : worker.place = .executing once s taskPlace)
    (hs : taskPlace.Goes library pick j worker s.task w v taskPlace')
    (hadv : w.advance library pick (.worker j) = some w')
    (hw' : w' = v.placeWorker j (.executing once s taskPlace')) : OwnedOnce i w' := by
  have hj : w.stations[j]? = some (worker.context, .executing once s taskPlace) :=
    hplace ▸ World.stations_getElem? hworker
  have hbacked := h.stations _ (List.mem_of_getElem? hj)
  have hquiet (hhosts : v.hosts = w.hosts) (hstill : Still w v)
      (hunwritten : (WorkerPlace.executing once s taskPlace).unwritten = [])
      (hunwritten' : (WorkerPlace.executing once s taskPlace').unwritten = [])
      (hbacked' : (WorkerPlace.executing once s taskPlace').Backed (w.engine.globals worker.context) i)
      (hbalance : (WorkerPlace.executing once s taskPlace').owns i ≤
        (WorkerPlace.executing once s taskPlace).owns i) : OwnedOnce i w' :=
    h.stillWorker hadv hj hw' hhosts hstill hunwritten hunwritten' hbacked' hbalance (by rintro ⟨⟩)
  have hflag (f : Worker → Worker) (hf : ∀ worker, (f worker).station = worker.station) :
      Still w (w.modifyWorker j f) := (World.modifyWorker_calm hf w j).toStill
  cases hs with
  | published | cleared => exact hquiet rfl (hflag _ fun _ => rfl) rfl rfl hbacked (Nat.le_refl _)
  | unlockedQueue => exact hquiet rfl ⟨rfl, rfl, rfl, rfl, rfl⟩ rfl rfl hbacked (Nat.le_refl _)
  | prepared => exact h.prepare hlibrary hadv hj hw'
  | ran hcode =>
      obtain ⟨-, ending, hgoing, -⟩ := hbacked.activityStep hcode
      cases hgoing
  | ended _ hcode =>
      obtain ⟨-, ending, hover, hbacked'⟩ := hbacked.activityStep hcode
      cases hover
      exact hquiet rfl (.refl _) rfl rfl hbacked' (Nat.le_refl _)
  | locked hfree =>
      have hkeeps := List.all_eq_true.mp hover worker (List.mem_of_getElem? hworker)
      rw [hplace, Bool.not_eq_true'] at hkeeps
      exact h.lockMain hadv hj hfree hkeeps hw'
  | lockedErrored | unlocked | failed | completed =>
      exact hquiet rfl ⟨rfl, rfl, rfl, rfl, rfl⟩ rfl rfl trivial (Nat.le_refl _)
  | written => exact hquiet rfl (.refl _) rfl rfl trivial (Nat.le_refl _)
  | wrote => exact h.writeMain hadv hj hw'
  | counted =>
      refine hquiet rfl (hflag _ fun _ => ?_) rfl rfl trivial (Nat.le_refl _)
      split
      · rfl
      · rfl
  | replaced hfresh => exact h.replace hadv hj hfresh hw'
  | notReplaced hfails =>
      obtain rfl := World.privateContext_fails hfails
      exact hquiet rfl (World.report_still _ _) rfl rfl trivial (Nat.le_refl _)

theorem OwnedOnce.workerStep (h : OwnedOnce i w) (hlibrary : library.OnlyReturns)
    (hover : w.handsOver i = true) (hadv : w.advance library pick (.worker j) = some w') :
    OwnedOnce i w' := by
  obtain ⟨worker, hworker, hs⟩ := World.advance_worker_iff.mp hadv
  have hj := World.stations_getElem? hworker
  have hquiet {u : World} {place' : WorkerPlace} (hw' : w' = u.placeWorker j place')
      (hhosts : u.hosts = w.hosts) (hstill : Still w u) (hunwritten : worker.place.unwritten = [])
      (hunwritten' : place'.unwritten = [])
      (hbacked : place'.Backed (w.engine.globals worker.context) i) (hnothing : place'.owns i = 0)
      (hgone : worker.place ≠ .gone) : OwnedOnce i w' :=
    h.stillWorker hadv hj hw' hhosts hstill hunwritten hunwritten' hbacked
      (hnothing.trans_le (Nat.zero_le _)) hgone
  have hbusy (f : Worker → Worker) (hw' : w' = w.modifyWorker j f)
      (hcontext : (f worker).context = worker.context) (hunwritten : worker.place.unwritten = [])
      (hunwritten' : (f worker).place.unwritten = [])
      (hbacked : (f worker).place.Backed (w.engine.globals worker.context) i)
      (hnothing : (f worker).place.owns i = 0) (hgone : worker.place ≠ .gone) : OwnedOnce i w' := by
    have hstation : (f worker).station = (worker.context, (f worker).place) := by
      rw [Worker.station, hcontext]
    subst hw'
    exact h.quietWorker hadv hj rfl rfl (hstation ▸ World.stations_modify hworker f) rfl h.queue
      hunwritten hunwritten' hbacked
      (Nat.add_le_add_left (hnothing.trans_le (Nat.zero_le _)) _) hgone
  obtain ⟨place, hp, hgoes⟩ := workerStep_goes hs
  have hnone (hempty : place.unwritten = []) : worker.place.unwritten = [] := hp ▸ hempty
  have hgone (hne : place ≠ .gone) : worker.place ≠ .gone := hp ▸ hne
  cases hgoes with
  | went once htask => exact h.taskStep hlibrary hover hworker hp htask hadv rfl
  | began =>
      exact hquiet rfl rfl (w.report_still _) (hnone rfl) rfl trivial rfl (hgone (by rintro ⟨⟩))
  | received =>
      have hreceived := hbusy _ rfl worker.receive_context (hnone rfl)
      rcases Worker.receive_place hp with h' | h' | h'
      · rw [h'] at hreceived
        exact hreceived rfl trivial rfl (hgone (by rintro ⟨⟩))
      · rw [h'] at hreceived
        exact hreceived rfl trivial rfl (hgone (by rintro ⟨⟩))
      · rw [h'] at hreceived
        exact hreceived rfl trivial rfl (hgone (by rintro ⟨⟩))
  | measured | compared | checkedEmpty | checked | missed =>
      exact hquiet rfl rfl (.refl w) (hnone rfl) rfl trivial rfl (hgone (by rintro ⟨⟩))
  | @popped once submission rest _ hqueue =>
      rw [hp] at hj
      have hplain := h.queue submission (by simp [hqueue])
      refine h.quietWorker hadv hj rfl rfl (World.stations_placeWorker hj) rfl ?_ rfl rfl hplain
        ?_ (by rintro ⟨⟩)
      · intro s hs
        exact h.queue s (by rw [hqueue]; exact List.mem_cons_of_mem _ hs)
      · show (rest.map fun s => s.task.owns i).sum + submission.task.owns i ≤ _ + 0
        rw [World.pendingOwns, hqueue, List.map_cons, List.sum_cons]
        omega
  | finished once s =>
      cases once with
      | false | true =>
          exact hquiet rfl rfl ⟨rfl, rfl, rfl, rfl, rfl⟩ (hnone rfl) rfl trivial rfl
            (hgone (by rintro ⟨⟩))
  | rested => exact hbusy _ rfl rfl (hnone rfl) rfl trivial rfl (hgone (by rintro ⟨⟩))
  | announced | exited =>
      exact hquiet rfl rfl ⟨rfl, rfl, rfl, rfl, rfl⟩ (hnone rfl) rfl trivial rfl
        (hgone (by rintro ⟨⟩))

end Workers

end ScriptPool

import ScriptPool.Proofs.Pool.BatchHost

namespace ScriptPool

def Move.call? : Move → Option HostCall
  | .begin _ call => some call
  | .step .. | .addContext | .setGlobal .. | .openGate _ | .openAllGates | .setBudget _ => none

/-- The calls of the host that some moves begin, in order. -/
def callsBegun (moves : List Move) : List HostCall :=
  moves.filterMap Move.call?

def Move.keepsGlobals : Move → Bool
  | .setGlobal .. => false
  | .step .. | .begin .. | .addContext | .openGate _ | .openAllGates | .setBudget _ => true

/-- Submitting some texts in order and waiting for all of them. -/
def batchScript (main : ContextId) (texts : List String) : List HostCall :=
  texts.map (fun text => .ask main (.parallel text)) ++ [.ask main .joinAll]

namespace Batch

variable {b : Batch} {w v w' : World} {deeds : List Deed} {begun pick : Nat} {library : Library}
  {call : HostCall} {texts : List String}

/-- Where the only thread of the host stands when it has begun some of its calls. -/
def Stands (b : Batch) (w : World) (begun : Nat) : HostPlace → Prop
  | .free _ => begun ≤ b.calls.length → w.shutDown = true ∨ w.tickets = begun
  | .opening _ => begun = 0 ∧ w.tickets = 0
  | .asking (.submit source place) =>
    source = b.main ∧ begun ≤ b.calls.length ∧ b.Submits w begun place
  | .asking (.joinAll place) =>
    begun = b.calls.length + 1 ∧
      (w.tickets = b.calls.length ∨ place = .checking ∧ w.shutDown = true)
  | _ => False

/-- The batch is on its way. -/
structure Underway (b : Batch) (w : World) (deeds : List Deed) (begun : Nat) : Prop where
  engaged : b.Engaged w deeds
  host : ∃ place, w.hosts = [place] ∧ b.Stands w begun place

theorem Stands.congr {place : HostPlace} (h : b.Stands w begun place)
    (htickets : w'.tickets = w.tickets) (hshut : w'.shutDown = w.shutDown) :
    b.Stands w' begun place := by
  have heq : b.Stands w' begun place = b.Stands w begun place := by
    unfold Stands Submits
    rw [htickets, hshut]
  rw [heq]
  exact h

theorem Engaged.placeHost (h : b.Engaged w deeds) (host : Nat) (place : HostPlace) :
    b.Engaged (w.placeHost host place) deeds :=
  h.still ⟨rfl, rfl, rfl, rfl, rfl⟩

theorem World.deed?_of_submit {place : SubmitPlace} {source : ContextId}
    (hhost : w.host? 0 = some (.asking (.submit source place))) :
    w.deed? (.host 0) = place.deed? w.tickets := by
  simp only [World.deed?, World.asking?, hhost]
  cases place with
  | checking | locking | reading | tagging | unlocking | pushing | counting | notifying
  | starting => rfl

theorem Underway.hostStep {place : HostPlace} (hsound : b.Sound) (h : b.Engaged w deeds)
    (hfresh : ∀ d ∈ deeds, d.submission.ticket < w.tickets) (hhosts : w.hosts = [place])
    (hplace : b.Stands w begun place) (hs : hostStep library pick 0 place w = some w') :
    b.Underway w' (deeds ++ (w.deed? (.host 0)).toList) begun ∧
      (w.isOpening = false → w'.pool = w.pool) := by
  obtain ⟨u, place', rfl, hgoes⟩ := hostStep_goes hs
  have hhosts' : (u.placeHost 0 place').hosts = [place'] := by
    rw [World.placeHost, show u.hosts = w.hosts from hgoes.crew.hosts_eq, hhosts]
    rfl
  have hhost : w.host? 0 = some place := by rw [World.host?, hhosts]; rfl
  have hquiet (hdeed : w.deed? (.host 0) = none) (hu : b.Engaged u deeds)
      (hstands : b.Stands (u.placeHost 0 place') begun place') :
      b.Underway (u.placeHost 0 place') (deeds ++ (w.deed? (.host 0)).toList) begun := by
    rw [hdeed, Option.toList_none, List.append_nil]
    exact ⟨hu.placeHost _ _, _, hhosts', hstands⟩
  cases hgoes with
  | closes | closed | measures | measured | runs | ended => cases hplace
  | opens hopen =>
      obtain ⟨hbegun, hnone⟩ := hplace
      obtain ⟨hu, htickets⟩ := h.openStep hopen
      have hdeed : w.deed? (.host 0) = none := by simp only [World.deed?, World.asking?, hhost]
      have hopening : w.isOpening = true := by rw [World.isOpening, hhosts]; rfl
      rw [hopening]
      refine ⟨hquiet hdeed hu ⟨hbegun, htickets.trans hnone⟩, ?_⟩
      rintro ⟨⟩
  | opened hopen =>
      obtain ⟨hbegun, hnone⟩ := hplace
      obtain ⟨hu, htickets⟩ := h.openStep hopen
      have hdeed : w.deed? (.host 0) = none := by simp only [World.deed?, World.asking?, hhost]
      have hopening : w.isOpening = true := by rw [World.isOpening, hhosts]; rfl
      rw [hopening]
      refine ⟨hquiet hdeed hu fun _ => .inr ((htickets.trans hnone).trans hbegun.symm), ?_⟩
      rintro ⟨⟩
  | asks hask =>
      cases askingStep_goes hask with
      | submits hstep =>
          obtain ⟨rfl, hbegun, hsubmits⟩ := hplace
          obtain ⟨hengaged, hpool, hstage⟩ := h.submitStep hsound hfresh hsubmits hstep
          rw [World.deed?_of_submit hhost]
          exact ⟨⟨hengaged.placeHost _ _, _, hhosts', rfl, hbegun, hstage⟩, fun _ => hpool⟩
      | joinsAll hstep =>
          obtain ⟨hbegun, hwhole⟩ := hplace
          have hcalm := (joinAllStep_oversees hstep).calm
          have hdeed : w.deed? (.host 0) = none := by simp only [World.deed?, World.asking?, hhost]
          refine ⟨hquiet hdeed (h.still hcalm.toStill) ⟨hbegun, .inl ?_⟩, fun _ => hcalm.pool⟩
          rcases hwhole with hwhole | ⟨rfl, hshut⟩
          · exact hcalm.tickets.trans hwhole
          · cases joinAllStep_goes hstep with
            | checked hrunning => cases hrunning.symm.trans hshut
      | joins | acquires | releases | resizes => cases hplace
  | replied hask =>
      cases askingStep_goes hask with
      | submitted hstep =>
          obtain ⟨rfl, hbegun, hsubmits⟩ := hplace
          obtain ⟨hengaged, hpool, hstage⟩ := h.submitStep hsound hfresh hsubmits hstep
          rw [World.deed?_of_submit hhost]
          exact ⟨⟨hengaged.placeHost _ _, _, hhosts', fun _ => hstage⟩, fun _ => hpool⟩
      | joinedAll hstep =>
          obtain ⟨hbegun, hwhole⟩ := hplace
          have hcalm := (joinAllStep_oversees hstep).calm
          have hdeed : w.deed? (.host 0) = none := by simp only [World.deed?, World.asking?, hhost]
          refine ⟨hquiet hdeed (h.still hcalm.toStill) fun hle => ?_, fun _ => hcalm.pool⟩
          omega
      | joined | acquired | released | resized | refused => cases hplace

theorem Engaged.deed?_worker {i : Nat} {worker : Worker} (h : b.Engaged w deeds)
    (hworker : w.workers[i]? = some worker) : w.deed? (.worker i) = worker.place.deed? w.queue i := by
  have hi := World.stations_getElem? hworker
  cases hask : w.asking? (.worker i) with
  | none => simp only [World.deed?, hask, hworker, Option.bind_some]
  | some asking =>
      have hplace := hask
      simp only [World.asking?, hworker] at hplace
      split at hplace
      · next heq =>
          cases heq
          obtain ⟨-, -, htrack⟩ := h.tracks hi
          rw [hplace] at htrack
          obtain ⟨hcalm, -⟩ := htrack
          cases asking with
          | submit => cases hcalm
          | join | joinAll | acquire | release | resize | refused => simp only [World.deed?, hask]; rfl
      · cases hplace

theorem Underway.advance {thread : ThreadId} (hsound : b.Sound) (h : b.Underway w deeds begun)
    (hmember : ∀ i worker once s place, w.workers[i]? = some worker →
      worker.place = .executing once s place → i ∈ w.pool)
    (hfresh : ∀ d ∈ deeds, d.submission.ticket < w.tickets)
    (hs : w.advance b.library pick thread = some w') :
    b.Underway w' (deeds ++ (w.deed? thread).toList) begun ∧
      (w.isOpening = false → w'.pool = w.pool) := by
  obtain ⟨place, hhosts, hplace⟩ := h.host
  cases thread with
  | host host =>
      simp only [World.advance, World.host?, hhosts, Option.bind_eq_some_iff] at hs
      obtain ⟨place', hplace', hs⟩ := hs
      rw [List.getElem?_singleton] at hplace'
      split at hplace'
      · cases hplace'
        next hzero =>
          subst hzero
          exact Underway.hostStep hsound h.engaged hfresh hhosts hplace hs
      · cases hplace'
  | worker i =>
      obtain ⟨worker, hworker, hs⟩ := World.advance_worker_iff.mp hs
      obtain ⟨hengaged, hspares⟩ := h.engaged.workerStep hsound hworker
        (fun once s place => hmember i worker once s place hworker) hs
      rw [h.engaged.deed?_worker hworker]
      refine ⟨⟨hengaged, place, ?_, hplace.congr hspares.tickets hspares.shutDown⟩,
        fun _ => hspares.pool⟩
      rw [hspares.hosts, hhosts]

/-- What the thread of the host begins after some calls. -/
inductive Next (b : Batch) (begun : Nat) : HostCall → Prop where
  | submit {text : String} {call : Call} (hcall : b.calls[begun]? = some call)
      (hparse : Call.parse text = .ok call) : Next b begun (.ask b.main (.parallel text))
  | joinAll (hall : begun = b.calls.length) : Next b begun (.ask b.main .joinAll)

theorem script_next
    (htexts : List.Forall₂ (fun text call => Call.parse text = .ok call) texts b.calls)
    (h : (batchScript b.main texts)[begun]? = some call) : b.Next begun call := by
  have hlength : texts.length = b.calls.length := htexts.length_eq
  rcases Nat.lt_or_ge begun texts.length with hlt | hge
  · have hlt' : begun < b.calls.length := hlength ▸ hlt
    rw [batchScript, List.getElem?_append_left (by simpa using hlt), List.getElem?_map,
      List.getElem?_eq_getElem hlt] at h
    cases h
    exact .submit (List.getElem?_eq_getElem hlt') (htexts.get hlt hlt')
  · rw [batchScript, List.getElem?_append_right (by simpa using hge), List.length_map] at h
    rw [List.getElem?_singleton] at h
    split at h
    · cases h
      apply Next.joinAll
      omega
    · cases h

theorem Underway.begin {host : Nat} (h : b.Underway w deeds begun)
    (hbegin : w.canBegin host call = true) (hnext : b.Next begun call) :
    b.Underway (w.begin library host call) deeds (begun + 1) := by
  obtain ⟨place, hhosts, hplace⟩ := h.host
  obtain ⟨last?, hfree⟩ := World.free_of_canBegin hbegin
  rw [hhosts, List.getElem?_singleton] at hfree
  have hzero : host = 0 := by
    by_contra hne
    rw [if_neg hne] at hfree
    cases hfree
  subst hzero
  cases hfree
  cases hnext with
  | @submit text call hcall hparse =>
      have hlt := (List.getElem?_eq_some_iff.mp hcall).1
      refine ⟨h.engaged.still ⟨rfl, rfl, rfl, rfl, rfl⟩, .asking (.submit b.main (.checking text)),
        ?_, rfl, hlt, ?_⟩
      · rw [World.begin, World.placeHost, hhosts]
        rfl
      · rcases hplace (Nat.le_of_lt hlt) with hshut | rfl
        · exact .inl hshut
        · exact .inr ⟨rfl, _, hcall, hparse⟩
  | joinAll hall =>
      refine ⟨h.engaged.still ⟨rfl, rfl, rfl, rfl, rfl⟩, .asking (.joinAll .checking), ?_,
        congrArg (· + 1) hall, ?_⟩
      · rw [World.begin, World.placeHost, hhosts]
        rfl
      · rcases hplace (Nat.le_of_eq hall) with hshut | hsame
        · exact .inr ⟨rfl, hshut⟩
        · exact .inl (hsame.trans hall)

theorem Underway.still (h : b.Underway w deeds begun) (hs : Still w w') (hhosts : w'.hosts = w.hosts)
    (hshut : w'.shutDown = w.shutDown) : b.Underway w' deeds begun := by
  obtain ⟨place, hplace, hstands⟩ := h.host
  exact ⟨h.engaged.still hs, place, hhosts.trans hplace, hstands.congr hs.tickets hshut⟩

theorem Underway.addContext (h : b.Underway w deeds begun) :
    b.Underway w.addContext.1 deeds begun := by
  obtain ⟨place, hhosts, hplace⟩ := h.host
  have hengaged : b.Engaged
      { w with engine := w.engine.createContext.2.bind w.engine.contexts.length coordinatorRuntime }
      deeds := by
    apply h.engaged.extend
    · simp [Engine.bind, Engine.createContext]
    · intro c hc
      rw [Engine.globals_bind, Engine.globals_createContext _ hc]
  exact ⟨hengaged.still ⟨rfl, rfl, rfl, rfl, rfl⟩, place, hhosts, hplace.congr rfl rfl⟩

variable {engine : Engine} {poolSize : Nat} {moves : List Move}

theorem Underway.initial (hmain : b.main < engine.contexts.length)
    (hstart : engine.globals b.main = b.start) :
    b.Underway (World.initial engine b.main poolSize 0) [] 0 := by
  refine ⟨?_, _, rfl, rfl, rfl⟩
  constructor
  case main => rfl
  case known => exact hmain
  case globals =>
    intro name
    show (engine.globals b.main).get? name = b.start.get? name
    rw [hstart]
  -- no workers, no tasks and no deeds yet
  all_goals nofun

theorem Underway.move {m : Move} (hsound : b.Sound) (h : b.Underway w deeds begun)
    (hmember : ∀ i worker once s place, w.workers[i]? = some worker →
      worker.place = .executing once s place → i ∈ w.pool)
    (hfresh : ∀ d ∈ deeds, d.submission.ticket < w.tickets)
    (hnext : ∀ call, m.call? = some call → b.Next begun call) (hkeeps : m.keepsGlobals = true)
    (hm : w.move? b.library m = some w') :
    b.Underway w' (deeds ++ (m.thread?.bind w.deed?).toList) (begun + m.call?.toList.length) ∧
      (w.isOpening = false → w'.pool = w.pool) := by
  cases m with
  | step pick thread => exact h.advance hsound hmember hfresh hm
  | begin host call =>
      obtain ⟨hbegin, rfl⟩ := World.move?_begin_iff.mp hm
      rw [Move.thread?, Option.bind_none, Option.toList_none, List.append_nil]
      exact ⟨h.begin hbegin (hnext call rfl), fun _ => rfl⟩
  | addContext =>
      cases hm
      rw [Move.thread?, Option.bind_none, Option.toList_none, List.append_nil]
      exact ⟨h.addContext, fun _ => rfl⟩
  | setGlobal => cases hkeeps
  | openGate | openAllGates | setBudget =>
      cases hm
      rw [Move.thread?, Option.bind_none, Option.toList_none, List.append_nil]
      exact ⟨h.still ⟨rfl, rfl, rfl, rfl, rfl⟩ rfl rfl, fun _ => rfl⟩

/-- All along the run of a batch the results of its tasks are what the batch foresees, and the pool
is kept. -/
theorem Underway.of_run (hsound : b.Sound) (hmain : b.main < engine.contexts.length)
    (hstart : engine.globals b.main = b.start)
    (htexts : List.Forall₂ (fun text call => Call.parse text = .ok call) texts b.calls)
    (h : Run b.library (World.initial engine b.main poolSize 0) moves w)
    (hscript : callsBegun moves <+: batchScript b.main texts)
    (hkeeps : ∀ m ∈ moves, m.keepsGlobals = true) :
    b.Underway w ((World.initial engine b.main poolSize 0).deeds b.library moves)
      (callsBegun moves).length ∧
    (World.initial engine b.main poolSize 0).throughout b.library (World.keepsPool w.pool)
      moves = true := by
  induction h with
  | start => exact ⟨.initial hmain hstart, by simp [World.throughout, World.keepsPool]⟩
  | @move moves v v' h m hm ih =>
      have hbegun : callsBegun (moves ++ [m]) = callsBegun moves ++ m.call?.toList := by
        rw [callsBegun, List.filterMap_append]
        cases m with
        | step | begin | addContext | setGlobal | openGate | openAllGates | setBudget => rfl
      have hnext : ∀ call, m.call? = some call → b.Next (callsBegun moves).length call := by
        intro call hcall
        obtain ⟨rest, hrest⟩ := hbegun ▸ hscript
        apply script_next htexts
        rw [← hrest, hcall]
        simp
      obtain ⟨hv, hpool⟩ := ih ((List.prefix_append _ _).trans (hbegun ▸ hscript))
        fun m' hm' => hkeeps m' (List.mem_append_left _ hm')
      have hmember : ∀ i worker once s place, v.workers[i]? = some worker →
          worker.place = .executing once s place → i ∈ v.pool := by
        intro i worker once s place hworker hplace
        by_contra hout
        have hrest := h.resting_of_not_mem hpool (World.scene_hands_getElem? hworker) hout
        have hidle : worker.place.isBusy = false := hrest.of_bare.idle
        rw [hplace] at hidle
        cases hidle
      obtain ⟨hv', hsame⟩ := hv.move hsound hmember h.accounted.fresh hnext (hkeeps m (by simp)) hm
      constructor
      · rw [World.deeds, h.notes_snoc hm, hbegun, List.length_append]
        exact hv'
      · cases hopen : v.isOpening with
        | true =>
            apply h.throughout_append
            · apply World.throughout_mono _ (h.throughout_isOpening hopen)
              intro before u _ hu
              simp [World.keepsPool, hu]
            · simp [World.throughout, World.keepsPool, hopen, hm]
        | false =>
            rw [← hsame hopen] at hpool
            apply h.throughout_append hpool
            simp [World.throughout, World.keepsPool, hsame hopen, hm]

end Batch

end ScriptPool

import ScriptPool.Proofs.Bag.Capture
import ScriptPool.Proofs.Pool.Batch

namespace ScriptPool

/-- What the next step of a submission does to a task. -/
def SubmitPlace.deed? (ticket : Nat) : SubmitPlace → Option Deed
  | .pushing task => some (.pushed ⟨ticket, task⟩)
  | _ => none

theorem World.stations_addWorker (w : World) (id : Nat) (c : ContextId) :
    (w.addWorker id c).stations = w.stations ++ [(c, .beginning)] := by
  rw [World.stations, World.addWorker, List.map_append]
  rfl

theorem Engine.globals_createContext (e : Engine) {c : ContextId} (hc : c < e.contexts.length) :
    e.createContext.2.globals c = e.globals c := by
  rw [Engine.globals, Engine.globals, Engine.createContext, List.getElem?_append_left hc]

theorem Engine.globals_bind (e : Engine) (c d : ContextId) (runtime : RuntimeId) :
    (e.bind d runtime).globals c = e.globals c := by
  rw [Engine.globals, Engine.globals, Engine.bind]
  simp only [List.getElem?_modify]
  cases e.contexts[c]? with
  | none => rfl
  | some context =>
      by_cases hcd : d = c
      · simp [hcd]
      · simp [hcd]

theorem World.privateContext_eq {w v : World} {result : Except ScriptError ContextId}
    (h : w.privateContext = (result, v)) :
    (result = .error Engine.budgetExhausted ∧ v = w) ∨
    ∃ e : Engine, result = .ok w.engine.contexts.length ∧ v = { w with engine := e } ∧
      e.contexts.length = w.engine.contexts.length + 1 ∧
      ∀ c < w.engine.contexts.length, e.globals c = w.engine.globals c := by
  unfold World.privateContext Engine.spawnContext at h
  split at h
  · next c e heq =>
      cases h
      split at heq
      · cases heq
      · cases heq
        refine .inr ⟨_, rfl, rfl, by simp [Engine.register, Engine.bind, Engine.report], ?_⟩
        intro c hc
        refine (Engine.globals_bind _ c _ _).trans ?_
        exact Engine.globals_createContext _ hc
  · next e heq =>
      cases h
      split at heq
      · cases heq
        exact .inl ⟨rfl, rfl⟩
      · cases heq

namespace Batch

variable {b : Batch} {w v w' : World} {deeds : List Deed} {begun : Nat} {me : ThreadId} {call : Call}
  {name : String}

theorem Engaged.extend (h : b.Engaged w deeds) {e : Engine}
    (hlength : w.engine.contexts.length ≤ e.contexts.length)
    (hglobals : ∀ c < w.engine.contexts.length, e.globals c = w.engine.globals c) :
    b.Engaged { w with engine := e } deeds := by
  refine { h with
    known := h.known.trans_le hlength, globals := ?_
    secluded := fun hi => ⟨(h.secluded hi).1.trans_le hlength, (h.secluded hi).2⟩
    tracks := fun hi => (h.tracks hi).congr (hglobals _ (h.secluded hi).1) }
  intro name
  show (e.globals b.main).get? name = _
  rw [hglobals _ h.known]
  exact h.globals name

theorem Engaged.addWorker (h : b.Engaged w deeds) {id : Nat} {c : ContextId}
    (hknown : c < w.engine.contexts.length) (hmain : c ≠ b.main)
    (hnew : ∀ station ∈ w.stations, station.1 ≠ c) : b.Engaged (w.addWorker id c) deeds := by
  have hcases : ∀ {i : Nat} {c' : ContextId} {place : WorkerPlace},
      (w.addWorker id c).stations[i]? = some (c', place) →
        w.stations[i]? = some (c', place) ∨
          i = w.stations.length ∧ c' = c ∧ place = .beginning := by
    intro i c' place hi
    rw [World.stations_addWorker] at hi
    rcases Nat.lt_trichotomy i w.stations.length with hlt | heq | hgt
    · rw [List.getElem?_append_left hlt] at hi
      exact .inl hi
    · rw [heq, List.getElem?_concat_length] at hi
      cases hi
      exact .inr ⟨heq, rfl, rfl⟩
    · rw [List.getElem?_eq_none (by simp; omega)] at hi
      cases hi
  refine { h with secluded := ?_, distinct := ?_, tracks := ?_ }
  · intro i c' place hi
    rcases hcases hi with hi | ⟨-, rfl, -⟩
    · exact h.secluded hi
    · exact ⟨hknown, hmain⟩
  · intro i j c' place place' hi hj
    rcases hcases hi with hi | ⟨hlast, hc, -⟩
    · rcases hcases hj with hj | ⟨-, hc, -⟩
      · exact h.distinct hi hj
      · exact absurd hc (hnew _ (List.mem_of_getElem? hi))
    · rcases hcases hj with hj | ⟨hlast', -, -⟩
      · exact absurd hc (hnew _ (List.mem_of_getElem? hj))
      · rw [hlast, hlast']
  · intro i c' place hi
    rcases hcases hi with hi | ⟨-, -, rfl⟩
    · exact h.tracks hi
    · trivial

theorem Engaged.hireStep {place : HirePlace} {stage : Stage HirePlace (Except PoolError Unit)}
    (h : b.Engaged w deeds) (hs : hireStep me w place = some (v, stage)) :
    b.Engaged v deeds ∧ v.tickets = w.tickets := by
  cases place with
  | creating id count =>
      simp only [ScriptPool.hireStep] at hs
      split at hs
      · split at hs
        · next c u hcontext =>
            cases hs
            rcases World.privateContext_eq hcontext with ⟨heq, -⟩ | ⟨e, heq, rfl, hlength, hglobals⟩
            · cases heq
            · cases heq
              refine ⟨Engaged.still (Engaged.addWorker (h.extend (by omega) hglobals) ?_ ?_ ?_)
                (World.report_still _ _), rfl⟩
              · show w.engine.contexts.length < e.contexts.length
                omega
              · exact Nat.ne_of_gt h.known
              · intro station hstation
                obtain ⟨i, hi⟩ := List.mem_iff_getElem?.mp hstation
                exact Nat.ne_of_lt (h.secluded hi).1
        · next e u hcontext =>
            cases hs
            rcases World.privateContext_eq hcontext with ⟨-, rfl⟩ | ⟨e, heq, -⟩
            · exact ⟨h, rfl⟩
            · cases heq
      · cases hs
        exact ⟨h.still (w.report_still _), rfl⟩
  | locking serial id count =>
      simp only [ScriptPool.hireStep, Option.map_eq_some_iff, Prod.mk.injEq] at hs
      obtain ⟨u, hlock, rfl, -⟩ := hs
      have hcalm := World.lockPool_calm hlock
      exact ⟨h.still hcalm.toStill, hcalm.tickets⟩
  | pushing serial id count =>
      cases hs
      exact ⟨h.still ⟨rfl, rfl, rfl, rfl, rfl⟩, rfl⟩

theorem Engaged.openStep {place : OpenPlace} {stage : Stage OpenPlace (Except PoolError Unit)}
    (h : b.Engaged w deeds) (hs : openStep me w place = some (v, stage)) :
    b.Engaged v deeds ∧ v.tickets = w.tickets := by
  cases place with
  | hiring place =>
      simp only [ScriptPool.openStep, Option.map_eq_some_iff] at hs
      obtain ⟨⟨u, stage'⟩, hhire, hs⟩ := hs
      obtain ⟨hu, htickets⟩ := h.hireStep hhire
      rcases stage' with place' | (e | ⟨⟩)
      · cases hs
        exact ⟨hu, htickets⟩
      · cases hs
        exact ⟨hu, htickets⟩
      · cases hs
        exact ⟨hu.still (World.report_still _ _), htickets⟩
  | closing e place =>
      simp only [ScriptPool.openStep, Option.map_eq_some_iff] at hs
      obtain ⟨⟨u, stage'⟩, hclose, hs⟩ := hs
      have hstill := (shutdownStep_manages hclose).still
      cases stage' with
      | going | «over» =>
          cases hs
          exact ⟨h.still hstill, hstill.tickets⟩

/-- What the thread of the host knows while it submits the last call that it has begun. -/
def Submits (b : Batch) (w : World) (begun : Nat) : SubmitPlace → Prop
  | .checking text =>
    w.shutDown = true ∨ w.tickets + 1 = begun ∧
      ∃ call, b.calls[w.tickets]? = some call ∧ Call.parse text = .ok call
  | .locking call => w.tickets + 1 = begun ∧ b.calls[w.tickets]? = some call
  | .reading call names captured =>
    (w.tickets + 1 = begun ∧ b.calls[w.tickets]? = some call) ∧ captured.Of b.start ∧
      names ⊆ call.parameters ∧
      ∀ name ∈ call.parameters, name ∈ captured.map Prod.fst ∨ name ∈ names
  | .tagging .. => False
  | .unlocking task | .pushing task => w.tickets + 1 = begun ∧ b.Fits ⟨w.tickets, task⟩
  | .counting | .notifying | .starting _ => w.tickets = begun

theorem apart_of_getElem? (hsound : b.Sound) {i j : Nat} {a c : Call} (hne : i ≠ j)
    (hi : b.calls[i]? = some a) (hj : b.calls[j]? = some c) : a.Apart c := by
  have hpairwise := List.pairwise_iff_getElem.mp hsound.apart
  obtain ⟨hlt, rfl⟩ := List.getElem?_eq_some_iff.mp hi
  obtain ⟨hlt', rfl⟩ := List.getElem?_eq_some_iff.mp hj
  rcases Nat.lt_or_gt_of_ne hne with hij | hij
  · exact hpairwise i j hlt hlt' hij
  · exact (hpairwise j i hlt' hlt hij).symm

theorem Engaged.reads (hsound : b.Sound) (h : b.Engaged w deeds)
    (hfresh : ∀ d ∈ deeds, d.submission.ticket < w.tickets)
    (hcall : b.calls[w.tickets]? = some call) (hname : name ∈ call.parameters) :
    w.engine.get? b.main name = b.start.get? name := by
  rw [Engine.get?, h.globals name]
  apply Globals.get?_setAll_of_not_mem
  intro hwritten
  obtain ⟨pair, hpair, rfl⟩ := List.mem_map.mp hwritten
  obtain ⟨d, hd, hwrote⟩ := List.mem_filterMap.mp hpair
  cases d with
  | pushed | claimed | started | finished => cases hwrote
  | wrote s name value =>
      cases hwrote
      obtain ⟨hfits, hreturns⟩ := h.allowed _ hd
      have hne : s.ticket ≠ w.tickets := Nat.ne_of_lt (hfresh _ hd)
      exact (apart_of_getElem? hsound hne hfits.call hcall).parameters' _ hname hreturns

theorem Engaged.push (h : b.Engaged w deeds) {task : Task} (hfits : b.Fits ⟨w.tickets, task⟩) :
    b.Engaged (w.push task) (deeds ++ [.pushed ⟨w.tickets, task⟩]) := by
  have hrecord := h.record (d := .pushed ⟨w.tickets, task⟩) hfits rfl
  refine { hrecord with queue := ?_, complete := ?_ }
  · intro s hs
    rw [World.push, List.mem_append, List.mem_singleton] at hs
    rcases hs with hs | rfl
    · exact h.queue s hs
    · exact hfits
  · intro ticket hticket
    rcases Nat.lt_succ_iff_lt_or_eq.mp hticket with hlt | rfl
    · exact hrecord.complete ticket hlt
    · exact ⟨_, List.mem_append_right _ (List.mem_singleton_self _), rfl⟩

/-- What the thread of the host knows after a step of a submission. -/
def Submitted (b : Batch) (w : World) (begun : Nat) : Stage SubmitPlace Reply → Prop
  | .going place => b.Submits w begun place
  | .over _ => w.shutDown = true ∨ w.tickets = begun

theorem Engaged.calm (h : b.Engaged w deeds) {stage : Stage SubmitPlace Reply} (hcalm : Calm w v)
    (hstage : b.Submitted v begun stage) :
    b.Engaged v (deeds ++ []) ∧ v.pool = w.pool ∧ b.Submitted v begun stage := by
  rw [List.append_nil]
  exact ⟨h.still hcalm.toStill, hcalm.pool, hstage⟩

theorem Submits.found {names : List String} {captured : Snapshot}
    (h : b.Submits w begun (.reading call (name :: names) captured))
    (hfound : (captured.get? name).isSome = true) :
    b.Submits w begun (.reading call names captured) := by
  obtain ⟨hcall, hof, hsubset, hcovers⟩ := h
  refine ⟨hcall, hof, fun other hother => hsubset (List.mem_cons_of_mem _ hother), ?_⟩
  intro other hother
  rcases hcovers other hother with hin | hin
  · exact .inl hin
  · rcases List.mem_cons.mp hin with rfl | hin
    · exact .inl (Snapshot.isSome_get?_iff.mp hfound)
    · exact .inr hin

theorem Submits.copied {names : List String} {captured : Snapshot}
    (h : b.Submits w begun (.reading call (name :: names) captured)) :
    b.Submits w begun
      (.reading call names (captured ++ [(name, (b.start.get? name).getD .nil)])) := by
  obtain ⟨hcall, hof, hsubset, hcovers⟩ := h
  refine ⟨hcall, ?_, fun other hother => hsubset (List.mem_cons_of_mem _ hother), ?_⟩
  · intro entry hentry
    rw [List.mem_append, List.mem_singleton] at hentry
    rcases hentry with hentry | rfl
    · exact hof entry hentry
    · rfl
  · intro other hother
    rw [List.map_append, List.mem_append]
    rcases hcovers other hother with hin | hin
    · exact .inl (.inl hin)
    · rcases List.mem_cons.mp hin with rfl | hin
      · exact .inl (.inr (List.mem_singleton_self _))
      · exact .inr hin

theorem Engaged.submitStep {place : SubmitPlace} {stage : Stage SubmitPlace Reply}
    (hsound : b.Sound) (h : b.Engaged w deeds)
    (hfresh : ∀ d ∈ deeds, d.submission.ticket < w.tickets) (hplace : b.Submits w begun place)
    (hs : submitStep b.main me w place = some (v, stage)) :
    b.Engaged v (deeds ++ (place.deed? w.tickets).toList) ∧ v.pool = w.pool ∧
      b.Submitted v begun stage := by
  have hsame := Calm.refl w
  cases stage with
  | going place' =>
      cases submitStep_goes hs with
      | checked hrunning hparse =>
          rcases hplace with hdown | ⟨hbegun, call, hcall, hparse'⟩
          · rw [hrunning] at hdown
            cases hdown
          · rw [hparse] at hparse'
            cases hparse'
            exact h.calm hsame ⟨hbegun, hcall⟩
      | checkedApart _ _ hapart => exact absurd h.main.symm hapart
      | locked call =>
          refine h.calm ⟨⟨rfl, rfl, rfl, rfl, rfl⟩, rfl, rfl⟩ ?_
          exact ⟨hplace, fun _ hentry => absurd hentry List.not_mem_nil, fun _ hname => hname,
            fun _ hname => .inr hname⟩
      | found call hfound => exact h.calm hsame (Submits.found hplace hfound)
      | copied call =>
          have hread := h.reads hsound hfresh hplace.1.2 (hplace.2.2.1 List.mem_cons_self)
          rw [hread, captureGlobal_of_plain (hsound.plain _)]
          exact h.calm hsame (Submits.copied hplace)
      | moved call _ hleft =>
          have hread := h.reads hsound hfresh hplace.1.2 (hplace.2.2.1 List.mem_cons_self)
          rw [hread, captureGlobal_of_plain (hsound.plain _)] at hleft
          cases hleft
      | tagged => cases hplace
      | read call captured =>
          obtain ⟨⟨hbegun, hcall⟩, hof, -, hcovers⟩ := hplace
          refine h.calm hsame ⟨hbegun, hcall, ?_⟩
          apply Task.arguments_ofCaptured hsound.plain hof
          intro name hname
          exact (hcovers name hname).resolve_right List.not_mem_nil
      | readApart _ _ hapart => exact absurd h.main.symm hapart
      | unlocked | counted | notified =>
          exact h.calm ⟨⟨rfl, rfl, rfl, rfl, rfl⟩, rfl, rfl⟩ hplace
      | pushed task =>
          obtain ⟨hbegun, hfits⟩ := hplace
          exact ⟨(h.push hfits).still (World.report_still _ _), rfl, hbegun⟩
      | start hstart =>
          have hcalm := (startStep_oversees hstart).calm
          exact h.calm hcalm (hcalm.tickets.trans hplace)
  | «over» reply =>
      cases submitStep_replies hs with
      | refused text hdown => exact h.calm hsame (.inl hdown)
      | misread hrunning hparse =>
          rcases hplace with hdown | ⟨-, call, -, hparse'⟩
          · rw [hrunning] at hdown
            cases hdown
          · rw [hparse] at hparse'
            cases hparse'
      | idle hstart =>
          have hcalm := (startStep_oversees hstart).calm.report .noIdleWorker
          exact h.calm hcalm (.inr (hcalm.tickets.trans hplace))
      | started _ hstart =>
          have hcalm := (startStep_oversees hstart).calm
          exact h.calm hcalm (.inr (hcalm.tickets.trans hplace))

end Batch

end ScriptPool

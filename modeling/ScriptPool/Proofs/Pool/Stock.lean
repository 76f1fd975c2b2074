import ScriptPool.Proofs.Pool.MainLock
import ScriptPool.Proofs.Pool.Secluded
import ScriptPool.Proofs.Value.Owned

/-!
Who owns a handle while tasks take it along and bring it back.

The stock counts every owner once, also while a handle is on its way: a snapshot counts from the
capture of a global to the loading in the worker's context, and results count from the moment at
which the main context is locked for them, when the names that they are written under do not count
any longer. No step adds to the stock, except that a task may hand back a handle that stays with the
worker's context under a name which the task does not write.
-/

namespace ScriptPool

/-- How often results own a handle once they are written under their names. Of several results for
one name the last one stays. -/
def delivered (i : Identity) : List String → List Value → Nat
  | [], _ => 0
  | name :: names, results =>
    (if name ∈ names then 0 else (firstResult results).owns i) + delivered i names results.tail

section Results

variable {i : Identity} {e : Engine} {c main : ContextId}

theorem delivered_of_results {results : List Value} (h : ∀ v ∈ results, v.owns i = 0)
    (names : List String) : delivered i names results = 0 := by
  induction names generalizing results with
  | nil => rfl
  | cons name names ih =>
      have hfirst : (firstResult results).owns i = 0 := by
        cases results with
        | nil => rfl
        | cons v results => exact h v List.mem_cons_self
      rw [delivered, hfirst, ite_self, ih fun v hv => h v (List.mem_of_mem_tail hv)]

theorem writeResult_eq (name : String) (value : Value) : writeResult c main name value e =
    (e.setGlobals c (((e.globals c).set name value).takeOut name).2).set main name
      (((e.globals c).set name value).takeOut name).1 :=
  rfl

theorem writeResult_globals_of_ne (name : String) (value : Value) {d : ContextId} (hc : d ≠ c)
    (hmain : d ≠ main) : (writeResult c main name value e).globals d = e.globals d := by
  rw [writeResult_eq, Engine.set, Engine.globals_setGlobals_of_ne _ _ hmain,
    Engine.globals_setGlobals_of_ne _ _ hc]

theorem owns_writeResult_private (hne : c ≠ main) (hc : c < e.contexts.length) (name : String)
    (value : Value) (names : List String) (i : Identity) :
    (((writeResult c main name value e).globals c).without names).owns i =
      ((e.globals c).without (name :: names)).owns i := by
  rw [writeResult_eq, Engine.set, Engine.globals_setGlobals_of_ne _ _ hne,
    Engine.globals_setGlobals_self _ _ hc]
  exact (Globals.owns_takeOut_set _ name value names i).2

theorem owns_writeResult_main (hmain : main < e.contexts.length) (hne : c ≠ main) (name : String)
    (value : Value) (names : List String) (i : Identity) :
    (((writeResult c main name value e).globals main).without names).owns i =
      ((e.globals main).without (name :: names)).owns i +
        if name ∈ names then 0 else value.owns i := by
  have hlength : (e.setGlobals c (((e.globals c).set name value).takeOut name).2).contexts.length =
      e.contexts.length := by simp [Engine.setGlobals]
  rw [writeResult_eq, Engine.set, Engine.globals_setGlobals_self _ _ (hlength ▸ hmain),
    Engine.globals_setGlobals_of_ne _ _ hne.symm, Globals.owns_without_set,
    (Globals.owns_takeOut_set _ name value names i).1]

end Results

/-- The names that a thread of the host is about to write in the main context. -/
def HostPlace.unwritten : HostPlace → List String
  | .asking (.submit _ (.tagging _ name _ _ _)) => [name]
  | _ => []

/-- The names that a worker is about to write in its own context and in the main one. -/
def WorkerPlace.unwritten : WorkerPlace → List String
  | .executing _ _ (.writing _ names _) => names
  | _ => []

def World.unwrittenBy (w : World) : ThreadId → List String :=
  w.crew.view (·.elim [] HostPlace.unwritten) WorkerPlace.unwritten

/-- The names that are about to be written in the main context. -/
def World.unwritten (w : World) : List String :=
  w.mainHolder?.elim [] w.unwrittenBy

def SubmitPlace.owns (i : Identity) : SubmitPlace → Nat
  | .reading _ _ captured | .tagging _ _ _ _ captured => captured.owns i
  | .unlocking task | .pushing task => task.owns i
  | .checking _ | .locking _ | .counting | .notifying | .starting _ => 0

/-- How often a handle is owned by what a thread of the host has captured. -/
def HostPlace.owns (i : Identity) : HostPlace → Nat
  | .asking (.submit _ place) => place.owns i
  | _ => 0

/-- How often a handle is owned by the snapshot or the results that a worker has at hand. -/
def WorkerPlace.owns (i : Identity) : WorkerPlace → Nat
  | .executing _ s place =>
    match place with
    | .publishing | .unlockingQueue | .preparing => s.task.owns i
    | .writing _ names results => delivered i names results
    | _ => 0
  | _ => 0

/-- How often a worker owns a handle, in its context and at hand. -/
def Engine.stationOwns (e : Engine) (i : Identity) (station : ContextId × WorkerPlace) : Nat :=
  match station.2 with
  | .gone => 0
  | place => ((e.globals station.1).without place.unwritten).owns i + place.owns i

/-- How often the main context owns a handle under names that are not about to be written. -/
def World.mainOwns (w : World) (i : Identity) : Nat :=
  ((w.engine.globals w.main).without w.unwritten).owns i

/-- How often the snapshots of pending tasks own a handle. -/
def World.pendingOwns (w : World) (i : Identity) : Nat :=
  (w.queue.map fun s => s.task.owns i).sum

/-- How often a handle is owned, wherever it is. -/
def World.stock (w : World) (i : Identity) : Nat :=
  w.mainOwns i + w.pendingOwns i + (w.hosts.map (HostPlace.owns i)).sum +
    (w.stations.map (w.engine.stationOwns i)).sum

theorem Engine.stationOwns_eq {place : WorkerPlace} (hgone : place ≠ .gone) (e : Engine)
    (i : Identity) (c : ContextId) : e.stationOwns i (c, place) =
      ((e.globals c).without place.unwritten).owns i + place.owns i := by
  cases place with
  | gone => exact absurd rfl hgone
  | beginning | receiving | measuring | comparing | checking | popping | executing | resting
  | announcing | exiting => rfl

theorem Engine.stationOwns_le (e : Engine) (i : Identity) (c : ContextId) (place : WorkerPlace) :
    e.stationOwns i (c, place) ≤ ((e.globals c).without place.unwritten).owns i + place.owns i := by
  by_cases hgone : place = .gone
  · rw [hgone]
    exact Nat.zero_le _
  · exact (Engine.stationOwns_eq hgone e i c).le

theorem Engine.stationOwns_congr {e e' : Engine} {station : ContextId × WorkerPlace}
    (h : e'.globals station.1 = e.globals station.1) (i : Identity) :
    e'.stationOwns i station = e.stationOwns i station := by
  rw [Engine.stationOwns, Engine.stationOwns, h]

theorem sum_set_add {l : List Nat} {j a : Nat} (h : l[j]? = some a) (b : Nat) :
    (l.set j b).sum + a = l.sum + b := by
  induction l generalizing j with
  | nil => cases h
  | cons n l ih =>
      cases j with
      | zero =>
          cases h
          rw [List.set_cons_zero, List.sum_cons, List.sum_cons]
          omega
      | succ j =>
          have hrest := ih (j := j) h
          rw [List.set_cons_succ, List.sum_cons, List.sum_cons]
          omega

theorem map_set_congr {α β : Type} {f f' : α → β} {l : List α} {j : Nat}
    (h : ∀ k a, k ≠ j → l[k]? = some a → f' a = f a) (x : α) :
    (l.set j x).map f' = (l.map f).set j (f' x) := by
  apply List.ext_getElem?
  intro k
  rw [List.map_set, List.getElem?_set, List.getElem?_set, List.length_map, List.length_map]
  split
  · rfl
  · next hne =>
      rw [List.getElem?_map, List.getElem?_map]
      cases hk : l[k]? with
      | none => rfl
      | some a => exact congrArg some (h k a (Ne.symm hne) hk)

section Unwritten

variable {library : Library} {pick : Nat} {me : ThreadId} {w w' : World} {j : Nat}
  {c : ContextId} {place : WorkerPlace}

theorem World.view_station {α : Type} {f : Option HostPlace → α} {g : WorkerPlace → α}
    (hj : w.stations[j]? = some (c, place)) : w.crew.view f g (.worker j) = g place := by
  rw [World.stations, List.getElem?_map, Option.map_eq_some_iff] at hj
  obtain ⟨worker, hworker, hstation⟩ := hj
  rw [World.view_worker hworker]
  exact congrArg (fun station => g station.2) hstation

theorem MainLocked.unwritten_of_inMain (hm : MainLocked w) (h : w.inMain me = true) :
    w.unwritten = w.unwrittenBy me := by
  rw [World.unwritten, (hm.holder me).mp h]
  rfl

theorem World.unwritten_advance (hm : MainLocked w) (h : w.advance library pick me = some w')
    (hbefore : w.unwrittenBy me = []) (hafter : w'.unwrittenBy me = []) :
    w'.unwritten = w.unwritten := by
  obtain ⟨hmove, -⟩ := World.advance_main (hm.apt me) h
  have hsame : ∀ thread, w'.unwrittenBy thread = w.unwrittenBy thread := by
    intro thread
    by_cases hthread : thread = me
    · rw [hthread, hbefore, hafter]
    · exact (World.advance_stride h).view_eq hthread _ _
  cases hmove with
  | still hoff =>
      rw [World.unwritten, World.unwritten, hoff.holder]
      cases w.mainHolder? with
      | none => rfl
      | some thread => exact hsame thread
  | lock _ hfree hheld =>
      rw [World.unwritten, World.unwritten, hfree, hheld]
      exact hafter
  | unlock _ hin hfree =>
      rw [World.unwritten, World.unwritten, hfree, (hm.holder me).mp hin]
      exact hbefore.symm

end Unwritten

/-- A handle that a result owns is owned by the globals. -/
def Globals.Backs (g : Globals) (i : Identity) (results : List Value) : Prop :=
  g.owns i = 0 → ∀ v ∈ results, v.owns i = 0

/-- The code comes to an end without doing anything, and the globals back its results. -/
def Globals.BacksCode (g : Globals) (i : Identity) : Program (List Value) → Prop
  | .done results => g.Backs i results
  | .fail _ => True
  | .perform _ _ => False

/-- The context of a worker backs what the worker is going to return. -/
def WorkerPlace.Backed (g : Globals) (i : Identity) : WorkerPlace → Prop
  | .executing _ s place =>
    match place with
    | .publishing | .unlockingQueue | .preparing => s.task.call.Plain
    | .running activity =>
      activity.asking? = none ∧ activity.execution.frames = [] ∧
        g.BacksCode i activity.execution.code
    | .lockingMain outcome => g.Backs i outcome.results
    | _ => True
  | _ => True

def SubmitPlace.Plain (i : Identity) : SubmitPlace → Prop
  | .locking call | .reading call _ _ => call.Plain
  | .tagging call _ left _ _ => call.Plain ∧ left.owns i = 0
  | .unlocking task | .pushing task => task.call.Plain
  | .checking _ | .counting | .notifying | .starting _ => True

/-- The thread of the host asks for something in the main context, and not for another number of
workers. -/
def HostPlace.Asks (i : Identity) (main : ContextId) : HostPlace → Prop
  | .free _ => True
  | .asking a =>
    match a with
    | .submit source place => source = main ∧ place.Plain i
    | .resize .. => False
    | _ => True
  | _ => False

/-- A handle is owned at most once, wherever it is. -/
structure OwnedOnce (i : Identity) (w : World) : Prop where
  stock : w.stock i ≤ 1
  secluded : w.Secluded
  locked : MainLocked w
  queue : ∀ s ∈ w.queue, s.task.call.Plain
  hosts : ∀ place ∈ w.hosts, place.Asks i w.main
  stations : ∀ station ∈ w.stations, station.2.Backed (w.engine.globals station.1) i

section Moves

variable {i : Identity} {w w' : World} {j host : Nat} {c c' : ContextId}
  {place place' : WorkerPlace} {hostPlace hostPlace' : HostPlace}

theorem World.homes_eq_stations (w : World) : w.homes = w.main :: w.stations.map Prod.fst := by
  rw [World.homes, World.stations, List.map_map]
  rfl

theorem World.Secluded.station (hs : w.Secluded) (hj : w.stations[j]? = some (c, place)) :
    c < w.engine.contexts.length ∧ c ≠ w.main := by
  have hdistinct := hs.distinct
  have hknown := hs.known
  rw [World.homes_eq_stations] at hdistinct hknown
  have hmem : c ∈ w.stations.map Prod.fst := List.mem_map_of_mem (List.mem_of_getElem? hj)
  refine ⟨hknown c (List.mem_cons_of_mem _ hmem), ?_⟩
  rintro rfl
  exact (List.nodup_cons.mp hdistinct).1 hmem

theorem World.Secluded.station_ne (hs : w.Secluded) {k : Nat} {station : ContextId × WorkerPlace}
    (hj : w.stations[j]? = some (c, place)) (hk : w.stations[k]? = some station) (hne : k ≠ j) :
    station.1 ≠ c := by
  rintro rfl
  have hdistinct := hs.distinct
  rw [World.homes_eq_stations, List.nodup_cons] at hdistinct
  have hk' : (w.stations.map Prod.fst)[k]? = some station.1 := by rw [List.getElem?_map, hk]; rfl
  have hj' : (w.stations.map Prod.fst)[j]? = some station.1 := by rw [List.getElem?_map, hj]; rfl
  exact hne ((List.getElem?_inj (List.getElem?_eq_some_iff.mp hk').1 hdistinct.2).mp
    (hk'.trans hj'.symm))

theorem OwnedOnce.moveWorker (h : OwnedOnce i w) (hsecluded : w'.Secluded) (hlocked : MainLocked w')
    (hj : w.stations[j]? = some (c, place)) (hmain : w'.main = w.main) (hhosts : w'.hosts = w.hosts)
    (hstations : w'.stations = w.stations.set j (c', place'))
    (hglobals : ∀ d < w.engine.contexts.length, d ≠ c → d ≠ w.main →
      w'.engine.globals d = w.engine.globals d)
    (hqueue : ∀ s ∈ w'.queue, s.task.call.Plain)
    (hbacked : place'.Backed (w'.engine.globals c') i)
    (hbalance : w'.mainOwns i + w'.pendingOwns i + w'.engine.stationOwns i (c', place') ≤
      w.mainOwns i + w.pendingOwns i + w.engine.stationOwns i (c, place)) :
    OwnedOnce i w' := by
  have hothers : ∀ k station, k ≠ j → w.stations[k]? = some station →
      w'.engine.globals station.1 = w.engine.globals station.1 := by
    intro k station hne hk
    obtain ⟨hknown, hmain'⟩ := h.secluded.station hk
    exact hglobals _ hknown (h.secluded.station_ne hj hk hne) hmain'
  refine ⟨?_, hsecluded, hlocked, hqueue, ?_, ?_⟩
  · have hsum : (w'.stations.map (w'.engine.stationOwns i)).sum +
          w.engine.stationOwns i (c, place) =
        (w.stations.map (w.engine.stationOwns i)).sum + w'.engine.stationOwns i (c', place') := by
      rw [hstations, map_set_congr fun k station hne hk =>
        Engine.stationOwns_congr (hothers k station hne hk) i]
      exact sum_set_add (by rw [List.getElem?_map, hj]; rfl) _
    have hstock := h.stock
    unfold World.stock at hstock ⊢
    rw [hhosts]
    omega
  · rw [hhosts, hmain]
    exact h.hosts
  · rw [hstations]
    intro station hstation
    obtain ⟨k, hk⟩ := List.mem_iff_getElem?.mp hstation
    rw [List.getElem?_set] at hk
    split at hk
    · split at hk
      · cases hk
        exact hbacked
      · cases hk
    · next hne =>
        rw [hothers k station (Ne.symm hne) hk]
        exact h.stations station (List.mem_of_getElem? hk)

/-- A thread of the host moves on, and no more is owned by it, the main context and the queue than
before. -/
theorem OwnedOnce.moveHost (h : OwnedOnce i w) (hsecluded : w'.Secluded) (hlocked : MainLocked w')
    (hhost : w.hosts[host]? = some hostPlace) (hmain : w'.main = w.main)
    (hhosts : w'.hosts = w.hosts.set host hostPlace') (hstations : w'.stations = w.stations)
    (hglobals : ∀ d, d ≠ w.main → w'.engine.globals d = w.engine.globals d)
    (hqueue : ∀ s ∈ w'.queue, s.task.call.Plain) (hasks : hostPlace'.Asks i w.main)
    (hbalance : w'.mainOwns i + w'.pendingOwns i + hostPlace'.owns i ≤
      w.mainOwns i + w.pendingOwns i + hostPlace.owns i) :
    OwnedOnce i w' := by
  have hothers : ∀ station ∈ w.stations,
      w'.engine.globals station.1 = w.engine.globals station.1 := by
    intro station hstation
    obtain ⟨k, hk⟩ := List.mem_iff_getElem?.mp hstation
    exact hglobals _ (h.secluded.station hk).2
  refine ⟨?_, hsecluded, hlocked, hqueue, ?_, ?_⟩
  · have hsum : (w'.hosts.map (HostPlace.owns i)).sum + hostPlace.owns i =
        (w.hosts.map (HostPlace.owns i)).sum + hostPlace'.owns i := by
      rw [hhosts, List.map_set]
      exact sum_set_add (by rw [List.getElem?_map, hhost]; rfl) _
    have hsame : w'.stations.map (w'.engine.stationOwns i) =
        w.stations.map (w.engine.stationOwns i) := by
      rw [hstations]
      exact List.map_congr_left fun station hstation =>
        Engine.stationOwns_congr (hothers station hstation) i
    have hstock := h.stock
    unfold World.stock at hstock ⊢
    rw [hsame]
    omega
  · rw [hhosts, hmain]
    intro place hplace
    rcases List.mem_or_eq_of_mem_set hplace with hplace | rfl
    · exact h.hosts place hplace
    · exact hasks
  · rw [hstations]
    intro station hstation
    rw [hothers station hstation]
    exact h.stations station hstation

end Moves

end ScriptPool

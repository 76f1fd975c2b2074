import ScriptPool.Proofs.Bag.Arguments
import ScriptPool.Proofs.Pool.Conservation
import ScriptPool.Proofs.Pool.MainOrder

namespace ScriptPool

/-- What a capture has come to: it holds values that were shown, and each global of the call is
captured or still to come. -/
structure Snapshot.Gathers (shown : String → Value → Prop) (call : Call) (names : List String)
    (captured : Snapshot) : Prop where
  nodup : (captured.map Prod.fst).Nodup
  shown : ∀ name value, captured.get? name = some value → shown name value
  covers : ∀ name ∈ call.parameters, name ∈ names ∨ (captured.get? name).isSome = true

/-- How far the submission of a text has come with the capture. -/
def SubmitPlace.Gathers (text : String) (shown : String → Value → Prop) : SubmitPlace → Prop
  | .checking text' => text' = text
  | .locking call => Call.parse text = .ok call
  | .reading call names captured | .tagging call _ _ names captured =>
    Call.parse text = .ok call ∧ captured.Gathers shown call names
  | .unlocking task | .pushing task => ∃ call captured, Call.parse text = .ok call ∧
    task = .ofCaptured call captured ∧ captured.Gathers shown call []
  | .counting | .notifying | .starting _ => False

/-- Whether the capture of a submission goes on or is about to be pushed. -/
def SubmitPlace.isCapturing : SubmitPlace → Bool
  | .checking _ | .locking _ | .reading .. | .tagging .. | .unlocking _ | .pushing _ => true
  | .counting | .notifying | .starting _ => false

def SubmitPlace.text? : SubmitPlace → Option String
  | .checking text => some text
  | .locking _ | .reading .. | .tagging .. | .unlocking _ | .pushing _ | .counting | .notifying
  | .starting _ => none

def SubmitPlace.pushed? : SubmitPlace → Option Task
  | .pushing task => some task
  | .checking _ | .locking _ | .reading .. | .tagging .. | .unlocking _ | .counting | .notifying
  | .starting _ => none

/-- How far a thread has come with submitting a call from a context. -/
def World.submitting? (w : World) (thread : ThreadId) (source : ContextId) : Option SubmitPlace :=
  match w.asking? thread with
  | some (.submit c place) => if c = source then some place else none
  | _ => none

/-- Whether a thread submits a call from a context and has not pushed it yet. -/
def World.isCapturing (w : World) (thread : ThreadId) (source : ContextId) : Bool :=
  (w.submitting? thread source).any (·.isCapturing)

/-- The task that a worker starts with its next step. -/
def WorkerPlace.starts? : WorkerPlace → Option Submission
  | .executing _ s .preparing => some s
  | _ => none

/-- The global has this value in some world on the way. -/
def World.Shows (library : Library) (w : World) (moves : List Move) (c : ContextId) (name : String)
    (value : Value) : Prop :=
  ∃ before v, before <+: moves ∧ Run library w before v ∧ (v.engine.globals c).get name = value

/-- Nobody else sets globals in the context of the thread. -/
def World.LeftTo (library : Library) (w : World) (moves : List Move) (thread : ThreadId)
    (c : ContextId) : Prop :=
  ∀ before m v v', before ++ [m] <+: moves → Run library w before v →
    v.move? library m = some v' → (∀ pick, m ≠ .step pick thread) →
      v'.engine.globals c = v.engine.globals c

variable {library : Library} {pick : Nat} {me thread : ThreadId} {w w' v v' : World} {g now : Globals}
  {shown shown' : String → Value → Prop} {call : Call} {names : List String} {captured : Snapshot}
  {name text : String} {value : Value} {source : ContextId} {place place' : SubmitPlace}
  {moves : List Move} {m : Move} {i : Nat}

namespace Snapshot.Gathers

theorem start (call : Call) : Snapshot.Gathers shown call call.parameters [] :=
  ⟨List.nodup_nil, nofun, fun _ hname => .inl hname⟩

theorem mono (h : captured.Gathers shown call names)
    (hmono : ∀ name value, shown name value → shown' name value) :
    captured.Gathers shown' call names :=
  ⟨h.nodup, fun name value hvalue => hmono name value (h.shown name value hvalue), h.covers⟩

theorem skip (h : captured.Gathers shown call (name :: names))
    (hfound : (captured.get? name).isSome = true) : captured.Gathers shown call names := by
  refine ⟨h.nodup, h.shown, fun other hother => ?_⟩
  rcases h.covers other hother with hmem | hother
  · rcases List.mem_cons.mp hmem with rfl | hmem
    · exact .inr hfound
    · exact .inl hmem
  · exact .inr hother

theorem take (h : captured.Gathers shown call (name :: names))
    (hfresh : ¬ (captured.get? name).isSome = true) (hvalue : shown name value) :
    Snapshot.Gathers shown call names (captured ++ [(name, value)]) := by
  refine ⟨Snapshot.nodup_append h.nodup hfresh, fun other found hfound => ?_, fun other hother => ?_⟩
  · rw [Snapshot.get?_append] at hfound
    cases hother : captured.get? other with
    | some before =>
        rw [hother] at hfound
        cases hfound
        exact h.shown other _ hother
    | none =>
        rw [hother, Option.none_or] at hfound
        split at hfound
        · cases hfound
          next heq => exact heq ▸ hvalue
        · cases hfound
  · rw [Snapshot.get?_append]
    rcases h.covers other hother with hmem | hcaptured
    · rcases List.mem_cons.mp hmem with rfl | hmem
      · refine .inr ?_
        cases captured.get? other with
        | none | some => simp
      · exact .inl hmem
    · obtain ⟨before, hbefore⟩ := Option.isSome_iff_exists.mp hcaptured
      exact .inr (by rw [hbefore]; rfl)

theorem get?_eq (h : captured.Gathers shown call []) (hname : name ∈ call.parameters) :
    captured.get? name = some ((captured.get? name).getD .nil) ∧
      shown name ((captured.get? name).getD .nil) := by
  obtain ⟨value, hvalue⟩ := Option.isSome_iff_exists.mp
    ((h.covers name hname).resolve_left List.not_mem_nil)
  rw [hvalue]
  exact ⟨rfl, h.shown name value hvalue⟩

end Snapshot.Gathers

theorem SubmitPlace.Gathers.mono (h : place.Gathers text shown)
    (hmono : ∀ name value, shown name value → shown' name value) : place.Gathers text shown' := by
  cases place with
  | checking | locking => exact h
  | reading | tagging => exact ⟨h.1, h.2.mono hmono⟩
  | unlocking | pushing =>
      obtain ⟨call, captured, hparse, htask, hgathers⟩ := h
      exact ⟨call, captured, hparse, htask, hgathers.mono hmono⟩
  | counting | notifying | starting => exact h

theorem submitStep_gathers (h : submitStep source me w place = some (v, .going place'))
    (hplace : place.Gathers text shown) (hcapturing : place'.isCapturing = true)
    (hshown : ∀ name, shown name ((w.engine.globals source).get name)) :
    place'.Gathers text shown := by
  cases submitStep_goes h with
  | checked _ hparse =>
      obtain rfl : _ = text := hplace
      exact hparse
  | @checkedApart _ call _ hparse =>
      obtain rfl : _ = text := hplace
      exact ⟨hparse, .start call⟩
  | locked call => exact ⟨hplace, .start call⟩
  | found call hfound => exact ⟨hplace.1, hplace.2.skip hfound⟩
  | copied call hnew | moved call hnew =>
      rw [captureGlobal_eq]
      exact ⟨hplace.1, hplace.2.take hnew (hshown _)⟩
  | tagged | unlocked => exact hplace
  | read call captured | readApart call captured =>
      exact ⟨call, captured, hplace.1, rfl, hplace.2⟩
  | pushed => cases hcapturing
  | counted | notified | start => cases hplace

theorem SubmitPlace.text?_eq_some_iff : place.text? = some text ↔ place = .checking text := by
  cases place with
  | checking | locking | reading | tagging | unlocking | pushing | counting | notifying
  | starting => simp [text?]

theorem SubmitPlace.pushed?_eq_some_iff {task : Task} :
    place.pushed? = some task ↔ place = .pushing task := by
  cases place with
  | checking | locking | reading | tagging | unlocking | pushing | counting | notifying
  | starting => simp [pushed?]

theorem World.submitting?_eq_some_iff : w.submitting? thread source = some place ↔
    w.asking? thread = some (.submit source place) := by
  unfold World.submitting?
  constructor
  · intro h
    split at h
    · next c place' hask =>
        split at h
        · cases h
          next hc => rw [hask, hc]
        · cases h
    · cases h
  · intro hask
    simp [hask]

theorem World.submits_unique (h : w.asking? thread = some (.submit source place))
    (h' : w.asking? thread = some (.submit source place')) : place = place' := by
  rw [h] at h'
  cases h'
  rfl

theorem World.isCapturing_iff : w.isCapturing thread source = true ↔
    ∃ place, w.asking? thread = some (.submit source place) ∧ place.isCapturing = true := by
  simp only [isCapturing, Option.any_eq_true, submitting?_eq_some_iff]

theorem World.move?_capturing (h : w.move? library m = some w')
    (hask : w.asking? thread = some (.submit source place))
    (hcapturing : w'.isCapturing thread source = true) :
    (∃ pick place' v, m = .step pick thread ∧ w'.asking? thread = some (.submit source place') ∧
      submitStep source thread w place = some (v, .going place') ∧ w'.engine = v.engine) ∨
    ((∀ pick, m ≠ .step pick thread) ∧ w'.asking? thread = w.asking? thread) := by
  obtain ⟨place', hask', -⟩ := World.isCapturing_iff.mp hcapturing
  have hsame (hstir : Stir w w') : w'.asking? thread = w.asking? thread := by
    rcases hstir.asking thread with hsame | ⟨hnone, -⟩
    · exact hsame
    · rw [hask] at hnone
      cases hnone
  cases m with
  | step pick me =>
      by_cases hme : thread = me
      · subst hme
        obtain ⟨v, stage, hs, -, -, hstage⟩ := World.advance_asking hask h
        rw [hask'] at hstage
        cases stage with
        | «over» => cases hstage
        | going a =>
            obtain rfl : .submit source place' = a := Option.some.inj hstage
            obtain ⟨place₀, heq, hsubmit⟩ := askingStep_submit hs
            cases heq
            exact .inl ⟨pick, place', v, rfl, hask', hsubmit, (World.advance_request hask h hs).1⟩
      · exact .inr ⟨fun pick' heq => hme (Move.step.inj heq).2.symm,
          (World.advance_stride h).asking?_of_ne hme⟩
  | begin | addContext | setGlobal | openGate | openAllGates | setBudget =>
      refine .inr ⟨nofun, hsame ?_⟩
      rcases World.move?_stride h with ⟨_, _, hstep, -⟩ | hstir
      · cases hstep
      · exact hstir

theorem World.Shows.mono {moves' : List Move} {c : ContextId} (h : w.Shows library moves c name value)
    (hshorter : moves <+: moves') : w.Shows library moves' c name value := by
  obtain ⟨before, v, hbefore, hrun, hvalue⟩ := h
  exact ⟨before, v, hbefore.trans hshorter, hrun, hvalue⟩

theorem World.LeftTo.of_prefix {moves' : List Move} (h : w.LeftTo library moves' thread source)
    (hshorter : moves <+: moves') : w.LeftTo library moves thread source :=
  fun before m u u' hbefore => h before m u u' (hbefore.trans hshorter)

theorem Run.gathers (h : Run library w moves v)
    (hasked : w.asking? thread = some (.submit source (.checking text)))
    (hcapturing : w.throughout library (·.isCapturing thread source) moves = true) :
    ∃ place, v.asking? thread = some (.submit source place) ∧
      place.Gathers text (w.Shows library moves source) := by
  induction h with
  | start => exact ⟨_, hasked, rfl⟩
  | @move moves u v h m hm ih =>
      obtain ⟨place, hask, hgathers⟩ := ih (World.throughout_left hcapturing)
      have hlonger : moves <+: moves ++ [m] := List.prefix_append _ _
      have hgathers' := hgathers.mono fun name value hshown => World.Shows.mono hshown hlonger
      have hv : v.isCapturing thread source = true :=
        (h.move m hm).of_throughout (List.prefix_refl _) hcapturing
      rcases World.move?_capturing hm hask hv with ⟨pick, place', t, -, hask', hs, -⟩ | ⟨-, hsame⟩
      · obtain ⟨place'', hask'', hcapturing'⟩ := World.isCapturing_iff.mp hv
        obtain rfl := World.submits_unique hask' hask''
        exact ⟨place', hask', submitStep_gathers hs hgathers' hcapturing' fun name =>
          ⟨moves, u, hlonger, h, rfl⟩⟩
      · exact ⟨place, hsame ▸ hask, hgathers'⟩

theorem World.Enclosed.submits (he : w.Enclosed)
    (hask : w.asking? thread = some (.submit source place)) :
    (∃ host, thread = .host host ∧ source ∈ w.hostContexts) ∨
      ∃ i worker, thread = .worker i ∧ w.workers[i]? = some worker ∧ worker.context = source := by
  cases thread with
  | host host =>
      have hview := hask
      rw [World.asking?_eq_view] at hview
      obtain ⟨p, hp, ha⟩ := Option.bind_eq_some_iff.mp hview
      have hworks := he.hosts host p hp
      cases p with
      | asking a =>
          cases ha
          exact .inl ⟨host, rfl, hworks⟩
      | running activity => exact .inl ⟨host, rfl, hworks.2 _ ha⟩
      | free | opening | closing | measuring => cases ha
  | worker i =>
      unfold World.asking? at hask
      dsimp only at hask
      split at hask
      · next worker hworker =>
          have hworks := he.workers i _ hworker
          exact .inr ⟨i, _, rfl, hworker, (hworks.2 _ hask).symm⟩
      · cases hask

theorem World.Enclosed.submits_known (he : w.Enclosed) (hs : w.Secluded)
    (hask : w.asking? thread = some (.submit source place)) :
    source < w.engine.contexts.length := by
  rcases he.submits hask with ⟨host, -, hmem⟩ | ⟨i, worker, -, hworker, rfl⟩
  · exact he.known _ hmem
  · exact (hs.worker hworker).1

/-- If nobody else sets globals in the context meanwhile, the captured ones are those that it had at
first. -/
theorem Run.captures (hs : w.Secluded) (he : w.Enclosed) (hm : MainLocked w)
    (h : Run library w moves v)
    (hasked : w.asking? thread = some (.submit source (.checking text)))
    (hcapturing : w.throughout library (·.isCapturing thread source) moves = true)
    (hleft : w.LeftTo library moves thread source) :
    ∃ place, v.asking? thread = some (.submit source place) ∧
      place.Captures (w.engine.globals source) (v.engine.globals source) := by
  induction h with
  | start => exact ⟨_, hasked, rfl⟩
  | @move moves u v h m hmove ih =>
      have hbefore : moves <+: moves ++ [m] := List.prefix_append _ _
      obtain ⟨place, hask, hcaptures⟩ :=
        ih (World.throughout_left hcapturing) (hleft.of_prefix hbefore)
      have hv : v.isCapturing thread source = true :=
        (h.move m hmove).of_throughout (List.prefix_refl _) hcapturing
      rcases World.move?_capturing hmove hask hv with
        ⟨pick, place', t, -, hask', hstep, hengine⟩ | ⟨hother, hsame⟩
      · have hknown := (World.Enclosed.run he hs hm h).submits_known (hs.run h) hask
        refine ⟨place', hask', ?_⟩
        rw [hengine]
        exact submitStep_captures hknown hstep hcaptures
      · refine ⟨place, hsame ▸ hask, ?_⟩
        rw [hleft moves m u v (List.prefix_refl _) h hmove hother]
        exact hcaptures

theorem World.leftTo_worker (hs : w.Secluded) (he : w.Enclosed) (hm : MainLocked w)
    (hcapturing : w.throughout library (·.isCapturing (.worker i) source) moves = true) :
    w.LeftTo library moves (.worker i) source := by
  intro before m u u' hbefore hrun hmove hother
  have hu : u.isCapturing (.worker i) source = true :=
    hrun.of_throughout ((List.prefix_append _ _).trans hbefore) hcapturing
  obtain ⟨place, hask, -⟩ := World.isCapturing_iff.mp hu
  have henclosed := World.Enclosed.run he hs hm hrun
  rcases henclosed.submits hask with ⟨host, heq, -⟩ | ⟨j, worker, heq, hworker, rfl⟩
  · cases heq
  · cases heq
    exact henclosed.move?_globals (hs.run hrun) hworker hmove hother

/-- A worker that is about to start the task with the ticket invokes the function with the
arguments. -/
def World.HandsOver (library : Library) (w : World) (ticket : Nat) (function : String)
    (arguments : List Value) : Prop :=
  ∀ (i pick : Nat) (worker : Worker) (s : Submission), w.workers[i]? = some worker →
    worker.place.starts? = some s → s.ticket = ticket →
      ∃ w' worker' once, w.advance library pick (.worker i) = some w' ∧
        w'.workers[i]? = some worker' ∧ worker'.place = .executing once s
          (.running ⟨.invoke library worker.context function arguments, none⟩)

theorem WorkerPlace.starts?_eq_some_iff {p : WorkerPlace} {s : Submission} :
    p.starts? = some s ↔ ∃ once, p = .executing once s .preparing := by
  cases p with
  | executing once s' place =>
      cases place with
      | publishing | unlockingQueue | preparing | running | lockingMain | writing
      | unlockingMain | counting | countingTotal | replacing | clearing | notifying =>
          simp [starts?]
  | _ => simp [starts?]

variable {engine : Engine} {main : ContextId} {poolSize others : Nat} {before after : List Move}
  {task : Task}

theorem Run.executes_pushed (h : Run library (World.initial engine main poolSize others) before w)
    (hask : w.asking? thread = some (.submit source (.pushing task)))
    (hafter : Run library w (.step pick thread :: after) w') {s : Submission} {started : Bool}
    (hcare : w'.scene.care? i = some (s, started)) (hticket : s.ticket = w.tickets) :
    s = ⟨w.tickets, task⟩ := by
  have hk := (h.trans hafter).kept
  obtain ⟨u, hu, -⟩ := Run.cons_iff.mp hafter
  have hpushed : .pushed ⟨w.tickets, task⟩ ∈ (World.initial engine main poolSize others).deeds
      library (before ++ .step pick thread :: after) := by
    rw [World.deeds, h.notes_append]
    apply List.mem_append_right
    simp [World.notes, Move.thread?, World.deed?, hask]
  obtain ⟨rest, hlife⟩ := hk.care_life hcare
  have hlogged : .pushed s ∈ (World.initial engine main poolSize others).deeds library
      (before ++ .step pick thread :: after) := by
    apply List.mem_of_mem_filter
    rw [← life, hlife]
    exact List.mem_cons_self
  -- No two pushes have a ticket in common.
  have hnodup : ((pushes ((World.initial engine main poolSize others).deeds library
      (before ++ .step pick thread :: after))).map (·.ticket)).Nodup := by
    rw [hk.tickets]
    exact List.nodup_range
  exact List.inj_on_of_nodup_map hnodup (mem_pushes.mpr hlogged) (mem_pushes.mpr hpushed) hticket

/-- The arguments of a task depend on its call and on the globals of the submitting context alone.

A captured call gets the literals of its text and the values of the globals that it names, with the
tags of their handles, whatever the executing context has under these names. The capture leaves the
globals as they are but tags handles in those that the call names, and writes no others.

In a run, a call is submitted and pushed, and anything can happen afterwards. Each global that it names
is captured with a value that the source has during the submission. It is the one at its beginning if
the call is submitted by a worker, or if nobody else sets globals in the source during the submission.
Whichever worker starts the task invokes the function with the captured values. -/
theorem task_arguments (library : Library) (engine : Engine) (main : ContextId)
    (hmain : main < engine.contexts.length) (poolSize others : Nat) :
    (∀ (call : Call) (g own : Globals),
      (Task.capture call g).1.argumentValues ((Task.capture call g).1.loadSnapshot own) =
        call.argumentsBy g.get ∧
      (∀ name, (Task.capture call g).2.get? name =
        if name ∈ call.parameters then (g.get? name).map Value.relinquished else g.get? name) ∧
      ∃ pairs, (Task.capture call g).2 = g.setAll pairs ∧ g.Tags call.parameters pairs) ∧
    ∀ (before during after : List Move) (w₀ w₁ w₂ : World) (thread : ThreadId) (source : ContextId)
      (text : String) (task : Task) (pick : Nat),
      Run library (World.initial engine main poolSize others) before w₀ →
      w₀.asking? thread = some (.submit source (.checking text)) →
      Run library w₀ during w₁ →
      w₀.throughout library (·.isCapturing thread source) during = true →
      w₁.asking? thread = some (.submit source (.pushing task)) →
      Run library w₁ (.step pick thread :: after) w₂ →
      ∃ (call : Call) (valueOf : String → Value), Call.parse text = .ok call ∧
        (∀ name ∈ call.parameters, w₀.Shows library during source name (valueOf name)) ∧
        ((∃ i, thread = .worker i) ∨ w₀.LeftTo library during thread source →
          (∀ name ∈ call.parameters, valueOf name = (w₀.engine.globals source).get name) ∧
          w₁.engine.globals source = (Task.capture call (w₀.engine.globals source)).2) ∧
        w₂.HandsOver library w₁.tickets call.function (call.argumentsBy valueOf) := by
  refine ⟨fun call g own => ⟨Task.arguments_capture call g own, Task.get?_left call g,
    Task.left_eq_setAll call g⟩, ?_⟩
  intro before during after w₀ w₁ w₂ thread source text task pick h₀ hasked h₁ hcapturing hpush h₂
  have hm := (MainLocked.initial engine main poolSize others).run h₀
  have hs := (World.Secluded.initial hmain poolSize others).run h₀
  have he := World.Enclosed.run (World.Enclosed.initial hmain poolSize others)
    (World.Secluded.initial hmain poolSize others) (MainLocked.initial engine main poolSize others) h₀
  obtain ⟨place, hask, hgathers⟩ := h₁.gathers hasked hcapturing
  obtain rfl := World.submits_unique hpush hask
  obtain ⟨call, captured, hparse, rfl, hgathers⟩ := hgathers
  refine ⟨call, fun name => (captured.get? name).getD .nil, hparse,
    fun name hname => (hgathers.get?_eq hname).2, fun halone => ?_, ?_⟩
  · have hleft : w₀.LeftTo library during thread source := by
      rcases halone with ⟨i, rfl⟩ | hleft
      · exact World.leftTo_worker hs he hm hcapturing
      · exact hleft
    obtain ⟨place, hask, hcaptures⟩ := h₁.captures hs he hm hasked hcapturing hleft
    obtain rfl := World.submits_unique hpush hask
    have hcapture : Task.capture call (w₀.engine.globals source) =
      (.ofCaptured call captured, w₁.engine.globals source) := hcaptures
    refine ⟨fun name hname => ?_, congrArg Prod.snd hcapture.symm⟩
    have hvalue := Task.get?_capture hname (w₀.engine.globals source)
    rw [hcapture, Task.snapshot?_ofCaptured hname, Value.transfer_fst] at hvalue
    exact congrArg (Option.getD · .nil) hvalue
  · intro i pick' worker s hworker hstarts hticket
    obtain ⟨once, hplace⟩ := WorkerPlace.starts?_eq_some_iff.mp hstarts
    have hcare := World.care_eq hworker hplace rfl
    obtain rfl := (h₀.trans h₁).executes_pushed hpush h₂ hcare hticket
    obtain ⟨w', worker', hadvance, hworker', hplace'⟩ :=
      World.advance_preparing library pick' hworker hplace
    rw [Task.argumentValues_ofCaptured hgathers.nodup fun name hname => (hgathers.get?_eq hname).1]
      at hplace'
    exact ⟨w', worker', once, hadvance, hworker', hplace'⟩

/-- A call that names a global twice. -/
def twiceText : String := "y = f(x, nil, x)"

/-- The global is set, and the call is about to be submitted. -/
def twiceBegun : List Move :=
  [List.replicate 4 (.step 0 (.host 0)),
    [.setGlobal 0 "x" (.boolean true), .begin 0 (.ask 0 (.parallel twiceText))]].flatten

/-- The call is captured. -/
def twiceCaptured : List Move :=
  List.replicate 6 (.step 0 (.host 0))

/-- It is pushed, the global is set again, and the worker takes the task. -/
def twiceTaken : List Move :=
  [List.replicate 6 (.step 0 (.host 0)), [.setGlobal 0 "x" (.boolean false)],
    List.replicate 8 (.step 0 (.worker 0))].flatten

theorem Value.eq_boolean {b : Bool} (h : value.asBoolean? = some b) : value = .boolean b := by
  cases value with
  | nil | number | string | lightRef | table | handle => cases h
  | boolean =>
      cases h
      rfl

/-- The worker hands over the value from the time of the submission at both positions. -/
theorem task_arguments_twice : ∃ (w w' : World) (worker worker' : Worker) (once : Bool)
    (s : Submission), Run soloLibrary soloStart (twiceBegun ++ twiceCaptured ++ twiceTaken) w ∧
    (w.engine.globals 0).get "x" = .boolean false ∧ w.workers[0]? = some worker ∧
    w.advance soloLibrary 0 (.worker 0) = some w' ∧ w'.workers[0]? = some worker' ∧
    worker'.place = .executing once s (.running ⟨.invoke soloLibrary worker.context "f"
      [.boolean true, .nil, .boolean true], none⟩) := by
  have hruns : (soloStart.follow soloLibrary twiceBegun).any (fun w₀ =>
      ((w₀.engine.globals 0).get "x").asBoolean? = some true &&
      w₀.throughout soloLibrary (·.isCapturing (.host 0) 0) twiceCaptured &&
      ((w₀.submitting? (.host 0) 0).bind SubmitPlace.text?).any (· = twiceText) &&
      (w₀.follow soloLibrary twiceCaptured).any fun w₁ =>
        ((w₁.submitting? (.host 0) 0).bind SubmitPlace.pushed?).isSome &&
        (w₁.follow soloLibrary twiceTaken).any fun w₂ =>
          ((w₂.engine.globals 0).get "x").asBoolean? = some false &&
          w₂.workers[0]?.any fun worker => worker.place.starts?.any (·.ticket = w₁.tickets)) = true := by
    decide +kernel
  simp only [Option.any_eq_true, Bool.and_eq_true, decide_eq_true_eq, Option.bind_eq_some_iff,
    Option.isSome_iff_exists, World.submitting?_eq_some_iff, SubmitPlace.text?_eq_some_iff,
    SubmitPlace.pushed?_eq_some_iff] at hruns
  obtain ⟨w₀, hw₀, ⟨⟨hx, hcapturing⟩, _, ⟨_, ha, rfl⟩, rfl⟩, w₁, hw₁, ⟨task, _, ha', rfl⟩, w₂, hw₂, hx',
    worker, hworker, s, hstarts, hticket⟩ := hruns
  have h₀ := run_iff_follow.mpr hw₀
  have h₁ := run_iff_follow.mpr hw₁
  have h₂ := run_iff_follow.mpr hw₂
  have hleft : w₀.LeftTo soloLibrary twiceCaptured (.host 0) 0 := by
    intro before m v v' hshorter _ _ hother
    have hm : m ∈ twiceCaptured := hshorter.subset (List.mem_append_right _ (List.mem_singleton_self m))
    exact absurd (List.eq_of_mem_replicate hm) (hother 0)
  obtain ⟨call, valueOf, hparse, -, hexact, hover⟩ := (task_arguments soloLibrary
    (Engine.initial "solo" none).createContext.2 0 (by decide +kernel) 1 0).2 twiceBegun twiceCaptured
    _ w₀ w₁ w₂ (.host 0) 0 twiceText task 0 h₀ ha h₁ hcapturing ha' h₂
  have htokens : tokens twiceText = .ok [.name "y", .equals, .name "f", .opening, .name "x", .comma,
      .nil, .comma, .name "x", .closing] := by
    decide +kernel
  have hcall : Call.parse twiceText = .ok ⟨String.ofList (Text.trim twiceText.toList), "f",
      [.global "x", .literal .nil, .global "x"], ["y"]⟩ := by
    rw [Call.parse, Call.read, htokens]
    rfl
  rw [hcall] at hparse
  cases hparse
  have hvalue : valueOf "x" = .boolean true := by
    rw [(hexact (.inr hleft)).1 "x" List.mem_cons_self]
    exact Value.eq_boolean hx
  obtain ⟨w', worker', once, hadvance, hworker', hplace'⟩ := hover 0 0 worker s hworker hstarts hticket
  refine ⟨w₂, w', worker, worker', once, s, (h₀.trans h₁).trans h₂, Value.eq_boolean hx', hworker,
    hadvance, hworker', ?_⟩
  rw [hplace', ← hvalue]
  rfl

end ScriptPool

import ScriptPool.Proofs.Pool.BatchRun

namespace ScriptPool

variable {b : Batch} {library : Library} {engine : Engine} {poolSize : Nat} {moves : List Move}
  {w : World} {texts : List String} {deeds : List Deed} {s : Submission} {name : String}

theorem filter_pairs
    (h : ∀ s' name' value, .wrote s' name' value ∈ deeds → name' = name → s'.ticket = s.ticket) :
    (deeds.filterMap Deed.pair?).filter (·.1 = name) = (writes s deeds).filter (·.1 = name) := by
  induction deeds with
  | nil => rfl
  | cons d deeds ih =>
      have ih := ih fun s' name' value hd => h s' name' value (List.mem_cons_of_mem _ hd)
      rw [writes] at ih ⊢
      cases d with
      | pushed | claimed | started | finished => exact ih
      | wrote s' name' value =>
          by_cases hname : name' = name
          · have hsame : s'.ticket = s.ticket := h s' name' value List.mem_cons_self hname
            simp [Deed.pair?, Deed.write?, hname, hsame, ih]
          · by_cases hsame : s'.ticket = s.ticket
            · simp [Deed.pair?, Deed.write?, hname, hsame, ih]
            · simp [Deed.pair?, Deed.write?, hname, hsame, ih]

theorem Run.last_call {main : ContextId} {source : ContextId} {r : Request} {calls : List HostCall}
    (h : Run library (World.initial engine main poolSize 0) moves w)
    (hcalls : callsBegun moves = calls ++ [.ask source r]) :
    ∃ before during w₀, moves = before ++ during ∧
      Run library (World.initial engine main poolSize 0) before w₀ ∧ Run library w₀ during w ∧
      w₀.asking? (.host 0) = some (r.begin source) := by
  obtain ⟨before, rest, rfl, -, hrest⟩ := List.filterMap_eq_append_iff.mp hcalls
  obtain ⟨skipped, m, during, rfl, -, hm, -⟩ := List.filterMap_eq_cons_iff.mp hrest
  rw [← List.append_assoc] at h
  obtain ⟨v, hv, hmoves⟩ := h.split
  obtain ⟨w₀, hmove, hduring⟩ := Run.cons_iff.mp hmoves
  refine ⟨before ++ skipped ++ [m], during, w₀, by simp, hv.move m hmove, hduring, ?_⟩
  cases m with
  | step | addContext | setGlobal | openGate | openAllGates | setBudget => cases hm
  | begin host call =>
      cases hm
      obtain ⟨hbegin, rfl⟩ := World.move?_begin_iff.mp hmove
      obtain ⟨last?, hfree⟩ := World.free_of_canBegin hbegin
      have hlt := (List.getElem?_eq_some_iff.mp hfree).1
      have hlength := hv.hosts_length
      have hzero : host = 0 := by omega
      subst hzero
      simp only [World.asking?, World.begin, World.placeHost, World.host?, HostCall.place]
      rw [List.getElem?_set_self hlt]

namespace Batch

section Joined

variable (hsound : b.Sound) (hmain : b.main < engine.contexts.length)
    (hstart : engine.globals b.main = b.start)
    (htexts : List.Forall₂ (fun text call => Call.parse text = .ok call) texts b.calls)
    (h : Run b.library (World.initial engine b.main poolSize 0) moves w)
    (hscript : callsBegun moves = batchScript b.main texts)
    (hkeeps : ∀ m ∈ moves, m.keepsGlobals = true)
    (hreturn : w.returnsFromJoinAll (.host 0) = true)

include hsound hmain hstart htexts h hscript hkeeps hreturn

theorem written_of_joinAll {ticket : Nat} {call : Call}
    (hcall : b.calls[ticket]? = some call) :
    ∃ s : Submission, s.ticket = ticket ∧
      writes s ((World.initial engine b.main poolSize 0).deeds b.library moves) =
        call.writesIn (b.answer call.function) b.start := by
  obtain ⟨⟨hengaged, place, hhosts, hplace⟩, hpool⟩ :=
    Underway.of_run hsound hmain hstart htexts h (hscript ▸ List.prefix_refl _) hkeeps
  obtain ⟨before, during, w₀, rfl, h₀, h₁, hask₀⟩ := h.last_call hscript
  have henter : w₀.entersJoinAll (.host 0) = true := World.entersJoinAll_iff.mpr hask₀
  obtain ⟨hquiet, hqueue⟩ := h₀.joinAll_quiet h₁ henter hreturn hpool
  have hask := World.confirming_of_returnsFromJoinAll hreturn
  have htickets : w.tickets = b.calls.length := by
    have hhost : w.host? 0 = some place := by rw [World.host?, hhosts]; rfl
    simp only [World.asking?, hhost] at hask
    cases place with
    | asking asking =>
        cases hask
        rcases hplace.2 with hall | ⟨hchecking, -⟩
        · exact hall
        · cases hchecking
    | running => cases hplace
    | free | opening | closing | measuring => cases hask
  have hlt : ticket < w.tickets := htickets ▸ (List.getElem?_eq_some_iff.mp hcall).1
  obtain ⟨s, hpushed, rfl⟩ := hengaged.complete ticket hlt
  have hfits : b.Fits s := hengaged.allowed _ hpushed
  obtain rfl : s.task.call = call := Option.some.inj (hfits.call.symm.trans hcall)
  refine ⟨s, rfl, ?_⟩
  cases h.accounted.account hpushed with
  | queued hin =>
      rw [hqueue] at hin
      cases hin
  | held hhand hheld hp => exact absurd (Account.holds hhand hheld hp) (Hand.Resting.not_holds
      (fun hand hhand => hquiet hhand))
  | done hdone =>
      obtain ⟨_, outcome, hfinished, hwrites⟩ := hdone
      obtain ⟨-, hforesees⟩ := hengaged.allowed _ hfinished
      rw [hwrites hforesees.healthy, hforesees.results]
      rfl

theorem globals_of_joinAll (name : String) :
    w.engine.get? b.main name =
      (b.start.setAll (writesOf b.answer b.start b.calls)).get? name := by
  obtain ⟨⟨hengaged, -⟩, -⟩ :=
    Underway.of_run hsound hmain hstart htexts h (hscript ▸ List.prefix_refl _) hkeeps
  rw [Engine.get?, hengaged.globals name]
  apply Globals.get?_setAll_of_filter_eq
  by_cases hname : ∃ call ∈ b.calls, name ∈ call.returns
  · obtain ⟨call, hmem, hname⟩ := hname
    obtain ⟨ticket, hcall⟩ := List.mem_iff_getElem?.mp hmem
    obtain ⟨s, rfl, hwrites⟩ :=
      written_of_joinAll hsound hmain hstart htexts h hscript hkeeps hreturn hcall
    rw [filter_writesOf hsound.apart hmem hname, ← hwrites]
    apply filter_pairs
    rintro s' _ value hwrote rfl
    obtain ⟨hfits, hreturns⟩ := hengaged.allowed _ hwrote
    by_contra hne
    exact (apart_of_getElem? hsound hne hfits.call hcall).returns _ hreturns hname
  · have hnone : ∀ call ∈ b.calls, name ∉ call.returns := by
      intro call hmem hreturns
      exact hname ⟨call, hmem, hreturns⟩
    rw [filter_writesOf_of_not_mem hnone, List.filter_eq_nil_iff]
    intro pair hpair heq
    obtain ⟨d, hd, hpair⟩ := List.mem_filterMap.mp hpair
    cases d with
    | pushed | claimed | started | finished => cases hpair
    | wrote s name' value =>
        cases hpair
        obtain ⟨hfits, hreturns⟩ := hengaged.allowed _ hd
        have hsame : name' = name := of_decide_eq_true heq
        exact hnone _ (List.mem_of_getElem? hfits.call) (hsame ▸ hreturns)

end Joined

end Batch

/-- A deferred batch equals the calls executed one after another. Whatever the workers do in which
order, when the join returns the main context is as if the calls had been on the lines of a chunk
that was loaded there. The functions may do anything but write globals and submit calls. -/
theorem batch_eq_inline (library : Library) (engine : Engine) (main : ContextId) (poolSize : Nat)
    (texts : List String) (calls : List Call) (answer : String → List Value → List Value)
    (moves : List Move) (w : World) (hmain : main < engine.contexts.length)
    (hplain : (engine.globals main).Plain) (hlines : List.Forall₂ Call.IsLine texts calls)
    (hapart : calls.Pairwise Call.Apart)
    (hanswers : ∀ call ∈ calls, library.Answers call.function (answer call.function))
    (h : Run library (World.initial engine main poolSize 0) moves w)
    (hscript : callsBegun moves = batchScript main texts)
    (hkeeps : ∀ m ∈ moves, m.keepsGlobals = true)
    (hreturn : w.returnsFromJoinAll (.host 0) = true) :
    ∀ (e : Engine) (chunk : String) {σ : Type} (respond : RuntimeId → Request → σ → Reply × σ)
      (s : σ), main < e.contexts.length → e.globals main = engine.globals main →
      e.board.isOpenHouse = true →
      ∃ fuel e' s',
        Execution.run library respond fuel (.load main chunk ("\n".intercalate texts)) e s =
          some (.returned (.completed []), e', s') ∧
        ∀ name, e'.get? main name = w.engine.get? main name := by
  intro e chunk σ respond s hknown hsame hopen
  have htexts : List.Forall₂ (fun text call => Call.parse text = .ok call) texts calls :=
    hlines.imp fun _ _ hline => hline.parses
  have hanswered : ∀ call ∈ calls, call.Answered library answer := by
    intro call hcall
    obtain ⟨i, hi, rfl⟩ := List.mem_iff_getElem.mp hcall
    have hline := hlines.get (hlines.length_eq ▸ hi) hi
    exact ⟨Call.plain_of_parse hline.parses, hanswers _ hcall⟩
  obtain ⟨fuel, e', s', hrun, hglobals⟩ :=
    load_calls hlines hanswered hknown (hsame ▸ hplain) hopen chunk respond s
  refine ⟨fuel, e', s', hrun, fun name => ?_⟩
  let b : Batch := ⟨library, main, engine.globals main, calls, answer⟩
  have hsound : b.Sound := ⟨hplain, hanswered, hapart⟩
  rw [Batch.globals_of_joinAll (b := b) hsound hmain rfl htexts h hscript hkeeps hreturn name,
    Engine.get?, hglobals, hsame]
  exact Globals.afterCalls_get? hapart (fun _ _ _ _ => rfl) name

def turns (schedule : List (ThreadId × Nat)) : List Move :=
  schedule.flatMap fun turn => List.replicate turn.2 (.step 0 turn.1)

def pairLibrary : Library :=
  ⟨[("f", constantFunction [.boolean true]), ("g", fun _ arguments => .done arguments)]⟩

def pairEngine : Engine :=
  (Engine.initial "pair" none).createContext.2.set 0 "a" (.boolean false)

/-- Two calls are submitted before the worker executes them. -/
def pairMoves : List Move :=
  turns [(.host 0, 4)] ++ [.begin 0 (.ask 0 (.parallel "x = f()"))] ++ turns [(.host 0, 12)] ++
    [.begin 0 (.ask 0 (.parallel "y = g(a)"))] ++ turns [(.host 0, 12)] ++
    [.begin 0 (.ask 0 .joinAll)] ++ turns [(.worker 0, 34), (.host 0, 10)]

def pairCalls : List Call :=
  [⟨"x = f()", "f", [], ["x"]⟩, ⟨"y = g(a)", "g", [.global "a"], ["y"]⟩]

def pairAnswer (function : String) (arguments : List Value) : List Value :=
  if function = "f" then [.boolean true] else arguments

theorem pairCalls_lines : List.Forall₂ Call.IsLine ["x = f()", "y = g(a)"] pairCalls := by
  have hf : tokens "x = f()" = .ok [.name "x", .equals, .name "f", .opening, .closing] := by
    with_unfolding_all rfl
  have hg : tokens "y = g(a)" =
      .ok [.name "y", .equals, .name "g", .opening, .name "a", .closing] := by
    with_unfolding_all rfl
  refine .cons ⟨by decide, by with_unfolding_all rfl, ?_⟩
    (.cons ⟨by decide, by with_unfolding_all rfl, ?_⟩ .nil)
  · rw [hf]
    rintro _ ⟨⟩
    decide
  · rw [hg]
    rintro _ ⟨⟩
    decide

theorem pairCalls_answers :
    ∀ call ∈ pairCalls, pairLibrary.Answers call.function (pairAnswer call.function) := by
  intro call hcall
  rcases List.mem_pair.mp hcall with rfl | rfl
  · refine ⟨_, rfl, fun arguments _ => ⟨fun g => .done _, ?_⟩⟩
    intro v hv
    rw [List.mem_singleton.mp hv]
    rfl
  · exact ⟨_, rfl, fun arguments harguments => ⟨fun g => .done _, harguments⟩⟩

/-- Two deferred calls come to the same as the two lines. -/
theorem batch_eq_inline_pair : ∃ w fuel e' s',
    Run pairLibrary (World.initial pairEngine 0 1 0) pairMoves w ∧
    (w.engine.get? 0 "y").isSome = true ∧
    Execution.run pairLibrary (fun _ _ s => (.ok 0, s)) fuel
      (.load 0 "batch" ("\n".intercalate ["x = f()", "y = g(a)"])) pairEngine.openAllGates () =
        some (.returned (.completed []), e', s') ∧
    ∀ name, e'.get? 0 name = w.engine.get? 0 name := by
  have hruns : ((World.initial pairEngine 0 1 0).follow pairLibrary pairMoves).any (fun w =>
      w.returnsFromJoinAll (.host 0) && (w.engine.get? 0 "y").isSome) = true := by
    decide +kernel
  obtain ⟨w, h, hend⟩ := (Option.any_eq_true _ _).mp hruns
  rw [Bool.and_eq_true] at hend
  obtain ⟨hreturn, hy⟩ := hend
  have hplain : (pairEngine.globals 0).Plain := Globals.plain_empty.set rfl
  have hapart : pairCalls.Pairwise Call.Apart := by
    refine List.pairwise_cons.mpr ⟨?_, List.pairwise_singleton _ _⟩
    intro call hcall
    rw [List.mem_singleton.mp hcall]
    exact ⟨by decide, by decide, by decide⟩
  obtain ⟨fuel, e', s', hrun, hsame⟩ := batch_eq_inline pairLibrary pairEngine 0 1
    ["x = f()", "y = g(a)"] pairCalls pairAnswer pairMoves w (by decide) hplain pairCalls_lines
    hapart pairCalls_answers (run_iff_follow.mpr h) rfl (by decide) hreturn
    pairEngine.openAllGates "batch" (fun _ _ s => (.ok 0, s)) () (by decide) rfl rfl
  exact ⟨w, fuel, e', s', run_iff_follow.mpr h, hy, hrun, hsame⟩

/-- The code comes to these results, whatever it is answered. -/
inductive AlwaysReturns (results : List Value) : Program (List Value) → Prop where
  | done : AlwaysReturns results (.done results)
  | perform (operation : Operation) {next : operation.Answer → Program (List Value)}
      (h : ∀ answer, AlwaysReturns results (next answer)) :
      AlwaysReturns results (.perform operation next)

/-- A library with a function that writes a global and one that submits a call. -/
def effectLibrary : Library :=
  ⟨[("f", constantFunction [.boolean true]),
    ("mark", fun _ _ => .perform (.writeGlobal "x" (.boolean true)) fun _ => .done []),
    ("spread", fun _ _ => .perform (.request (.parallel "x = f()")) fun _ => .done [])]⟩

/-- A call is submitted before the threads take turns. -/
def deferredMoves (text : String) (schedule : List (ThreadId × Nat)) : List Move :=
  turns [(.host 0, 4)] ++ [.begin 0 (.ask 0 (.parallel text))] ++ turns [(.host 0, 12)] ++
    [.begin 0 (.ask 0 .joinAll)] ++ turns schedule

/-- After a deferred call the main context has other globals than after the call on a line. -/
def DiffersInline (library : Library) (engine : Engine) (text name : String) : Prop :=
  ∃ moves w fuel e', Run library (World.initial engine 0 1 0) moves w ∧
    callsBegun moves = batchScript 0 [text] ∧ (∀ m ∈ moves, m.keepsGlobals = true) ∧
    w.returnsFromJoinAll (.host 0) = true ∧
    Execution.run library (fun _ _ s => (.ok 0, s)) fuel (.load 0 "batch" text) engine () =
      some (.returned (.completed []), e', ()) ∧
    e'.get? 0 name ≠ w.engine.get? 0 name

theorem differsInline_of_runs {library : Library} {engine : Engine} {text name : String}
    (schedule : List (ThreadId × Nat)) (fuel : Nat) (isSet : Bool)
    (hcalls : callsBegun (deferredMoves text schedule) = batchScript 0 [text])
    (hkeeps : ∀ m ∈ deferredMoves text schedule, m.keepsGlobals = true)
    (hdeferred : ((World.initial engine 0 1 0).follow library (deferredMoves text schedule)).any
      (fun w => w.returnsFromJoinAll (.host 0) && (w.engine.get? 0 name).isSome == isSet) = true)
    (hinline : (Execution.run library (fun _ _ s => (.ok 0, s)) fuel (.load 0 "batch" text) engine
      ()).any (fun r => r.1 matches .returned (.completed []) &&
        (r.2.1.get? 0 name).isSome == !isSet) = true) :
    DiffersInline library engine text name := by
  obtain ⟨w, h, hdeferred⟩ := (Option.any_eq_true _ _).mp hdeferred
  obtain ⟨⟨ending, e', ⟨⟩⟩, hrun, hinline⟩ := (Option.any_eq_true _ _).mp hinline
  rw [Bool.and_eq_true, beq_iff_eq] at hdeferred hinline
  obtain ⟨hreturn, hset⟩ := hdeferred
  obtain ⟨hending, hset'⟩ := hinline
  have hends : ending = .returned (.completed []) := by
    split at hending
    · assumption
    · cases hending
  refine ⟨_, w, fuel, e', run_iff_follow.mpr h, hcalls, hkeeps, hreturn, ?_, ?_⟩
  · rw [hrun, hends]
  · intro hsame
    rw [hsame, hset] at hset'
    cases isSet with
    | false | true => cases hset'

/-- If a function writes a global or submits a call, deferring it does not come to the same as its
call on a line, although its results are always the same. -/
theorem batch_ne_inline_of_effects :
    (∀ function ∈ ["mark", "spread"], ∃ f, effectLibrary.find? function = some f ∧
      ∀ arguments, AlwaysReturns [] (f function arguments)) ∧
    DiffersInline effectLibrary (Engine.initial "pair" none).createContext.2 "mark()" "x" ∧
    DiffersInline effectLibrary (Engine.initial "pair" none).createContext.2 "spread()" "x" := by
  refine ⟨?_, ?_, ?_⟩
  · intro function hfunction
    rcases List.mem_pair.mp hfunction with rfl | rfl
    · exact ⟨_, rfl, fun _ => .perform _ fun _ => .done⟩
    · exact ⟨_, rfl, fun _ => .perform _ fun _ => .done⟩
  · exact differsInline_of_runs [(.worker 0, 20), (.host 0, 10)] 20 false rfl (by decide)
      (by decide +kernel) (by decide +kernel)
  · exact differsInline_of_runs
      [(.worker 0, 29), (.host 0, 12), (.worker 0, 19), (.host 0, 10)] 20 true rfl (by decide)
      (by decide +kernel) (by decide +kernel)

end ScriptPool

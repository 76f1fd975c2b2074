import ScriptPool.Proofs.Engine.Failing
import ScriptPool.Proofs.Engine.Tame

/-!
What code comes to, said without the machine that runs it.

`Comes` follows the tree of operations: an operation of the engine is answered at once, a request is
answered by a runtime, and a function or chunk that is entered comes to an outcome of its own before
the code around it goes on. An execution with its waiting callers runs to its end exactly as `Comes`
says of its code.
-/

namespace ScriptPool

/-- How runtimes answer the requests from a context. Anything may happen to the engine meanwhile. -/
abbrev Runtimes (σ : Type) :=
  RuntimeId → ContextId → Request → Engine × σ → Reply → Engine × σ → Prop

/-- A request is answered by the runtime of its context, and refused where there is none. -/
inductive Answered {σ : Type} (runtimes : Runtimes σ) (c : ContextId) (r : Request)
    (s : Engine × σ) : Reply → Engine × σ → Prop where
  | runtime {id : RuntimeId} {reply : Reply} {s' : Engine × σ} (h : s.1.runtime? c = some id)
      (hreply : runtimes id c r s reply s') : Answered runtimes c r s reply s'
  | missing (h : s.1.runtime? c = none) : Answered runtimes c r s (.error .shutDown) s

/-- What is answered to the caller of a function whose code has come to an outcome. -/
def callAnswer (function : String) :
    Except Failure (List Value) → Except ScriptError (List Value)
  | .ok results => .ok results
  | .error failure => .error (failure.asError function)

/-- What is answered to the code that has loaded a chunk. -/
def loadAnswer : Except Failure (List Value) → Except ScriptError Unit
  | .ok _ => .ok ()
  | .error failure => .error (failure.asError "")

namespace Operation

/-- The answer to an operation that is over at once, and the engine after it. A function that is not
known is one, too. -/
def act? (library : Library) (c : ContextId) (e : Engine) :
    (operation : Operation) → Option (operation.Answer × Engine)
  | .readGlobal name => some (e.get? c name, e)
  | .writeGlobal name value => some ((), e.set c name value)
  | .globalNames => some ((e.globals c).names, e)
  | .suspend => some ((), e)
  | .call function _ =>
    match library.find? function with
    | some _ => none
    | none => some (.error (.functionNotFound function), e)
  | .load .. | .request _ => none
  | .findRuntime => some ((e.runtime? c).isSome, e)
  | .mintHandle => some e.mintHandle
  | .print line => some ((), e.print line)
  | .note text => some ((), e.note text)
  | .passGate gate => if e.board.isOpen gate then some ((), e) else none
  | .readCounter => some (e.board.counter, e)
  | .writeCounter n => some ((), e.setCounter n)

/-- The code that an operation enters, and what the code around it is answered then. -/
def inner? (library : Library) : (operation : Operation) →
    Option (Program (List Value) × (Except Failure (List Value) → operation.Answer))
  | .call function arguments =>
    match library.find? function with
    | some f => some (f function arguments, callAnswer function)
    | none => none
  | .load chunk source => some (Execution.loadCode chunk source, loadAnswer)
  | _ => none

end Operation

section BigStep

variable {σ : Type} (library : Library) (runtimes : Runtimes σ) (c : ContextId)

/-- From a state, code comes to an outcome and a state. -/
inductive Comes : {α : Type} → Program α → Engine × σ → Except Failure α → Engine × σ → Prop where
  | done {α : Type} (a : α) (s : Engine × σ) : Comes (.done a) s (.ok a) s
  | fail {α : Type} (failure : Failure) (s : Engine × σ) :
      Comes (.fail failure : Program α) s (.error failure) s
  | act {α : Type} {operation : Operation} {next : operation.Answer → Program α}
      {answer : operation.Answer} {s s' : Engine × σ} {e : Engine} {outcome : Except Failure α}
      (h : operation.act? library c s.1 = some (answer, e))
      (hrest : Comes (next answer) (e, s.2) outcome s') :
      Comes (.perform operation next) s outcome s'
  | ask {α : Type} {r : Request} {next : Reply → Program α} {reply : Reply} {s s₁ s' : Engine × σ}
      {outcome : Except Failure α} (h : Answered runtimes c r s reply s₁)
      (hrest : Comes (next reply) s₁ outcome s') :
      Comes (.perform (.request r) next) s outcome s'
  | enter {α : Type} {operation : Operation} {next : operation.Answer → Program α}
      {code : Program (List Value)} {back : Except Failure (List Value) → operation.Answer}
      {inner : Except Failure (List Value)} {s s₁ s' : Engine × σ} {outcome : Except Failure α}
      (h : operation.inner? library = some (code, back)) (hinner : Comes code s inner s₁)
      (hvisible : Visible inner) (hrest : Comes (next (back inner)) s₁ outcome s') :
      Comes (.perform operation next) s outcome s'
  | broken {α : Type} {operation : Operation} {next : operation.Answer → Program α}
      {code : Program (List Value)} {back : Except Failure (List Value) → operation.Answer}
      {text : String} {s s' : Engine × σ} (h : operation.inner? library = some (code, back))
      (hinner : Comes code s (.error (.panic text)) s') :
      Comes (.perform operation next) s (.error (.panic text)) s'

/-- An execution runs to its end, in so many steps before the last. -/
inductive Execution.RunsIn : Nat → Execution → Engine × σ → Ending → Engine × σ → Prop where
  | goesOn {n : Nat} {x x' : Execution} {s s' : Engine × σ} {e : Engine} {ending : Ending}
      (h : x.step library s.1 = .goesOn x' e) (hrest : RunsIn n x' (e, s.2) ending s') :
      RunsIn (n + 1) x s ending s'
  | asks {n : Nat} {x : Execution} {r : Request} {reply : Reply} {s s₁ s' : Engine × σ}
      {ending : Ending} (h : x.step library s.1 = .asks r)
      (hreply : Answered runtimes x.context r s reply s₁)
      (hrest : RunsIn n (x.answer reply) s₁ ending s') : RunsIn (n + 1) x s ending s'
  | ends {x : Execution} {s : Engine × σ} {ending : Ending}
      (h : x.step library s.1 = .ends ending) : RunsIn 0 x s ending s

/-- An execution runs to its end, and its requests are answered by the runtimes. -/
def Execution.Runs (x : Execution) (s : Engine × σ) (ending : Ending) (s' : Engine × σ) : Prop :=
  ∃ n, Execution.RunsIn library runtimes n x s ending s'

end BigStep

/-- The code that only comes to this outcome. -/
def Program.ofOutcome {α : Type} : Except Failure α → Program α
  | .ok a => .done a
  | .error failure => .fail failure

variable {σ α β : Type} {library : Library} {runtimes : Runtimes σ} {c : ContextId}
  {s s₁ s' : Engine × σ} {e e' : Engine} {n : Nat} {ending : Ending} {operation : Operation}
  {function : String} {frames : List Frame} {suspended : Bool}

theorem Execution.step_of_act {answer : operation.Answer}
    (h : operation.act? library c e = some (answer, e'))
    (next : operation.Answer → Program (List Value)) (function : String) (frames : List Frame)
    (suspended : Bool) :
    ∃ suspended',
      Execution.step library ⟨c, function, .perform operation next, frames, suspended⟩ e =
        .goesOn ⟨c, function, next answer, frames, suspended'⟩ e' := by
  cases operation with
  | call name arguments =>
      simp only [Operation.act?] at h
      split at h
      · cases h
      · next hf =>
          cases h
          refine ⟨suspended, ?_⟩
          simp only [Execution.step, hf]
          rfl
  | passGate gate =>
      simp only [Operation.act?] at h
      split at h
      · cases h
        next hopen =>
        refine ⟨suspended, ?_⟩
        simp only [Execution.step, hopen, if_true]
        rfl
      · cases h
  | load | request => cases h
  | _ =>
      cases h
      exact ⟨_, rfl⟩

theorem Execution.step_of_inner (next : operation.Answer → Program (List Value))
    {code : Program (List Value)} {back : Except Failure (List Value) → operation.Answer}
    (h : operation.inner? library = some (code, back)) :
    ∃ frame : Frame, (∀ outcome, frame.goOn outcome = next (back outcome)) ∧
      ∀ c function frames suspended e,
        Execution.step library ⟨c, function, .perform operation next, frames, suspended⟩ e =
          .goesOn ⟨c, function, code, frame :: frames, suspended⟩ e := by
  cases operation with
  | call name arguments =>
      simp only [Operation.inner?] at h
      split at h
      · cases h
        next f hf =>
        refine ⟨.call name next, ?_, ?_⟩
        · rintro (failure | values)
          · rfl
          · rfl
        · intro c function frames suspended e
          simp only [Execution.step, hf]
      · cases h
  | load chunk source =>
      cases h
      refine ⟨.load next, ?_, ?_⟩
      · rintro (failure | values)
        · rfl
        · rfl
      · intro c function frames suspended e
        rfl
  | _ => cases h

theorem Operation.kinds (library : Library) (c : ContextId) (e : Engine) (operation : Operation) :
    (∃ answer e', operation.act? library c e = some (answer, e')) ∨
      (∃ code back, operation.inner? library = some (code, back)) ∨
      (∃ r, operation = .request r) ∨
      ∃ gate, operation = .passGate gate ∧ e.board.isOpen gate = false := by
  cases operation with
  | call name arguments =>
      cases hf : library.find? name with
      | none => exact .inl ⟨.error (.functionNotFound name), e, by simp only [act?, hf]⟩
      | some f => exact .inr (.inl ⟨_, _, by simp only [inner?, hf]; rfl⟩)
  | load => exact .inr (.inl ⟨_, _, rfl⟩)
  | request r => exact .inr (.inr (.inl ⟨r, rfl⟩))
  | passGate gate =>
      cases hopen : e.board.isOpen gate with
      | true => exact .inl ⟨(), e, by simp only [act?, hopen, if_true]⟩
      | false => exact .inr (.inr (.inr ⟨gate, rfl, hopen⟩))
  | mintHandle => exact .inl ⟨e.mintHandle.1, e.mintHandle.2, rfl⟩
  | _ => exact .inl ⟨_, _, rfl⟩

theorem Comes.bind {p : Program α} {f : α → Program β} {a : α} {outcome : Except Failure β}
    (hp : Comes library runtimes c p s (.ok a) s₁)
    (hf : Comes library runtimes c (f a) s₁ outcome s') :
    Comes library runtimes c (p.bind f) s outcome s' := by
  generalize hvalue : (Except.ok a : Except Failure α) = value at hp
  induction hp with
  | done => cases hvalue; exact hf
  | fail | broken => cases hvalue
  | act h _ ih => exact .act h (ih hf hvalue)
  | ask h _ ih => exact .ask h (ih hf hvalue)
  | enter h hinner hvisible _ _ ih => exact .enter h hinner hvisible (ih hf hvalue)

theorem Comes.bind_error {p : Program α} (f : α → Program β) {failure : Failure}
    (hp : Comes library runtimes c p s (.error failure) s') :
    Comes library runtimes c (p.bind f) s (.error failure) s' := by
  generalize hvalue : (Except.error failure : Except Failure α) = value at hp
  induction hp with
  | done => cases hvalue
  | fail => cases hvalue; exact .fail _ _
  | act h _ ih => exact .act h (ih f hvalue)
  | ask h _ ih => exact .ask h (ih f hvalue)
  | enter h hinner hvisible _ _ ih => exact .enter h hinner hvisible (ih f hvalue)
  | broken h hinner => cases hvalue; exact .broken h hinner

theorem comes_bind_iff {p : Program α} {f : α → Program β} {outcome : Except Failure β} :
    Comes library runtimes c (p.bind f) s outcome s' ↔
      (∃ a s₁, Comes library runtimes c p s (.ok a) s₁ ∧
        Comes library runtimes c (f a) s₁ outcome s') ∨
      ∃ failure, outcome = .error failure ∧ Comes library runtimes c p s (.error failure) s' := by
  constructor
  · intro h
    induction p generalizing s with
    | done a => exact .inl ⟨a, s, .done a s, h⟩
    | fail failure =>
        cases h
        exact .inr ⟨failure, rfl, .fail failure _⟩
    | perform operation next ih =>
        rw [Program.perform_bind] at h
        cases h with
        | act hact h =>
            rcases ih _ h with ⟨a, s₁, hp, hf⟩ | ⟨failure, rfl, hp⟩
            · exact .inl ⟨a, s₁, .act hact hp, hf⟩
            · exact .inr ⟨failure, rfl, .act hact hp⟩
        | ask hreply h =>
            rcases ih _ h with ⟨a, s₁, hp, hf⟩ | ⟨failure, rfl, hp⟩
            · exact .inl ⟨a, s₁, .ask hreply hp, hf⟩
            · exact .inr ⟨failure, rfl, .ask hreply hp⟩
        | enter hinner hcode hvisible h =>
            rcases ih _ h with ⟨a, s₁, hp, hf⟩ | ⟨failure, rfl, hp⟩
            · exact .inl ⟨a, s₁, .enter hinner hcode hvisible hp, hf⟩
            · exact .inr ⟨failure, rfl, .enter hinner hcode hvisible hp⟩
        | broken hinner hcode => exact .inr ⟨_, rfl, .broken hinner hcode⟩
  · rintro (⟨a, s₁, hp, hf⟩ | ⟨failure, rfl, hp⟩)
    · exact hp.bind hf
    · exact hp.bind_error f

/-- The failure with an error of the script engine changed. -/
def Failure.mapError (f : ScriptError → ScriptError) : Failure → Failure
  | .script e => .script (f e)
  | failure => failure

/-- The outcome with an error of the script engine changed. -/
def mapFailure (f : ScriptError → ScriptError) : Except Failure α → Except Failure α
  | .ok a => .ok a
  | .error failure => .error (failure.mapError f)

theorem comes_mapError_iff {p : Program α} {f : ScriptError → ScriptError}
    {outcome : Except Failure α} : Comes library runtimes c (p.mapError f) s outcome s' ↔
      ∃ inner, Comes library runtimes c p s inner s' ∧ outcome = mapFailure f inner := by
  constructor
  · intro h
    induction p generalizing s with
    | done a =>
        cases h
        exact ⟨.ok a, .done a _, rfl⟩
    | fail failure =>
        cases failure with
        | script | message | panic =>
            cases h
            exact ⟨_, .fail _ _, rfl⟩
    | perform operation next ih =>
        rw [Program.mapError] at h
        cases h with
        | act hact h =>
            obtain ⟨inner, hp, rfl⟩ := ih _ h
            exact ⟨inner, .act hact hp, rfl⟩
        | ask hreply h =>
            obtain ⟨inner, hp, rfl⟩ := ih _ h
            exact ⟨inner, .ask hreply hp, rfl⟩
        | enter hinner hcode hvisible h =>
            obtain ⟨inner, hp, rfl⟩ := ih _ h
            exact ⟨inner, .enter hinner hcode hvisible hp, rfl⟩
        | broken hinner hcode => exact ⟨_, .broken hinner hcode, rfl⟩
  · rintro ⟨inner, h, rfl⟩
    induction h with
    | done a s => exact .done a s
    | fail failure s =>
        cases failure with
        | script | message | panic => exact .fail _ s
    | act h _ ih => exact .act h ih
    | ask h _ ih => exact .ask h ih
    | enter h hinner hvisible _ _ ih => exact .enter h hinner hvisible ih
    | broken h hinner => exact .broken h hinner

theorem Comes.failsWith {Q : Failure → Prop} {p : Program α} {failure : Failure}
    (h : Comes library runtimes c p s (.error failure) s') (hp : p.FailsWith Q) :
    Q failure ∨ ∃ text, failure = .panic text := by
  generalize hvalue : (Except.error failure : Except Failure α) = value at h
  induction h with
  | done => cases hvalue
  | fail => cases hvalue; exact .inl hp
  | act _ _ ih => exact ih (hp _) hvalue
  | ask _ _ ih => exact ih (hp _) hvalue
  | enter _ _ _ _ _ ih => exact ih (hp _) hvalue
  | broken => cases hvalue; exact .inr ⟨_, rfl⟩

/-- What the caller of an execution gets. -/
def Ending.result : Ending → Except Failure (List Value)
  | .returned (.completed results) | .returned (.suspended results) => .ok results
  | .returned (.errored e) => .error (.script e)
  | .brokeOff text => .error (.panic text)

/-- The outcome of the code of a function as its caller sees it. -/
def seenFrom (function : String) : Except Failure (List Value) → Except Failure (List Value)
  | .error (.panic text) => .error (.panic text)
  | .error failure => .error (.script (failure.asError function))
  | .ok results => .ok results

/-- An execution that runs to its end hands a result to its caller. -/
def Execution.ComesTo (library : Library) (runtimes : Runtimes σ) (x : Execution) (s : Engine × σ)
    (result : Except Failure (List Value)) (s' : Engine × σ) : Prop :=
  ∃ ending, x.Runs library runtimes s ending s' ∧ ending.result = result

theorem Execution.RunsIn.first {x : Execution}
    (h : Execution.RunsIn library runtimes n x s ending s') :
    match x.step library s.1 with
    | .goesOn x' e => ∃ m < n, Execution.RunsIn library runtimes m x' (e, s.2) ending s'
    | .asks r => ∃ m < n, ∃ reply s₁, Answered runtimes x.context r s reply s₁ ∧
        Execution.RunsIn library runtimes m (x.answer reply) s₁ ending s'
    | .ends ending' => ending = ending' ∧ s' = s
    | .waits => False := by
  cases h with
  | goesOn h hrest =>
      rw [h]
      exact ⟨_, Nat.lt_succ_self _, hrest⟩
  | asks h hreply hrest =>
      rw [h]
      exact ⟨_, Nat.lt_succ_self _, _, _, hreply, hrest⟩
  | ends h =>
      rw [h]
      exact ⟨rfl, rfl⟩

theorem Execution.RunsIn.of_goesOn {x x' : Execution}
    (h : Execution.RunsIn library runtimes n x s ending s')
    (hstep : x.step library s.1 = .goesOn x' e) :
    ∃ m < n, Execution.RunsIn library runtimes m x' (e, s.2) ending s' := by
  have hfirst := h.first
  rwa [hstep] at hfirst

theorem Execution.RunsIn.of_ends {x : Execution} {ending' : Ending}
    (h : Execution.RunsIn library runtimes n x s ending s')
    (hstep : x.step library s.1 = .ends ending') : ending = ending' ∧ s' = s := by
  have hfirst := h.first
  rwa [hstep] at hfirst

theorem Execution.Runs.goesOn {x x' : Execution} (h : x.step library s.1 = .goesOn x' e)
    (hrest : x'.Runs library runtimes (e, s.2) ending s') :
    x.Runs library runtimes s ending s' := by
  obtain ⟨n, hrest⟩ := hrest
  exact ⟨n + 1, .goesOn h hrest⟩

theorem Execution.Runs.goOn {frame : Frame} {outcome : Except Failure (List Value)}
    (hvisible : Visible outcome)
    (h : Execution.Runs library runtimes ⟨c, function, frame.goOn outcome, frames, suspended⟩ s
      ending s') :
    Execution.Runs library runtimes ⟨c, function, .ofOutcome outcome, frame :: frames, suspended⟩ s
      ending s' := by
  cases outcome with
  | ok results => exact .goesOn rfl h
  | error failure =>
      cases failure with
      | panic text => cases hvisible
      | script | message => exact .goesOn rfl h

theorem Comes.runs {p : Program α} {outcome : Except Failure α}
    (h : Comes library runtimes c p s outcome s₁) (k : α → Program (List Value))
    (function : String) (frames : List Frame) (suspended : Bool) : ∃ suspended', ∀ ending s',
      Execution.Runs library runtimes ⟨c, function, (Program.ofOutcome outcome).bind k, frames,
          suspended'⟩ s₁ ending s' →
        Execution.Runs library runtimes ⟨c, function, p.bind k, frames, suspended⟩ s ending s' := by
  induction h generalizing frames suspended with
  | done | fail => exact ⟨suspended, fun ending s' h => h⟩
  | act hact _ ih =>
      obtain ⟨suspended₁, hstep⟩ := Execution.step_of_act hact _ function frames suspended
      obtain ⟨suspended₂, hrest⟩ := ih k frames suspended₁
      exact ⟨suspended₂, fun ending s' h => .goesOn hstep (hrest ending s' h)⟩
  | ask hreply _ ih =>
      obtain ⟨suspended', hrest⟩ := ih k frames suspended
      refine ⟨suspended', fun ending s' h => ?_⟩
      obtain ⟨n, hrun⟩ := hrest ending s' h
      exact ⟨n + 1, .asks rfl hreply hrun⟩
  | @enter _ operation next code back inner s s₁ s' outcome hinner hcode hvisible _ ih ih' =>
      obtain ⟨frame, hframe, hstep⟩ :=
        Execution.step_of_inner (fun answer => (next answer).bind k) hinner
      obtain ⟨suspended₁, hcode⟩ := ih .done (frame :: frames) suspended
      obtain ⟨suspended₂, hrest⟩ := ih' k frames suspended₁
      rw [Program.bind_done, Program.bind_done] at hcode
      refine ⟨suspended₂, fun ending s' h => .goesOn (hstep ..) (hcode ending s' ?_)⟩
      refine .goOn hvisible ?_
      rw [hframe]
      exact hrest ending s' h
  | @broken _ operation next code back text s s' hinner _ ih =>
      obtain ⟨frame, -, hstep⟩ :=
        Execution.step_of_inner (fun answer => (next answer).bind k) hinner
      obtain ⟨suspended', hcode⟩ := ih .done (frame :: frames) suspended
      rw [Program.bind_done, Program.bind_done] at hcode
      refine ⟨suspended', fun ending s'' h => .goesOn (hstep ..) (hcode ending s'' ?_)⟩
      -- Code that breaks off ends at once, whatever callers wait.
      obtain ⟨n, hrun⟩ := h
      obtain ⟨rfl, rfl⟩ := hrun.of_ends rfl
      exact ⟨0, .ends rfl⟩

theorem Execution.RunsIn.ofOutcome {frame : Frame} {outcome : Except Failure (List Value)}
    (h : Execution.RunsIn library runtimes n
      ⟨c, function, .ofOutcome outcome, frame :: frames, suspended⟩ s ending s') :
    (∃ m < n, Visible outcome ∧ Execution.RunsIn library runtimes m
      ⟨c, function, frame.goOn outcome, frames, suspended⟩ s ending s') ∨
    ∃ text, outcome = .error (.panic text) ∧ ending = .brokeOff text ∧ s' = s := by
  cases outcome with
  | ok results =>
      obtain ⟨m, hm, hrest⟩ := h.of_goesOn rfl
      exact .inl ⟨m, hm, trivial, hrest⟩
  | error failure =>
      cases failure with
      | panic text => exact .inr ⟨text, rfl, h.of_ends rfl⟩
      | script | message =>
          obtain ⟨m, hm, hrest⟩ := h.of_goesOn rfl
          exact .inl ⟨m, hm, trivial, hrest⟩

theorem Execution.RunsIn.comes {code : Program (List Value)}
    (h : Execution.RunsIn library runtimes n ⟨c, function, code, frames, suspended⟩ s ending s') :
    ∃ outcome s₁ m suspended', m ≤ n ∧ Comes library runtimes c code s outcome s₁ ∧
      Execution.RunsIn library runtimes m
        ⟨c, function, .ofOutcome outcome, frames, suspended'⟩ s₁ ending s' := by
  induction n using Nat.strongRecOn generalizing code frames suspended s with
  | _ n ih =>
  cases code with
  | done results => exact ⟨.ok results, s, n, suspended, Nat.le_refl n, .done results s, h⟩
  | fail failure => exact ⟨.error failure, s, n, suspended, Nat.le_refl n, .fail failure s, h⟩
  | perform operation next =>
      rcases operation.kinds library c s.1 with ⟨answer, e, hact⟩ | ⟨code, back, hinner⟩ |
        ⟨r, rfl⟩ | ⟨gate, rfl, hclosed⟩
      · obtain ⟨suspended₁, hstep⟩ := Execution.step_of_act hact next function frames suspended
        obtain ⟨n', hn, hrest⟩ := h.of_goesOn hstep
        obtain ⟨outcome, s₁, m, suspended', hm, hcomes, hrun⟩ := ih n' hn hrest
        exact ⟨outcome, s₁, m, suspended', by omega, .act hact hcomes, hrun⟩
      · obtain ⟨frame, hframe, hstep⟩ := Execution.step_of_inner next hinner
        obtain ⟨n', hn, hrest⟩ := h.of_goesOn (hstep ..)
        -- First the code that was entered, then the caller that has waited for it.
        obtain ⟨inner, s₁, m, suspended₁, hm, hcode, hrun⟩ := ih n' hn hrest
        rcases hrun.ofOutcome with ⟨m', hm', hvisible, hrun⟩ | ⟨text, rfl, rfl, rfl⟩
        · rw [hframe] at hrun
          obtain ⟨outcome, s₂, k, suspended₂, hk, hcomes, hrun⟩ := ih m' (by omega) hrun
          exact ⟨outcome, s₂, k, suspended₂, by omega, .enter hinner hcode hvisible hcomes, hrun⟩
        · exact ⟨.error (.panic text), _, 0, suspended₁, Nat.zero_le _, .broken hinner hcode,
            .ends rfl⟩
      · obtain ⟨n', hn, reply, s₁, hreply, hrest⟩ := h.first
        obtain ⟨outcome, s₂, m, suspended', hm, hcomes, hrun⟩ := ih n' hn hrest
        exact ⟨outcome, s₂, m, suspended', by omega, .ask hreply hcomes, hrun⟩
      · have hstep : Execution.step library
            ⟨c, function, .perform (.passGate gate) next, frames, suspended⟩ s.1 = .waits := by
          simp only [Execution.step, hclosed]
          rfl
        have hfirst := h.first
        rw [hstep] at hfirst
        exact hfirst.elim

theorem Execution.step_ofOutcome (library : Library) (c : ContextId) (function : String)
    (outcome : Except Failure (List Value)) (suspended : Bool) (e : Engine) :
    ∃ ending, Execution.step library ⟨c, function, .ofOutcome outcome, [], suspended⟩ e =
      .ends ending ∧ ending.result = seenFrom function outcome := by
  rcases outcome with (_ | _ | _) | results
  · exact ⟨_, rfl, rfl⟩
  · exact ⟨_, rfl, rfl⟩
  · exact ⟨_, rfl, rfl⟩
  · cases suspended with
    | false | true => exact ⟨_, rfl, rfl⟩

theorem Execution.comesTo_iff {code : Program (List Value)} {result : Except Failure (List Value)} :
    Execution.ComesTo library runtimes ⟨c, function, code, [], suspended⟩ s result s' ↔
      ∃ outcome, Comes library runtimes c code s outcome s' ∧
        result = seenFrom function outcome := by
  constructor
  · rintro ⟨ending, ⟨n, hrun⟩, rfl⟩
    obtain ⟨outcome, s₁, m, suspended', -, hcomes, hrun⟩ := hrun.comes
    obtain ⟨ending', hstep, hresult⟩ :=
      Execution.step_ofOutcome library c function outcome suspended' s₁.1
    obtain ⟨rfl, rfl⟩ := hrun.of_ends hstep
    exact ⟨outcome, hcomes, hresult⟩
  · rintro ⟨outcome, hcomes, rfl⟩
    obtain ⟨suspended', hrun⟩ := hcomes.runs .done function [] suspended
    rw [Program.bind_done, Program.bind_done] at hrun
    obtain ⟨ending, hstep, hresult⟩ :=
      Execution.step_ofOutcome library c function outcome suspended' s'.1
    exact ⟨ending, hrun ending s' ⟨0, .ends hstep⟩, hresult⟩

theorem Execution.comesTo_iff_of_ends {x : Execution} {result : Except Failure (List Value)}
    (h : x.step library s.1 = .ends ending) :
    x.ComesTo library runtimes s result s' ↔ result = ending.result ∧ s' = s := by
  constructor
  · rintro ⟨ending', ⟨n, hrun⟩, rfl⟩
    obtain ⟨rfl, rfl⟩ := hrun.of_ends h
    exact ⟨rfl, rfl⟩
  · rintro ⟨rfl, rfl⟩
    exact ⟨ending, ⟨0, .ends h⟩, rfl⟩

/-- The runtimes that answer with a function and leave the engine alone. -/
def Runtimes.ofFunction (respond : RuntimeId → Request → σ → Reply × σ) : Runtimes σ :=
  fun id _ r s reply s' => (reply, s'.2) = respond id r s.2 ∧ s'.1 = s.1

theorem answered_ofFunction_iff {respond : RuntimeId → Request → σ → Reply × σ} {x : Execution}
    {r : Request} {reply : Reply} :
    Answered (.ofFunction respond) x.context r s reply s' ↔
      s'.1 = s.1 ∧ (reply, s'.2) = x.replyTo respond s.1 r s.2 := by
  rw [Execution.replyTo]
  cases hruntime : s.1.runtime? x.context with
  | none =>
      constructor
      · rintro (⟨h, -⟩ | -)
        · rw [hruntime] at h; cases h
        · exact ⟨rfl, rfl⟩
      · rintro ⟨hengine, heq⟩
        obtain ⟨e', t'⟩ := s'
        cases hengine
        cases heq
        exact .missing hruntime
  | some id =>
      constructor
      · rintro (⟨h, hreply, hengine⟩ | h)
        · rw [hruntime] at h
          cases h
          exact ⟨hengine, hreply⟩
        · rw [hruntime] at h; cases h
      · rintro ⟨hengine, heq⟩
        exact .runtime hruntime ⟨heq, hengine⟩

theorem Execution.run_iff_runs {respond : RuntimeId → Request → σ → Reply × σ} {x : Execution}
    {t t' : σ} : (∃ fuel, Execution.run library respond fuel x e t = some (ending, e', t')) ↔
      x.Runs library (.ofFunction respond) (e, t) ending (e', t') := by
  constructor
  · rintro ⟨fuel, h⟩
    induction fuel generalizing x e t with
    | zero => cases h
    | succ fuel ih =>
        rw [Execution.run] at h
        split at h
        · next x' e₁ hstep => exact .goesOn hstep (ih h)
        · cases h
        · next r hstep =>
            obtain ⟨n, hrest⟩ := ih h
            have hreply : Answered (.ofFunction respond) x.context r (e, t)
                (x.replyTo respond e r t).1 (e, (x.replyTo respond e r t).2) :=
              answered_ofFunction_iff.mpr ⟨rfl, rfl⟩
            exact ⟨n + 1, .asks hstep hreply hrest⟩
        · next hstep =>
            cases h
            exact ⟨0, .ends hstep⟩
  · rintro ⟨n, h⟩
    generalize hs : (e, t) = s at h
    generalize hs' : (e', t') = s' at h
    induction h generalizing e t with
    | goesOn h _ ih =>
        subst hs
        obtain ⟨fuel, hrun⟩ := ih rfl hs'
        refine ⟨fuel + 1, ?_⟩
        rw [Execution.run, h]
        exact hrun
    | @asks _ x r reply s s₁ _ _ h hreply _ ih =>
        subst hs
        obtain ⟨hengine, hreply⟩ := answered_ofFunction_iff.mp hreply
        obtain ⟨e₁, t₁⟩ := s₁
        cases hengine
        obtain ⟨fuel, hrun⟩ := ih rfl hs'
        have hnext : Execution.run library respond (fuel + 1) x e t =
            Execution.run library respond fuel (x.answer (x.replyTo respond e r t).1) e
              (x.replyTo respond e r t).2 := by
          rw [Execution.run, h]
          rfl
        have hreply : x.replyTo respond e r t = (reply, t₁) := hreply.symm
        refine ⟨fuel + 1, ?_⟩
        rw [hnext, hreply]
        exact hrun
    | ends h =>
        subst hs
        cases hs'
        refine ⟨1, ?_⟩
        rw [Execution.run, h]

end ScriptPool

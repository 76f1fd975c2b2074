import ScriptPool.Engine.Execution

namespace ScriptPool

/-- How the caller goes on after an outcome of the code above it. -/
def Frame.goOn (frame : Frame) : Except Failure (List Value) → Program (List Value)
  | .ok results => frame.resume results
  | .error failure => frame.recover failure

def Request.submits : Request → Bool
  | .parallel _ => true
  | .join _ | .joinAll | .acquire _ | .release _ | .resize _ => false

/-- Whether callers see the outcome. -/
def Visible : Except Failure (List Value) → Prop
  | .error (.panic _) => False
  | _ => True

/-- In a context with these globals the code comes to this outcome, whatever is answered to its other
operations. -/
inductive Tame (library : Library) (g : Globals) :
    Except Failure (List Value) → Program (List Value) → Prop where
  | done (results : List Value) : Tame library g (.ok results) (.done results)
  | fail (failure : Failure) : Tame library g (.error failure) (.fail failure)
  | readGlobal {outcome : Except Failure (List Value)} (name : String)
      {next : Option Value → Program (List Value)} (h : Tame library g outcome (next (g.get? name))) :
      Tame library g outcome (.perform (.readGlobal name) next)
  | globalNames {outcome : Except Failure (List Value)} {next : List String → Program (List Value)}
      (h : Tame library g outcome (next g.names)) :
      Tame library g outcome (.perform .globalNames next)
  | suspend {outcome : Except Failure (List Value)} {next : Unit → Program (List Value)}
      (h : Tame library g outcome (next ())) : Tame library g outcome (.perform .suspend next)
  | call {outcome inner : Except Failure (List Value)} {function : String} {f : HostFunction}
      (arguments : List Value) {next : Except ScriptError (List Value) → Program (List Value)}
      (hf : library.find? function = some f) (hinner : Tame library g inner (f function arguments))
      (hvisible : Visible inner) (h : Tame library g outcome ((Frame.call function next).goOn inner)) :
      Tame library g outcome (.perform (.call function arguments) next)
  | callUnknown {outcome : Except Failure (List Value)} {function : String} (arguments : List Value)
      {next : Except ScriptError (List Value) → Program (List Value)}
      (hf : library.find? function = none)
      (h : Tame library g outcome (next (.error (.functionNotFound function)))) :
      Tame library g outcome (.perform (.call function arguments) next)
  | load {outcome inner : Except Failure (List Value)} {chunk source : String}
      {next : Except ScriptError Unit → Program (List Value)}
      (hinner : Tame library g inner (Execution.loadCode chunk source)) (hvisible : Visible inner)
      (h : Tame library g outcome ((Frame.load next).goOn inner)) :
      Tame library g outcome (.perform (.load chunk source) next)
  | findRuntime {outcome : Except Failure (List Value)} {next : Bool → Program (List Value)}
      (h : ∀ available, Tame library g outcome (next available)) :
      Tame library g outcome (.perform .findRuntime next)
  | mintHandle {outcome : Except Failure (List Value)} {next : Handle → Program (List Value)}
      (h : ∀ handle, Tame library g outcome (next handle)) :
      Tame library g outcome (.perform .mintHandle next)
  | print {outcome : Except Failure (List Value)} (line : String)
      {next : Unit → Program (List Value)} (h : Tame library g outcome (next ())) :
      Tame library g outcome (.perform (.print line) next)
  | note {outcome : Except Failure (List Value)} (text : String)
      {next : Unit → Program (List Value)} (h : Tame library g outcome (next ())) :
      Tame library g outcome (.perform (.note text) next)
  | passGate {outcome : Except Failure (List Value)} (gate : String)
      {next : Unit → Program (List Value)} (h : Tame library g outcome (next ())) :
      Tame library g outcome (.perform (.passGate gate) next)
  | readCounter {outcome : Except Failure (List Value)} {next : Nat → Program (List Value)}
      (h : ∀ n, Tame library g outcome (next n)) :
      Tame library g outcome (.perform .readCounter next)
  | writeCounter {outcome : Except Failure (List Value)} (n : Nat)
      {next : Unit → Program (List Value)} (h : Tame library g outcome (next ())) :
      Tame library g outcome (.perform (.writeCounter n) next)
  | request {outcome : Except Failure (List Value)} {r : Request} (hr : r.submits = false)
      {next : Reply → Program (List Value)} (h : ∀ reply, Tame library g outcome (next reply)) :
      Tame library g outcome (.perform (.request r) next)

/-- The code and its callers come to these results. -/
inductive Leads (library : Library) (g : Globals) (results : List Value) :
    Program (List Value) → List Frame → Prop where
  | last {code : Program (List Value)} (h : Tame library g (.ok results) code) :
      Leads library g results code []
  | inner {code : Program (List Value)} {frame : Frame} {rest : List Frame}
      {outcome : Except Failure (List Value)} (h : Tame library g outcome code)
      (hvisible : Visible outcome) (hrest : Leads library g results (frame.goOn outcome) rest) :
      Leads library g results code (frame :: rest)

namespace Leads

variable {library : Library} {g : Globals} {results : List Value} {code code' : Program (List Value)}
  {frames : List Frame}

theorem tame (h : Leads library g results code frames) : ∃ outcome, Tame library g outcome code := by
  cases h with
  | last h => exact ⟨_, h⟩
  | inner h => exact ⟨_, h⟩

theorem map (h : Leads library g results code frames)
    (hcode : ∀ outcome, Tame library g outcome code → Tame library g outcome code') :
    Leads library g results code' frames := by
  cases h with
  | last h => exact .last (hcode _ h)
  | inner h hvisible hrest => exact .inner (hcode _ h) hvisible hrest

theorem push {inner : Program (List Value)} {frame : Frame} (h : Leads library g results code frames)
    (hcode : ∀ outcome, Tame library g outcome code → ∃ outcome', Tame library g outcome' inner ∧
      Visible outcome' ∧ Tame library g outcome (frame.goOn outcome')) :
    Leads library g results inner (frame :: frames) := by
  cases h with
  | last h =>
      obtain ⟨outcome', hinner, hvisible, hrest⟩ := hcode _ h
      exact .inner hinner hvisible (.last hrest)
  | inner h hvisible hrest =>
      obtain ⟨outcome', hinner, hvisible', h⟩ := hcode _ h
      exact .inner hinner hvisible' (.inner h hvisible hrest)

end Leads

def Execution.Leads (x : Execution) (library : Library) (e : Engine) (results : List Value) : Prop :=
  ScriptPool.Leads library (e.globals x.context) results x.code x.frames

theorem Engine.globals_of_contexts {e e' : Engine} (h : e'.contexts = e.contexts) (c : ContextId) :
    e'.globals c = e.globals c := by
  rw [Engine.globals, Engine.globals, h]

theorem Execution.Leads.congr {x : Execution} {library : Library} {e e' : Engine}
    {results : List Value} (h : x.Leads library e results)
    (hglobals : e'.globals x.context = e.globals x.context) : x.Leads library e' results := by
  rw [Execution.Leads, hglobals]
  exact h

theorem Execution.answer_context (x : Execution) (reply : Reply) :
    (x.answer reply).context = x.context := by
  unfold Execution.answer
  split
  · rfl
  · rfl

/-- What a step of an execution comes to that leads to results. -/
inductive Turn.Tame (library : Library) (results : List Value) (x : Execution) (e : Engine) :
    Turn → Prop where
  | goesOn {x' : Execution} {e' : Engine} (h : x'.Leads library e results)
      (hcontext : x'.context = x.context) (hcontexts : e'.contexts = e.contexts) :
      Turn.Tame library results x e (.goesOn x' e')
  | waits : Turn.Tame library results x e .waits
  | asks {r : Request} (hr : r.submits = false)
      (h : ∀ reply, (x.answer reply).Leads library e results) :
      Turn.Tame library results x e (.asks r)
  | ends {outcome : Invocation} (hhealthy : outcome.isHealthy = true)
      (hresults : outcome.results = results) :
      Turn.Tame library results x e (.ends (.returned outcome))

theorem Execution.Leads.step {x : Execution} {library : Library} {e : Engine} {results : List Value}
    (h : x.Leads library e results) : (x.step library e).Tame library results x e := by
  obtain ⟨c, function, code, frames, suspended⟩ := x
  cases code with
  | done r =>
      cases h with
      | last h =>
          cases h
          cases suspended with
          | true => exact .ends rfl rfl
          | false => exact .ends rfl rfl
      | inner h _ hrest =>
          cases h
          exact .goesOn hrest rfl rfl
  | fail failure =>
      cases h with
      | last h => cases h
      | inner h hvisible hrest =>
          cases h
          cases failure with
          | panic text => cases hvisible
          | script e' => exact .goesOn hrest rfl rfl
          | message text => exact .goesOn hrest rfl rfl
  | perform operation next =>
      cases operation with
      | readGlobal name =>
          refine .goesOn (h.map ?_) rfl rfl
          rintro _ ⟨⟩
          assumption
      | globalNames | suspend | print | note | writeCounter =>
          refine .goesOn (h.map ?_) rfl rfl
          rintro _ ⟨⟩
          assumption
      | findRuntime | readCounter | mintHandle =>
          refine .goesOn (h.map ?_) rfl rfl
          rintro _ ⟨⟩
          apply_assumption
      | passGate gate =>
          unfold Execution.step
          dsimp only
          split
          · refine .goesOn (h.map ?_) rfl rfl
            rintro _ ⟨⟩
            assumption
          · exact .waits
      | call function' arguments =>
          unfold Execution.step
          dsimp only
          split
          · next f hf =>
              refine .goesOn (h.push ?_) rfl rfl
              intro outcome htame
              cases htame with
              | call _ hf' hinner hvisible h =>
                  rw [hf] at hf'
                  cases hf'
                  exact ⟨_, hinner, hvisible, h⟩
              | callUnknown _ hf' =>
                  rw [hf] at hf'
                  cases hf'
          · next hf =>
              refine .goesOn (h.map ?_) rfl rfl
              intro outcome htame
              cases htame with
              | call _ hf' =>
                  rw [hf] at hf'
                  cases hf'
              | callUnknown _ _ h => exact h
      | load chunk source =>
          refine .goesOn (h.push ?_) rfl rfl
          rintro _ ⟨⟩
          exact ⟨_, by assumption, by assumption, by assumption⟩
      | request r =>
          obtain ⟨outcome, htame⟩ := h.tame
          cases htame with
          | request hr =>
              refine .asks hr fun reply => h.map ?_
              rintro _ ⟨⟩
              apply_assumption
      | writeGlobal =>
          obtain ⟨outcome, htame⟩ := h.tame
          cases htame

section Goes

variable {σ : Type}

def Execution.replyTo (x : Execution) (respond : RuntimeId → Request → σ → Reply × σ) (e : Engine)
    (r : Request) (s : σ) : Reply × σ :=
  match e.runtime? x.context with
  | some runtime => respond runtime r s
  | none => (.error .shutDown, s)

/-- An execution goes on from one point to another, its requests being answered at once. -/
inductive Execution.Goes (library : Library) (respond : RuntimeId → Request → σ → Reply × σ) :
    Execution → Engine → σ → Execution → Engine → σ → Prop where
  | refl (x : Execution) (e : Engine) (s : σ) : Goes library respond x e s x e s
  | step {x x₁ x₂ : Execution} {e e₁ e₂ : Engine} {s s₂ : σ}
      (h : x.step library e = .goesOn x₁ e₁) (hrest : Goes library respond x₁ e₁ s x₂ e₂ s₂) :
      Goes library respond x e s x₂ e₂ s₂
  | ask {x x₂ : Execution} {e e₂ : Engine} {s s₂ : σ} {r : Request}
      (h : x.step library e = .asks r)
      (hrest : Goes library respond (x.answer (x.replyTo respond e r s).1) e
        (x.replyTo respond e r s).2 x₂ e₂ s₂) :
      Goes library respond x e s x₂ e₂ s₂

namespace Execution.Goes

variable {library : Library} {respond : RuntimeId → Request → σ → Reply × σ}
  {x x₁ x₂ : Execution} {e e₁ e₂ : Engine} {s s₁ s₂ : σ}

theorem trans (h : Goes library respond x e s x₁ e₁ s₁)
    (h' : Goes library respond x₁ e₁ s₁ x₂ e₂ s₂) : Goes library respond x e s x₂ e₂ s₂ := by
  induction h with
  | refl => exact h'
  | step hstep _ ih => exact .step hstep (ih h')
  | ask hstep _ ih => exact .ask hstep (ih h')

theorem run (h : Goes library respond x e s x₁ e₁ s₁) {ending : Ending}
    (hend : x₁.step library e₁ = .ends ending) :
    ∃ fuel, Execution.run library respond fuel x e s = some (ending, e₁, s₁) := by
  induction h with
  | refl x e s =>
      refine ⟨1, ?_⟩
      simp only [Execution.run, hend]
  | step hstep _ ih =>
      obtain ⟨fuel, hfuel⟩ := ih hend
      refine ⟨fuel + 1, ?_⟩
      simp only [Execution.run, hstep]
      exact hfuel
  | ask hstep _ ih =>
      obtain ⟨fuel, hfuel⟩ := ih hend
      refine ⟨fuel + 1, ?_⟩
      simp only [Execution.run, hstep]
      exact hfuel

end Execution.Goes

/-- An engine whose gates are open and whose contexts are these. -/
structure Engine.Open (e : Engine) (contexts : List Context) : Prop where
  contexts_eq : e.contexts = contexts
  isOpenHouse : e.board.isOpenHouse = true

theorem Tame.goes {library : Library} {g : Globals} {outcome : Except Failure (List Value)}
    {code : Program (List Value)} (h : Tame library g outcome code) (hvisible : Visible outcome)
    {c : ContextId} {e : Engine} (respond : RuntimeId → Request → σ → Reply × σ) (s : σ)
    (function : String) (suspended : Bool) (frame : Frame) (rest : List Frame)
    (hg : e.globals c = g) (hopen : e.board.isOpenHouse = true) :
    ∃ e' s', Execution.Goes library respond ⟨c, function, code, frame :: rest, suspended⟩ e s
      ⟨c, function, frame.goOn outcome, rest, suspended⟩ e' s' ∧ e'.Open e.contexts := by
  induction h generalizing e s frame rest with
  | done results => exact ⟨e, s, .step rfl (.refl _ _ _), rfl, hopen⟩
  | fail failure =>
      cases failure with
      | panic => cases hvisible
      | script | message => exact ⟨e, s, .step rfl (.refl _ _ _), rfl, hopen⟩
  | readGlobal name h ih =>
      obtain ⟨e', s', hgoes, he'⟩ := ih hvisible s frame rest hg hopen
      subst hg
      exact ⟨e', s', .step rfl hgoes, he'⟩
  | globalNames h ih =>
      obtain ⟨e', s', hgoes, he'⟩ := ih hvisible s frame rest hg hopen
      subst hg
      exact ⟨e', s', .step rfl hgoes, he'⟩
  | suspend h ih =>
      obtain ⟨e', s', hgoes, he'⟩ := ih hvisible s frame rest hg hopen
      refine ⟨e', s', .step ?_ hgoes, he'⟩
      simp [Execution.step]
  | @call outcome inner function' f arguments next hf _ hvisible' _ ih ih' =>
      obtain ⟨e₁, s₁, hgoes₁, he₁⟩ :=
        ih hvisible' s (.call function' next) (frame :: rest) hg hopen
      obtain ⟨e₂, s₂, hgoes₂, he₂⟩ :=
        ih' hvisible s₁ frame rest ((Engine.globals_of_contexts he₁.contexts_eq c).trans hg) he₁.isOpenHouse
      refine ⟨e₂, s₂, .step ?_ (hgoes₁.trans hgoes₂), he₁.contexts_eq ▸ he₂⟩
      simp [Execution.step, hf]
  | callUnknown arguments hf h ih =>
      obtain ⟨e', s', hgoes, he'⟩ := ih hvisible s frame rest hg hopen
      refine ⟨e', s', .step ?_ hgoes, he'⟩
      simp [Execution.step, hf, Execution.withCode]
  | @load outcome inner chunk source next _ hvisible' _ ih ih' =>
      obtain ⟨e₁, s₁, hgoes₁, he₁⟩ := ih hvisible' s (.load next) (frame :: rest) hg hopen
      obtain ⟨e₂, s₂, hgoes₂, he₂⟩ :=
        ih' hvisible s₁ frame rest ((Engine.globals_of_contexts he₁.contexts_eq c).trans hg) he₁.isOpenHouse
      exact ⟨e₂, s₂, .step rfl (hgoes₁.trans hgoes₂), he₁.contexts_eq ▸ he₂⟩
  | findRuntime h ih | readCounter h ih =>
      obtain ⟨e', s', hgoes, he'⟩ := ih _ hvisible s frame rest hg hopen
      exact ⟨e', s', .step rfl hgoes, he'⟩
  | mintHandle h ih =>
      obtain ⟨e', s', hgoes, he'⟩ := ih _ hvisible (e := e.mintHandle.2) s frame rest hg hopen
      exact ⟨e', s', .step rfl hgoes, he'⟩
  | print line h ih =>
      obtain ⟨e', s', hgoes, he'⟩ := ih hvisible (e := e.print line) s frame rest hg hopen
      exact ⟨e', s', .step rfl hgoes, he'⟩
  | note text h ih =>
      obtain ⟨e', s', hgoes, he'⟩ := ih hvisible (e := e.note text) s frame rest hg hopen
      exact ⟨e', s', .step rfl hgoes, he'⟩
  | passGate gate h ih =>
      obtain ⟨e', s', hgoes, he'⟩ := ih hvisible s frame rest hg hopen
      refine ⟨e', s', .step ?_ hgoes, he'⟩
      simp [Execution.step, Board.isOpen, hopen, Execution.withCode]
  | writeCounter n h ih =>
      obtain ⟨e', s', hgoes, he'⟩ := ih hvisible (e := e.setCounter n) s frame rest hg hopen
      exact ⟨e', s', .step rfl hgoes, he'⟩
  | request hr h ih =>
      obtain ⟨e', s', hgoes, he'⟩ := ih _ hvisible _ frame rest hg hopen
      exact ⟨e', s', .ask rfl hgoes, he'⟩

end Goes

end ScriptPool

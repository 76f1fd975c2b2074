import ScriptPool.Proofs.Pool.ResizeCall
import ScriptPool.Proofs.Pool.Settling

namespace ScriptPool

/-- A coordinator with a single thread of the host reaches the world. -/
def World.OneHosted (library : Library) (w : World) : Prop :=
  ∃ engine main poolSize, Reachable library (World.initial engine main poolSize 0) w

/-- With a single thread of the host, a thread waits at some place for the number of workers to
become `n`. -/
structure World.Waits (library : Library) (me : ThreadId) (n : Nat) (place : ResizePlace)
    (w : World) : Prop where
  reached : w.OneHosted library
  asking : w.asking? me = some (.resize n place)

/-- Threads take steps, and one of them waits for the number of workers to become `n` all the
while. -/
inductive World.Onward (library : Library) (me : ThreadId) (n : Nat) (w : World) : World → Prop where
  | refl : World.Onward library me n w w
  | step {v v' : World} (h : World.Onward library me n w v) (thread : ThreadId)
      (hv : v.advance library 0 thread = some v') (hwaits : v'.isResizing me n = true) :
      World.Onward library me n w v'

/-- Steps of threads lead to a place of the request where some goal is reached, unless it is about to
be replied to before. -/
def World.Leads (library : Library) (me : ThreadId) (n : Nat) (goal : ResizePlace → World → Prop)
    (w : World) : Prop :=
  ∃ v, World.Onward library me n w v ∧
    ((v.resizeReply? me).isSome = true ∨ ∃ place, World.Waits library me n place v ∧ goal place v)

/-- Steps of threads lead to the reply. -/
def World.Answerable (library : Library) (me : ThreadId) (n : Nat) (w : World) : Prop :=
  World.Leads library me n (fun _ _ => False) w

variable {library : Library} {n : Nat} {me thread : ThreadId} {u v w w' : World}
  {place place' : ResizePlace} {goal goal' : ResizePlace → World → Prop}

namespace World.Onward

theorem trans (h : World.Onward library me n w v) (h' : World.Onward library me n v w') :
    World.Onward library me n w w' := by
  induction h' with
  | refl => exact h
  | step _ thread hv hwaits ih => exact ih.step thread hv hwaits

theorem run (h : World.Onward library me n w w') (hwaits : w.isResizing me n = true) :
    ∃ moves, (∀ m ∈ moves, ∃ thread, m = .step 0 thread) ∧ Run library w moves w' ∧
      w.throughout library (World.isResizing me n) moves = true := by
  induction h with
  | refl => exact ⟨[], nofun, .start, hwaits⟩
  | @step v v' h thread hv hwaits ih =>
      obtain ⟨moves, hsteps, hrun, hkept⟩ := ih
      have hmove : v.move? library (.step 0 thread) = some v' := hv
      refine ⟨moves ++ [.step 0 thread], ?_, hrun.move _ hmove, ?_⟩
      · intro m hm
        rcases List.mem_append.mp hm with hm | hm
        · exact hsteps m hm
        · exact ⟨thread, List.mem_singleton.mp hm⟩
      · apply hrun.throughout_append hkept
        have hv := hrun.of_throughout (List.prefix_refl _) hkept
        simp [World.throughout, hmove, hv, hwaits]

end World.Onward

namespace World.Leads

theorem of_onward (h : World.Onward library me n w v) (hv : v.Leads library me n goal) :
    w.Leads library me n goal := by
  obtain ⟨v', honward, hgoal⟩ := hv
  exact ⟨v', h.trans honward, hgoal⟩

theorem trans (h : w.Leads library me n goal)
    (hgoal : ∀ place v, Waits library me n place v → goal place v → v.Leads library me n goal') :
    w.Leads library me n goal' := by
  obtain ⟨v, honward, hreply | ⟨place, hv, hv'⟩⟩ := h
  · exact ⟨v, honward, .inl hreply⟩
  · exact .of_onward honward (hgoal place v hv hv')

end World.Leads

theorem World.Answerable.onward (h : w.Answerable library me n) :
    ∃ v, World.Onward library me n w v ∧ (v.resizeReply? me).isSome = true := by
  obtain ⟨v, honward, hreply | ⟨_, -, hno⟩⟩ := h
  · exact ⟨v, honward, hreply⟩
  · exact hno.elim

namespace World.Waits

theorem isResizing (hw : Waits library me n place w) : w.isResizing me n = true :=
  World.isResizing_iff.mpr ⟨place, hw.asking⟩

theorem other (hw : Waits library me n place w) (hne : thread ≠ me)
    (hadv : w.advance library 0 thread = some w') : Waits library me n place w' := by
  obtain ⟨⟨engine, main, poolSize, hreached⟩, hask⟩ := hw
  refine ⟨⟨engine, main, poolSize, ?_⟩, ?_⟩
  · exact hreached.trans (reachable_of_move (m := .step 0 thread) hadv)
  · exact ((World.advance_stride hadv).asking?_of_ne (Ne.symm hne)).trans hask

/-- If the request can take a step that leads below a rank, then it is about to be replied to, or its
thread goes on to a place below that rank. -/
theorem proceed {α : Type} [LT α] {rank : ResizePlace → α} {bound : α}
    (hw : Waits library me n place w) (h : Nears rank bound (resizeStep n me w place)) :
    (w.resizeReply? me).isSome = true ∨ ∃ place' u w', place.Goes n me w u place' ∧
      w.advance library 0 me = some w' ∧ Waits library me n place' w' ∧ w'.scene = u.scene ∧
      w'.estate = u.estate ∧ rank place' < bound := by
  obtain ⟨u, stage, hs, hless⟩ := h
  obtain ⟨⟨engine, main, poolSize, hreached⟩, hasking⟩ := hw
  cases stage with
  | «over» reply =>
      left
      rw [(World.resizeReply?_eq_some_iff hasking).mpr ⟨u, hs⟩]
      rfl
  | going place' =>
      right
      have hask : askingStep 0 me w (.resize n place) = some (u, .going (.resize n place')) := by
        simp only [askingStep, hs, Option.map_some]
      obtain ⟨w', hadv⟩ := Option.isSome_iff_exists.mp
        (World.advance_isSome hasking (Option.isSome_iff_exists.mpr ⟨_, hask⟩))
      obtain ⟨u', stage', hask', hestate, hscene, hnext⟩ := World.advance_estate hasking hadv
      rw [hask] at hask'
      cases hask'
      exact ⟨place', u, w', resizeStep_goes hs, hadv,
        ⟨⟨engine, main, poolSize, hreached.trans (reachable_of_move (m := .step 0 me) hadv)⟩, hnext⟩,
        hscene, hestate, hless place' rfl⟩

theorem descend {α : Type} [Preorder α] [WellFoundedLT α] (rank : ResizePlace → World → α)
    {Q : ResizePlace → World → Prop}
    (hstep : ∀ place v, Waits library me n place v → Q place v →
      (v.resizeReply? me).isSome = true ∨ goal place v ∨ ∃ thread v' place',
        v.advance library 0 thread = some v' ∧ Waits library me n place' v' ∧ Q place' v' ∧
        rank place' v' < rank place v)
    (hw : Waits library me n place w) (hq : Q place w) : w.Leads library me n goal := by
  generalize hr : rank place w = r
  induction r using WellFoundedLT.induction generalizing place w with
  | ind r ih =>
      subst hr
      rcases hstep place w hw hq with hreply | hgoal | ⟨thread, v', place', hadv, hv', hq', hless⟩
      · exact ⟨w, .refl, .inl hreply⟩
      · exact ⟨w, .refl, .inr ⟨place, hw, hgoal⟩⟩
      · exact .of_onward (World.Onward.refl.step thread hadv hv'.isResizing) (ih _ hless hv' hq' rfl)

theorem reply_now {reply : Reply} (hw : Waits library me n place w)
    (h : resizeStep n me w place = some (v, .over reply)) : w.Leads library me n goal := by
  refine ⟨w, .refl, .inl ?_⟩
  rw [(World.resizeReply?_eq_some_iff hw.asking).mpr ⟨v, h⟩]
  rfl

end World.Waits

end ScriptPool

import ScriptPool.Proofs.Engine.Failing
import ScriptPool.Proofs.Pool.Touch

namespace ScriptPool

variable {library : Library} {R : ScriptError → Prop} {w w' : World} {me : ThreadId}
  {pick host : Nat}

/-- Code that a thread of the host runs, or an error that it got from such code. -/
def HostPlace.FailsWith (R : ScriptError → Prop) : HostPlace → Prop
  | .running activity => activity.execution.FailsWith (Failure.Scripted R)
  | .free (some (.ended (.returned (.errored e)))) => R e
  | _ => True

/-- A thread of the host runs code that fails with the property at most, or has run it. -/
def World.FailsWith (w : World) (host : Nat) (R : ScriptError → Prop) : Prop :=
  ∀ place, w.hosts[host]? = some place → place.FailsWith R

theorem activityStep_failsWith {activity : Activity} {stage : Stage Activity Ending}
    (hx : activity.execution.FailsWith (Failure.Scripted R))
    (h : activityStep library pick me w activity = some (w', stage)) :
    HostPlace.FailsWith R (match stage with
      | .going activity => .running activity
      | .over ending => .free (some (.ended ending))) := by
  cases activityStep_goes h with
  | asks | asked => exact hx
  | replied => exact hx.answer _
  | went hstep => exact hx.step hstep
  | @ended x ending hstep =>
      cases ending with
      | brokeOff text => trivial
      | returned outcome =>
          cases outcome with
          | completed | suspended => trivial
          | errored err =>
              obtain ⟨failure, ⟨e, rfl, he⟩, rfl⟩ := hx.ends hstep
              exact he

theorem hostStep_failsWith {place : HostPlace} (hplace : place.FailsWith R)
    (h : hostStep library pick host place w = some w') :
    ∃ (v : World) (place' : HostPlace), w' = v.placeHost host place' ∧ place'.FailsWith R := by
  obtain ⟨v, place', rfl, hgoes⟩ := hostStep_goes h
  refine ⟨v, place', rfl, ?_⟩
  cases hgoes with
  | opens | opened | asks | replied | closes | closed | measures | measured => trivial
  | runs hs | ended hs => exact activityStep_failsWith hplace hs

theorem World.FailsWith.placeHost {v : World} {place : HostPlace} (h : place.FailsWith R) :
    (v.placeHost host place).FailsWith host R := by
  intro place' hplace'
  rw [World.placeHost, List.getElem?_set_self'] at hplace'
  cases hold : v.hosts[host]? with
  | none =>
      rw [hold] at hplace'
      cases hplace'
  | some old =>
      rw [hold] at hplace'
      cases hplace'
      exact h

theorem World.FailsWith.advance (h : w.FailsWith host R)
    (hadvance : w.advance library pick me = some w') : w'.FailsWith host R := by
  by_cases hme : .host host = me
  · subst hme
    obtain ⟨place, hplace, hstep⟩ := World.advance_host_iff.mp hadvance
    obtain ⟨v, place', rfl, hplace'⟩ := hostStep_failsWith (h place hplace) hstep
    exact .placeHost hplace'
  · intro place hplace
    rw [(World.advance_stride hadvance).host_of_ne hme] at hplace
    exact h place hplace

theorem World.FailsWith.move {m : Move} (h : w.FailsWith host R)
    (hm : ∀ call, m ≠ .begin host call) (hmove : w.move? library m = some w') :
    w'.FailsWith host R := by
  cases m with
  | step pick thread => exact h.advance hmove
  | begin host' call =>
      obtain ⟨-, rfl⟩ := World.move?_begin_iff.mp hmove
      intro place hplace
      have hne : host' ≠ host := fun heq => hm call (heq ▸ rfl)
      refine h place ?_
      rw [← hplace]
      exact (List.getElem?_set_ne hne).symm
  | setGlobal context name value =>
      obtain ⟨-, rfl⟩ := World.move?_setGlobal_iff.mp hmove
      exact h
  | addContext | openGate | openAllGates | setBudget =>
      cases hmove
      exact h

theorem World.FailsWith.run {moves : List Move} (h : w.FailsWith host R)
    (hbegin : ∀ call, .begin host call ∉ moves) (hrun : Run library w moves w') :
    w'.FailsWith host R := by
  induction hrun using Run.head_induction with
  | nil => exact h
  | cons hv _ ih =>
      refine ih (h.move (fun call heq => ?_) hv) fun call hmem => ?_
      · exact hbegin call (heq ▸ List.mem_cons_self)
      · exact hbegin call (List.mem_cons_of_mem _ hmem)

section Schedule

variable {P : World → Prop}
  (hP : ∀ {w w' : World} {thread : ThreadId}, P w → w.advance library 0 thread = some w' → P w')
include hP

theorem World.attempt_keeps {thread : ThreadId} (h : P w)
    (hattempt : w.attempt library thread = some w') : P w' := by
  unfold World.attempt at hattempt
  split at hattempt
  · cases hattempt
  · exact hP h hattempt

theorem World.round_keeps (h : P w) : P (w.round library).1 := by
  unfold World.round
  refine List.foldlRecOn (motive := fun found : World × Bool => P found.1) _ _ h ?_
  rintro ⟨v, moved⟩ hv serial -
  dsimp only at hv ⊢
  split
  · next v' hv' => exact World.attempt_keeps hP hv hv'
  · exact hv

theorem World.finishCall_keeps (h : P w) (rounds : Nat) :
    P (w.finishCall library host rounds) := by
  induction rounds generalizing w with
  | zero => exact h
  | succ rounds ih =>
      unfold World.finishCall
      split
      · exact h
      · split
        · next v hv => exact ih (World.attempt_keeps hP h hv)
        · have hround := World.round_keeps hP h
          split
          · next v hv =>
              rw [hv] at hround
              exact ih hround
          · next v hv =>
              rw [hv] at hround
              exact hround

end Schedule

end ScriptPool

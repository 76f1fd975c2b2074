import ScriptPool.Proofs.Pool.Asking
import ScriptPool.Proofs.Pool.Ledger

namespace ScriptPool

/-- The request that goes on after a step of a request. -/
def Stage.asking? : Stage Asking Reply → Option Asking
  | .going a => some a
  | .over _ => none

variable {library : Library} {pick : Nat} {me : ThreadId} {w w' : World} {a a' : Asking}

theorem World.errand_of_asking (ha : w.asking? me = some a) : w.errand me = a.errand := by
  cases World.awaits_iff.mpr ha with
  | call h | code h =>
      rw [World.errand, Crew.errand, Crew.view, show w.crew.hosts[_]? = _ from h]
      rfl
  | task hworker hplace =>
      rw [World.errand_eq_view, World.view_worker hworker, hplace]
      rfl

theorem World.advance_asking (ha : w.asking? me = some a)
    (h : w.advance library pick me = some w') :
    ∃ v stage, askingStep pick me w a = some (v, stage) ∧ w'.scene = v.scene ∧
      w'.shutDown = v.shutDown ∧ w'.asking? me = stage.asking? := by
  obtain ⟨v, stage, hs, hserves⟩ := World.advance_serves ha h
  have hcrew := askingStep_crew hs
  have hhosts : v.hosts = w.hosts := hcrew.hosts_eq
  refine ⟨v, stage, hs, ?_⟩
  rw [World.asking?_eq_view]
  cases hserves with
  | call hplace | code hplace =>
      rw [← hhosts] at hplace
      rw [World.view_placeHost (List.getElem?_eq_some_iff.mp hplace).1]
      cases stage with
      | going | «over» => exact ⟨rfl, rfl, rfl⟩
  | task hworker hplace =>
      obtain ⟨worker', hworker', hplace'⟩ := hcrew.worker_eq hworker
      rw [World.placeWorker, World.view_modifyWorker hworker']
      refine ⟨World.scene_running hworker' (hplace'.trans hplace) _, rfl, ?_⟩
      cases stage with
      | going | «over» => rfl

theorem activityStep_fresh {v : World} {x : Execution} {activity : Activity}
    (h : activityStep library pick me w ⟨x, none⟩ = some (v, .going activity))
    (ha : activity.asking? = some a) : ∃ r source, a = Request.begin source r := by
  cases activityStep_goes h with
  | went => cases ha
  | asked =>
      cases ha
      exact ⟨_, _, rfl⟩

theorem World.advance_fresh (hnone : w.asking? me = none)
    (h : w.advance library pick me = some w') (ha : w'.asking? me = some a) :
    ∃ r source, a = Request.begin source r := by
  have hstride := World.advance_stride h
  cases me with
  | host host =>
      obtain ⟨place, hplace, h⟩ := World.advance_host_iff.mp h
      obtain ⟨v, place', rfl, hgoes⟩ := hostStep_goes h
      have hlt := (List.getElem?_eq_some_iff.mp hplace).1
      have hhosts : v.hosts = w.hosts := hgoes.crew.hosts_eq
      rw [World.asking?_eq_view, World.view_host hplace] at hnone
      rw [World.asking?_eq_view, World.view_placeHost (hhosts ▸ hlt)] at ha
      cases hgoes with
      | asks | replied => cases hnone
      | @runs activity activity' _ hs =>
          obtain ⟨x, b?⟩ := activity
          cases hnone
          exact activityStep_fresh hs ha
      | opens | opened | closes | closed | measures | measured | ended => cases ha
  | worker serial =>
      cases hstride with
      | own _ _ _ _ _ _ _ hasking =>
          rw [hasking, hnone] at ha
          cases ha
      | errand hcode =>
          obtain ⟨worker, hworker, h⟩ := World.advance_worker_iff.mp h
          obtain ⟨place, hplace, hgoes⟩ := workerStep_goes h
          rw [World.asking?_eq_view, World.view_worker hworker, hplace] at hnone
          rw [World.asking?_eq_view] at ha
          obtain ⟨hand, once, s, activity, hhand, hcode⟩ := hcode
          rw [World.scene_hands_getElem? hworker] at hhand
          cases hhand
          rw [Hand.bare, Worker.hand, hplace] at hcode
          cases hgoes with
          | went once hs =>
              cases hs with
              | @ran activity activity' v hs =>
                  obtain ⟨x, b?⟩ := activity
                  cases hnone
                  obtain ⟨worker', hworker', -⟩ := (activityStep_crew hs).worker_eq hworker
                  rw [World.placeWorker, World.view_modifyWorker hworker'] at ha
                  exact activityStep_fresh hs ha
              | ended =>
                  rw [World.placeWorker, World.view_modifyWorker hworker] at ha
                  cases ha
              | _ => cases hcode
          | _ => cases hcode

theorem Run.watch {B : World → Prop} {P : Crew → Asking → Prop} {moves : List Move}
    (hbegin : ∀ c r source, P c (Request.begin source r))
    (hme : ∀ pick v u a a', B v → v.asking? me = some a →
      askingStep pick me v a = some (u, .going a') → P v.scene a → P u.scene a')
    (hother : ∀ pick thread v v' a, thread ≠ me → B v → B v' → v.asking? me = some a →
      v.advance library pick thread = some v' → P v.scene a → P v'.scene a)
    (h : Run library w moves w')
    (hB : ∀ before v, before <+: moves → Run library w before v → B v)
    (hstart : ∀ a, w.asking? me = some a → P w.scene a) :
    ∀ a, w'.asking? me = some a → P w'.scene a := by
  induction h with
  | start => exact hstart
  | @move moves v v' h m hm ih =>
      have hv := hB moves v (List.prefix_append _ _) h
      have hv' := hB (moves ++ [m]) v' (List.prefix_refl _) (h.move m hm)
      have ih := ih fun before u hbefore => hB before u (hbefore.trans (List.prefix_append _ _))
      intro a ha
      rcases World.move?_stride hm with ⟨pick, thread, -, hadv, hstride⟩ | hstir
      · by_cases hthread : me = thread
        · subst hthread
          cases hask : v.asking? me with
          | none =>
              obtain ⟨r, source, rfl⟩ := World.advance_fresh hask hadv ha
              exact hbegin _ r source
          | some b =>
              obtain ⟨u, stage, hs, hscene, -, hstage⟩ := World.advance_asking hask hadv
              rw [ha] at hstage
              cases stage with
              | going b' =>
                  cases hstage
                  rw [hscene]
                  exact hme pick v u b a hv hask hs (ih b hask)
              | «over» => cases hstage
        · have hask : v.asking? me = some a := by rw [← hstride.asking?_of_ne hthread, ha]
          exact hother pick thread v v' a (Ne.symm hthread) hv hv' hask hadv (ih a hask)
      · rcases hstir.asking me with hsame | ⟨-, r, source, hfresh⟩
        · rw [hstir.scene_eq]
          exact ih a (by rw [← hsame, ha])
        · rw [ha] at hfresh
          cases hfresh
          exact hbegin _ r source

end ScriptPool

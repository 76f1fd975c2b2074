import ScriptPool.Proofs.Pool.Stride

namespace ScriptPool

/-- The world after some moves, or `none` if they are not possible one after another. -/
def World.follow (library : Library) (w : World) (moves : List Move) : Option World :=
  moves.foldlM (World.move? library) w

/-- Whether some moves are possible and all worlds on the way have a property. -/
def World.throughout (library : Library) (p : World → Bool) : World → List Move → Bool
  | w, [] => p w
  | w, m :: moves => p w && (w.move? library m).any fun v => v.throughout library p moves

/-- The thread that takes a step. -/
def Move.thread? : Move → Option ThreadId
  | .step _ thread => some thread
  | .begin .. | .addContext | .setGlobal .. | .openGate _ | .openAllGates | .setBudget _ => none

/-- What is noted of the steps that threads take along some moves, in order. -/
def World.notes {α : Type} (library : Library) (note : World → ThreadId → Option α) :
    World → List Move → List α
  | _, [] => []
  | w, m :: moves =>
    (m.thread?.bind (note w)).toList ++
      (w.move? library m).elim [] fun v => v.notes library note moves

variable {library : Library} {u v w w' : World} {m : Move} {moves moves' : List Move}

theorem run_iff_follow : Run library w moves w' ↔ w.follow library moves = some w' := by
  constructor
  · intro h
    induction h with
    | start => rfl
    | move _ m hm ih =>
        rw [World.follow, List.foldlM_append]
        rw [World.follow] at ih
        simp [ih, hm]
  · intro h
    induction moves generalizing w with
    | nil =>
        cases h
        exact .start
    | cons m moves ih =>
        rw [World.follow, List.foldlM_cons] at h
        obtain ⟨v, hv, h⟩ := Option.bind_eq_some_iff.mp h
        exact (Run.start.move m hv).trans (ih h)

theorem Run.cons_iff :
    Run library w (m :: moves) w' ↔ ∃ v, w.move? library m = some v ∧ Run library v moves w' := by
  simp only [run_iff_follow, World.follow, List.foldlM_cons]
  exact Option.bind_eq_some_iff

@[elab_as_elim]
theorem Run.head_induction {motive : ∀ (w : World) (moves : List Move), Run library w moves w' → Prop}
    (nil : motive w' [] .start)
    (cons : ∀ {w v : World} {m : Move} {moves : List Move} (hv : w.move? library m = some v)
      (h : Run library v moves w'), motive v moves h →
      motive w (m :: moves) (Run.cons_iff.mpr ⟨v, hv, h⟩))
    (h : Run library w moves w') : motive w moves h := by
  induction moves generalizing w with
  | nil =>
      have heq := run_iff_follow.mp h
      cases heq
      exact nil
  | cons m moves ih =>
      obtain ⟨v, hv, hrest⟩ := Run.cons_iff.mp h
      exact cons hv hrest (ih hrest)

theorem Run.split (h : Run library w (moves ++ moves') w') :
    ∃ v, Run library w moves v ∧ Run library v moves' w' := by
  simp only [run_iff_follow, World.follow, List.foldlM_append] at h ⊢
  exact Option.bind_eq_some_iff.mp h

theorem Run.throughout {p : World → Bool} (h : Run library w moves w')
    (hp : w.throughout library p (moves ++ moves') = true) :
    w'.throughout library p moves' = true := by
  induction h using Run.head_induction with
  | nil => exact hp
  | cons hv _ ih =>
      simp only [List.cons_append, World.throughout, hv, Option.any_some, Bool.and_eq_true] at hp
      exact ih hp.2

theorem World.throughout_head {p : World → Bool} (hp : w.throughout library p moves = true) :
    p w = true := by
  cases moves with
  | nil => exact hp
  | cons m moves =>
      simp only [World.throughout, Bool.and_eq_true] at hp
      exact hp.1

theorem World.throughout_left {p : World → Bool}
    (hp : w.throughout library p (moves ++ moves') = true) :
    w.throughout library p moves = true := by
  induction moves generalizing w with
  | nil => exact World.throughout_head hp
  | cons m moves ih =>
      simp only [List.cons_append, World.throughout, Bool.and_eq_true, Option.any_eq_true] at hp ⊢
      obtain ⟨hw, v, hv, hp⟩ := hp
      exact ⟨hw, v, hv, ih hp⟩

theorem Run.throughout_append {p : World → Bool} (h : Run library w moves v)
    (hp : w.throughout library p moves = true) (hp' : v.throughout library p moves' = true) :
    w.throughout library p (moves ++ moves') = true := by
  induction h using Run.head_induction with
  | nil => exact hp'
  | cons hu _ ih =>
      simp only [List.cons_append, World.throughout, hu, Option.any_some, Bool.and_eq_true] at hp ⊢
      exact ⟨hp.1, ih hp.2⟩

theorem World.throughout_mono {p q : World → Bool}
    (hpq : ∀ {before v}, Run library w before v → p v = true → q v = true)
    (hp : w.throughout library p moves = true) : w.throughout library q moves = true := by
  induction moves generalizing w with
  | nil => exact hpq .start hp
  | cons m moves ih =>
      simp only [World.throughout, Bool.and_eq_true, Option.any_eq_true] at hp ⊢
      obtain ⟨hw, v, hv, hp⟩ := hp
      exact ⟨hpq .start hw, v, hv, ih (fun h => hpq (Run.cons_iff.mpr ⟨v, hv, h⟩)) hp⟩

theorem Run.of_throughout {p : World → Bool} {before : List Move} (h : Run library w before v)
    (hbefore : before <+: moves) (hp : w.throughout library p moves = true) : p v = true := by
  obtain ⟨after, rfl⟩ := hbefore
  exact World.throughout_head (h.throughout hp)

section Log

variable {α : Type} {note : World → ThreadId → Option α}

theorem World.notes_cons (hv : w.move? library m = some v) :
    w.notes library note (m :: moves) =
      (m.thread?.bind (note w)).toList ++ v.notes library note moves := by
  rw [World.notes, hv]
  rfl

theorem Run.notes_append (h : Run library w moves v) :
    w.notes library note (moves ++ moves') =
      w.notes library note moves ++ v.notes library note moves' := by
  induction h using Run.head_induction with
  | nil => rfl
  | cons hu _ ih =>
      rw [List.cons_append, World.notes_cons hu, World.notes_cons hu, ih, List.append_assoc]

theorem Run.notes_snoc (h : Run library u moves v) (hm : v.move? library m = some w) :
    u.notes library note (moves ++ [m]) =
      u.notes library note moves ++ (m.thread?.bind (note v)).toList := by
  rw [h.notes_append, World.notes_cons hm, World.notes, List.append_nil]

theorem Run.keeps_notes {P : World → List α → Prop}
    (hadvance : ∀ {pick thread v w log}, P v log → v.advance library pick thread = some w →
      P w (log ++ (note v thread).toList))
    (hstir : ∀ {v w log}, P v log → Stir v w → P w log) (hstart : P u [])
    (h : Run library u moves w) : P w (u.notes library note moves) := by
  induction h with
  | start => exact hstart
  | @move moves v w h m hm ih =>
      rw [h.notes_snoc hm]
      rcases World.move?_stride hm with ⟨pick, thread, rfl, hstep, -⟩ | hstir'
      · exact hadvance ih hstep
      · cases m with
        | step pick thread => exact hadvance ih hm
        | begin | addContext | setGlobal | openGate | openAllGates | setBudget =>
            simpa only [Move.thread?, Option.bind_none, Option.toList_none, List.append_nil]
              using hstir ih hstir'

end Log

/-- A library whose only function returns `true`. -/
def soloLibrary : Library := ⟨[("f", constantFunction [.boolean true])]⟩

/-- A coordinator with one worker and one thread of the host. -/
def soloStart : World :=
  World.initial (Engine.initial "solo" none).createContext.2 0 1 0

/-- The coordinator is started, and a call is submitted. -/
def soloSubmitted : List Move :=
  List.replicate 4 (.step 0 (.host 0)) ++ [.begin 0 (.ask 0 (.parallel "x = f()"))] ++
    List.replicate 12 (.step 0 (.host 0))

end ScriptPool

import ScriptPool.Proofs.Pool.JoinBarrier
import ScriptPool.Proofs.Section.Trace

/-!
Critical sections exclude each other.

As far as one section goes, what threads do to it is a word over "taken" and "freed" in which it is
taken only while it is free and in which a release knows whether it was taken. Everything about
exclusion follows from this.
-/

namespace ScriptPool

namespace SectionDeed

variable {name : String} {held : Bool} {deeds deeds' between rest : List SectionDeed}

/-- Whether a deed is possible as far as one section goes. -/
def Fits (name : String) (held : Bool) : SectionDeed → Prop
  | .entered _ => True
  | .taken other => name = other → held = false
  | .freed other wasHeld => name = other → wasHeld = held

/-- Deeds that are possible one after another as far as one section goes. -/
def Lawful (name : String) : Bool → List SectionDeed → Prop
  | _, [] => True
  | held, d :: deeds => d.Fits name held ∧ Lawful name (d.leaves name held) deeds

/-- Whether a section is taken after some deeds. -/
def heldAfter (name : String) (held : Bool) (deeds : List SectionDeed) : Bool :=
  deeds.foldl (fun held d => d.leaves name held) held

theorem lawful_append :
    Lawful name held (deeds ++ deeds') ↔
      Lawful name held deeds ∧ Lawful name (heldAfter name held deeds) deeds' := by
  induction deeds generalizing held with
  | nil => simp [Lawful, heldAfter]
  | cons d deeds ih => simp [Lawful, heldAfter, ih, and_assoc]

theorem Lawful.count_taken (h : Lawful name held deeds) :
    deeds.count (.taken name) + held.toNat =
      deeds.count (.freed name true) + (heldAfter name held deeds).toNat := by
  induction deeds generalizing held with
  | nil => rfl
  | cons d deeds ih =>
      obtain ⟨hfits, hrest⟩ := h
      have hcount := ih hrest
      rw [show heldAfter name held (d :: deeds) = heldAfter name (d.leaves name held) deeds from rfl,
        List.count_cons, List.count_cons]
      cases d with
      | entered other => simpa [leaves] using hcount
      | taken other =>
          by_cases hname : name = other
          · obtain rfl := hfits hname
            subst hname
            simp only [leaves, if_true, Bool.toNat_true] at hcount ⊢
            simpa [Nat.add_right_comm] using hcount
          · simpa [leaves, hname, Ne.symm hname] using hcount
      | freed other wasHeld =>
          by_cases hname : name = other
          · obtain rfl := hfits hname
            subst hname
            simp only [leaves, if_true, Bool.toNat_false] at hcount ⊢
            cases wasHeld with
            | true =>
                simp only [BEq.rfl, if_true, Bool.toNat_true, Nat.add_zero, reduceCtorEq,
                  beq_iff_eq, if_false] at hcount ⊢
                omega
            | false => simpa using hcount
          · simpa [leaves, hname, Ne.symm hname] using hcount

theorem Lawful.freed_between (h : Lawful name true (between ++ .taken name :: rest)) :
    .freed name true ∈ between := by
  induction between with
  | nil => cases h.1 rfl
  | cons d between ih =>
      obtain ⟨hfits, hrest⟩ := h
      cases d with
      | entered other => exact List.mem_cons_of_mem _ (ih hrest)
      | taken other =>
          have hname : name ≠ other := fun hname => Bool.noConfusion (hfits hname)
          simp only [leaves, if_neg hname] at hrest
          exact List.mem_cons_of_mem _ (ih hrest)
      | freed other wasHeld =>
          by_cases hname : name = other
          · obtain rfl := hfits hname
            subst hname
            exact List.mem_cons_self
          · simp only [leaves, if_neg hname] at hrest
            exact List.mem_cons_of_mem _ (ih hrest)

end SectionDeed

variable {library : Library} {pick : Nat} {me thread : ThreadId} {w w' : World} {m : Move}
  {name : String} {moves : List Move} {deeds : List SectionDeed}

/-- Every request that has found its section finds it in the registry. -/
def World.Founded (w : World) : Prop :=
  ∀ thread a name, w.asking? thread = some a → a.section? = some name → name ∈ w.sections.names

theorem Request.begin_section? (source : ContextId) (r : Request) :
    (r.begin source).section? = none := by
  cases r with
  | acquire id | release id =>
      unfold Request.begin
      dsimp only
      split
      · rfl
      · rfl
  | parallel | join | joinAll | resize => rfl

theorem World.advance_names (h : w.advance library pick me = some w') :
    w'.sections.names = w.sections.names ∨
      ∃ name, w.sectionDeed? me = some (.entered name) ∧ name ∉ w.sections.names ∧
        w'.sections.names = w.sections.names ++ [name] := by
  rw [World.advance_sections h, World.sectionDeed?]
  cases w.asking? me with
  | none => exact .inl rfl
  | some a => exact Asking.names_sections

theorem World.mem_names_of_entered (h : w.advance library pick me = some w')
    (hd : w.sectionDeed? me = some (.entered name)) : name ∈ w'.sections.names := by
  rw [World.advance_sections h]
  rw [World.sectionDeed?] at hd
  cases hask : w.asking? me with
  | none =>
      rw [hask] at hd
      cases hd
  | some a =>
      rw [hask] at hd
      exact Asking.mem_names_of_entered hd

theorem World.advance_isHeld (hf : w.Founded) (h : w.advance library pick me = some w') :
    w'.sections.isHeld name =
      (w.sectionDeed? me).elim (w.sections.isHeld name) (·.leaves name (w.sections.isHeld name)) := by
  rw [World.advance_sections h, World.sectionDeed?]
  cases hask : w.asking? me with
  | none => rfl
  | some a => exact Asking.isHeld_sections fun other => hf me a other hask

theorem World.sectionDeed?_fits {d : SectionDeed} (hd : w.sectionDeed? me = some d) :
    d.Fits name (w.sections.isHeld name) := by
  obtain ⟨a, -, hd⟩ := Option.bind_eq_some_iff.mp hd
  unfold Asking.sectionDeed? at hd
  split at hd
  · cases hd
    trivial
  · split at hd
    · cases hd
    · cases hd
      next hfree =>
      rintro rfl
      exact Bool.eq_false_iff.mpr hfree
  · cases hd
    rintro rfl
    rfl
  · cases hd

theorem World.Founded.advance (hf : w.Founded) (h : w.advance library pick me = some w') :
    w'.Founded := by
  have hgrows {name : String} (hname : name ∈ w.sections.names) : name ∈ w'.sections.names := by
    rcases World.advance_names h with hsame | ⟨other, -, -, hnames⟩
    · rwa [hsame]
    · rw [hnames]
      exact List.mem_append_left _ hname
  intro thread a' name ha' hname
  by_cases hthread : thread = me
  · subst hthread
    cases hask : w.asking? thread with
    | none =>
        obtain ⟨r, source, rfl⟩ := World.advance_fresh hask h ha'
        rw [Request.begin_section?] at hname
        cases hname
    | some a =>
        obtain ⟨v, stage, hs, -, -, hstage⟩ := World.advance_asking hask h
        rcases askingStep_section? hs (hstage ▸ ha') hname with hbefore | hmem
        · exact hgrows (hf thread a name hask hbefore)
        · rwa [World.advance_sections h, hask]
  · rw [(World.advance_stride h).asking?_of_ne hthread] at ha'
    exact hgrows (hf thread a' name ha' hname)

theorem World.Founded.stir (hf : w.Founded) (hs : Stir w w') (hsame : w'.sections = w.sections) :
    w'.Founded := by
  intro thread a name ha hname
  rw [hsame]
  rcases hs.asking thread with heq | ⟨-, r, source, hbegin⟩
  · exact hf thread a name (heq ▸ ha) hname
  · rw [hbegin] at ha
    cases ha
    rw [Request.begin_section?] at hname
    cases hname

theorem World.move?_cases (h : w.move? library m = some w') :
    (∃ pick thread, m = .step pick thread ∧ w.advance library pick thread = some w') ∨
      (m.thread? = none ∧ w'.sections = w.sections ∧ (w.Founded → w'.Founded)) := by
  rcases World.move?_stride h with ⟨pick, thread, rfl, hadvance, -⟩ | hstir
  · exact .inl ⟨pick, thread, rfl, hadvance⟩
  · rcases World.move?_sections h with ⟨pick, thread, rfl⟩ | hsame
    · exact .inl ⟨pick, thread, rfl, h⟩
    · cases m with
      | step pick thread => exact .inl ⟨pick, thread, rfl, h⟩
      | begin | addContext | setGlobal | openGate | openAllGates | setBudget =>
          exact .inr ⟨rfl, hsame, fun hf => hf.stir hstir hsame⟩

theorem World.Founded.move (hf : w.Founded) (h : w.move? library m = some w') : w'.Founded := by
  rcases World.move?_cases h with ⟨pick, thread, -, hadvance⟩ | ⟨-, -, hkeeps⟩
  · exact hf.advance hadvance
  · exact hkeeps hf

theorem World.Founded.run (hf : w.Founded) (h : Run library w moves w') : w'.Founded := by
  induction h with
  | start => exact hf
  | move _ m hm ih => exact ih.move hm

theorem World.Founded.initial (engine : Engine) (main : ContextId) (poolSize others : Nat) :
    (World.initial engine main poolSize others).Founded := by
  intro thread a name ha
  have hnone := (MainLocked.initial engine main poolSize others).apt thread
  rw [World.asking?_eq_view] at ha
  cases thread with
  | worker i => cases ha
  | host host =>
      cases host with
      | zero => cases ha
      | succ host =>
          simp only [Crew.view, World.crew, World.initial, List.getElem?_cons_succ,
            List.getElem?_replicate] at ha
          split at ha
          · cases ha
          · cases ha

theorem Run.lawful (hf : w.Founded) (h : Run library w moves w') (name : String) :
    SectionDeed.Lawful name (w.sections.isHeld name) (w.sectionDeeds library moves) ∧
      w'.sections.isHeld name =
        SectionDeed.heldAfter name (w.sections.isHeld name) (w.sectionDeeds library moves) := by
  induction h using Run.head_induction with
  | nil => exact ⟨trivial, rfl⟩
  | @cons w v m moves hv _ ih =>
      obtain ⟨hlawful, hheld⟩ := ih (hf.move hv)
      rw [World.sectionDeeds, World.notes_cons hv]
      rcases World.move?_cases hv with ⟨pick, thread, rfl, hadvance⟩ | ⟨hnone, hsame, -⟩
      · have hstep : v.sections.isHeld name = (w.sectionDeed? thread).elim
            (w.sections.isHeld name) (·.leaves name (w.sections.isHeld name)) :=
          World.advance_isHeld hf hadvance
        rw [Move.thread?, Option.bind_some]
        cases hd : w.sectionDeed? thread with
        | none =>
            rw [hd] at hstep
            rw [hstep] at hlawful hheld
            exact ⟨hlawful, hheld⟩
        | some d =>
            rw [hd] at hstep
            rw [hstep] at hlawful hheld
            exact ⟨⟨World.sectionDeed?_fits hd, hlawful⟩, hheld⟩
      · rw [hnone]
        rw [hsame] at hlawful hheld
        exact ⟨hlawful, hheld⟩

/-- The sections of a world are those that acquires have entered, each of them once. -/
structure Registry.Entered (r : Registry) (deeds : List SectionDeed) : Prop where
  nodup : r.names.Nodup
  mem_iff : ∀ name, name ∈ r.names ↔ .entered name ∈ deeds

theorem Registry.Entered.advance (hr : w.sections.Entered deeds)
    (h : w.advance library pick me = some w') :
    w'.sections.Entered (deeds ++ (w.sectionDeed? me).toList) := by
  rcases World.advance_names h with hsame | ⟨name, hd, hnew, hnames⟩
  · constructor
    · rw [hsame]
      exact hr.nodup
    · intro name
      rw [List.mem_append, Option.mem_toList]
      constructor
      · intro hname
        exact .inl ((hr.mem_iff name).mp (hsame ▸ hname))
      · rintro (hmem | hd)
        · rw [hsame]
          exact (hr.mem_iff name).mpr hmem
        · exact World.mem_names_of_entered h hd
  · rw [hd]
    constructor
    · rw [hnames, List.nodup_append]
      refine ⟨hr.nodup, List.nodup_singleton name, ?_⟩
      rintro other hother _ hlast rfl
      rw [List.mem_singleton] at hlast
      exact hnew (hlast ▸ hother)
    · intro other
      rw [hnames, List.mem_append, List.mem_append, hr.mem_iff]
      simp

theorem Registry.Entered.run (hr : w.sections.Entered deeds) (h : Run library w moves w') :
    w'.sections.Entered (deeds ++ w.sectionDeeds library moves) := by
  induction h using Run.head_induction generalizing deeds with
  | nil => simpa [World.sectionDeeds, World.notes] using hr
  | cons hv _ ih =>
      rw [World.sectionDeeds, World.notes_cons hv, ← List.append_assoc]
      apply ih
      rcases World.move?_cases hv with ⟨pick, thread, rfl, hadvance⟩ | ⟨hnone, hsame, -⟩
      · exact hr.advance hadvance
      · rw [hnone, hsame]
        simpa using hr

theorem Run.names_prefix (h : Run library w moves w') :
    w.sections.names <+: w'.sections.names := by
  induction h with
  | start => exact List.prefix_refl _
  | move _ m hm ih =>
      refine ih.trans ?_
      rcases World.move?_cases hm with ⟨pick, thread, -, hadvance⟩ | ⟨-, hsame, -⟩
      · rcases World.advance_names hadvance with hsame | ⟨name, -, -, hnames⟩
        · rw [hsame]
        · rw [hnames]
          exact List.prefix_append _ _
      · rw [hsame]

/-- The name of the section that an acquire has entered. -/
def SectionDeed.entered? : SectionDeed → Option String
  | .entered name => some name
  | .taken _ | .freed .. => none

theorem Registry.Entered.size_eq {r : Registry} (hr : r.Entered deeds) :
    r.size = (deeds.filterMap (·.entered?)).toFinset.card := by
  have hnames : r.names.toFinset = (deeds.filterMap (·.entered?)).toFinset := by
    ext name
    rw [List.mem_toFinset, List.mem_toFinset, hr.mem_iff, List.mem_filterMap]
    constructor
    · exact fun hmem => ⟨_, hmem, rfl⟩
    · rintro ⟨d, hmem, hd⟩
      cases d with
      | entered other =>
          cases hd
          exact hmem
      | taken | freed => cases hd
  have hsize : r.size = r.names.length := (List.length_map _).symm
  rw [hsize, ← hnames, List.toFinset_card_of_nodup hr.nodup]

theorem World.acquire_returns_iff {place : AcquirePlace}
    (hask : w.asking? thread = some (.acquire name place))
    (h : w.advance library pick thread = some w') :
    w'.asking? thread = none ↔ w.sectionDeed? thread = some (.taken name) := by
  obtain ⟨v, stage, hs, -, -, hstage⟩ := World.advance_asking hask h
  rw [hstage, World.sectionDeed?, hask, Option.bind_some]
  cases place with
  | entering =>
      simp only [askingStep, acquireStep] at hs
      cases hfound : (w.sections.find? name).isSome with
      | false | true =>
          rw [hfound] at hs
          cases hs
          simp [Stage.asking?, Asking.sectionDeed?]
  | trying =>
      simp only [askingStep, acquireStep] at hs
      cases hheld : w.sections.isHeld name with
      | false | true =>
          rw [hheld] at hs
          cases hs
          simp [Stage.asking?, Asking.sectionDeed?, hheld]
  | sleeping =>
      cases hs
      simp [Stage.asking?, Asking.sectionDeed?]

theorem World.release_names {place : ReleasePlace}
    (hask : w.asking? thread = some (.release name place))
    (h : w.advance library pick thread = some w') : w'.sections.names = w.sections.names := by
  rcases World.advance_names h with hsame | ⟨other, hd, -, -⟩
  · exact hsame
  · rw [World.sectionDeed?, hask, Option.bind_some] at hd
    cases place with
    | looking | freeing | waking => cases hd

/-- Critical sections exclude each other, whatever threads do with them. A section that an acquire
has taken is freed by a release before another acquire takes it. It is held exactly while it was
taken once more than it was found taken by a release. The sections are those that acquires have
entered, one for each name; they stay what and where they are, and no release adds one. -/
theorem sections_exclude (library : Library) (engine : Engine) (main : ContextId)
    (poolSize others : Nat) (before during : List Move) (w w' : World) (deeds : List SectionDeed)
    (h : Run library (World.initial engine main poolSize others) before w)
    (h' : Run library w during w')
    (hdeeds : (World.initial engine main poolSize others).sectionDeeds library before = deeds) :
    (∀ name first between rest,
      deeds = first ++ .taken name :: (between ++ .taken name :: rest) →
        .freed name true ∈ between) ∧
    (∀ name,
      (w.sections.isHeld name = true ↔
        deeds.count (.taken name) = deeds.count (.freed name true) + 1) ∧
      (deeds.count (.taken name) = deeds.count (.freed name true) ∨
        deeds.count (.taken name) = deeds.count (.freed name true) + 1)) ∧
    (w.sections.names.Nodup ∧ (∀ name, name ∈ w.sections.names ↔ .entered name ∈ deeds) ∧
      w.sections.size = (deeds.filterMap (·.entered?)).toFinset.card ∧
      w.sections.names <+: w'.sections.names) ∧
    ∀ pick thread name v, w.advance library pick thread = some v →
      (∀ place, w.asking? thread = some (.acquire name place) →
        (v.asking? thread = none ↔ w.sectionDeed? thread = some (.taken name))) ∧
      (∀ place, w.asking? thread = some (.release name place) →
        v.sections.names = w.sections.names) := by
  have hlawful := h.lawful (World.Founded.initial engine main poolSize others)
  have hentered : (World.initial engine main poolSize others).sections.Entered [] :=
    ⟨List.nodup_nil, fun _ => iff_of_false List.not_mem_nil List.not_mem_nil⟩
  have hentered := hentered.run h
  rw [List.nil_append, hdeeds] at hentered
  simp only [hdeeds] at hlawful
  refine ⟨fun name first between rest hsplit => ?_, fun name => ?_,
    ⟨hentered.nodup, hentered.mem_iff, hentered.size_eq, h'.names_prefix⟩,
    fun pick thread name v hv => ⟨fun place hask => World.acquire_returns_iff hask hv,
      fun place hask => World.release_names hask hv⟩⟩
  · have hword := (hlawful name).1
    rw [hsplit, SectionDeed.lawful_append] at hword
    have hafter := hword.2.2
    simp only [SectionDeed.leaves, if_true] at hafter
    exact hafter.freed_between
  · obtain ⟨hword, hheld⟩ := hlawful name
    have hcount := hword.count_taken
    rw [← hheld] at hcount
    have hfree : (World.initial engine main poolSize others).sections.isHeld name = false := rfl
    rw [hfree, Bool.toNat_false] at hcount
    revert hcount
    cases w.sections.isHeld name with
    | true =>
        intro hcount
        exact ⟨iff_of_true rfl hcount, .inr hcount⟩
    | false =>
        intro hcount
        rw [Bool.toNat_false] at hcount
        exact ⟨iff_of_false Bool.false_ne_true (by omega), .inl hcount⟩

/-- A coordinator with two threads of the host and no workers. -/
def sectionStart : World :=
  World.initial (Engine.initial "pair" none).createContext.2 0 0 1

/-- Both threads acquire the same section; the second one sleeps until the first one has freed it
again. -/
def sectionMoves : List Move :=
  [.step 0 (.host 0), .begin 0 (.ask 0 (.acquire (.string "a")))] ++
  List.replicate 2 (.step 0 (.host 0)) ++
  [.begin 1 (.ask 0 (.acquire (.string "a")))] ++
  List.replicate 2 (.step 0 (.host 1)) ++
  [.begin 0 (.ask 0 (.release (.string "a")))] ++
  List.replicate 3 (.step 0 (.host 0)) ++
  List.replicate 2 (.step 0 (.host 1))

/-- The second of two threads takes a section once the first one has freed it. -/
theorem sections_exclude_pair : ∃ w, Run soloLibrary sectionStart sectionMoves w ∧
    (w.sections.isHeld "a" = true ↔ [SectionDeed.entered "a", .taken "a", .entered "a",
      .freed "a" true, .taken "a"].count (.taken "a") = 2) ∧
    w.sections.size = 1 := by
  have hruns : (sectionStart.follow soloLibrary sectionMoves).isSome = true := by
    decide +kernel
  have hdeeds : sectionStart.sectionDeeds soloLibrary sectionMoves =
      [.entered "a", .taken "a", .entered "a", .freed "a" true, .taken "a"] := by
    decide +kernel
  obtain ⟨w, hw⟩ := Option.isSome_iff_exists.mp hruns
  have h := run_iff_follow.mpr hw
  obtain ⟨-, hheld, ⟨-, -, hsize, -⟩, -⟩ := sections_exclude soloLibrary
    (Engine.initial "pair" none).createContext.2 0 0 1 sectionMoves [] w w _ h .start hdeeds
  exact ⟨w, h, (hheld "a").1, hsize⟩

end ScriptPool

import ScriptPool.Proofs.Pool.Stock

namespace ScriptPool

/-- Writes results one after another into a private context, and each from there into the main one:
the globals of both afterwards. -/
def Globals.writeBack : (names : List String) → (results : List Value) → (own main : Globals) →
    Globals × Globals
  | [], _, own, main => (own, main)
  | name :: names, results, own, main =>
    let (copy, own) := (own.set name (firstResult results)).takeOut name
    writeBack names results.tail own (main.set name copy)

/-- A block of steps under the lock of the main context. -/
inductive MainBlock where
  /-- A call is captured as a task. -/
  | capture (call : Call) (task : Task)
  /-- The outcome of a task is written back; the globals of the worker before and after. -/
  | deliver (s : Submission) (outcome : Invocation) (own own' : Globals)

namespace MainBlock

/-- What a block makes of the globals of the main context when nothing else happens meanwhile. Only
outcomes that are no errors are written. -/
def Takes (g g' : Globals) : MainBlock → Prop
  | .capture call task => Task.capture call g = (task, g')
  | .deliver s outcome own own' =>
    Globals.writeBack (if outcome.isHealthy then s.task.call.returns else []) outcome.results own g =
      (own', g')

/-- The results that a block writes, in order. -/
def pairs : MainBlock → List (String × Value)
  | .capture .. => []
  | .deliver s outcome _ _ =>
    resultPairs (if outcome.isHealthy then s.task.call.returns else []) outcome.results

/-- The result that a block leaves under a name. -/
def result? (b : MainBlock) (name : String) : Option Value :=
  b.pairs.reverse.lookup name

end MainBlock

/-- Blocks executed one at a time. -/
def Serial : List MainBlock → Globals → Globals → Prop
  | [], g, g' => g' = g
  | b :: blocks, g, g' => ∃ mid, b.Takes g mid ∧ Serial blocks mid g'

variable {g g' : Globals} {name : String} {blocks blocks' : List MainBlock} {b : MainBlock}
  {value v v' : Value}

theorem serial_append :
    Serial (blocks ++ blocks') g g' ↔ ∃ mid, Serial blocks g mid ∧ Serial blocks' mid g' := by
  induction blocks generalizing g with
  | nil => simp [Serial]
  | cons b blocks ih =>
      simp only [List.cons_append, Serial, ih]
      constructor
      · rintro ⟨u, hu, mid, hmid, h⟩
        exact ⟨mid, ⟨u, hu, hmid⟩, h⟩
      · rintro ⟨mid, ⟨u, hu, hmid⟩, h⟩
        exact ⟨u, hu, mid, hmid, h⟩

theorem Serial.snoc {mid : Globals} (h : Serial blocks g mid) (hb : b.Takes mid g') :
    Serial (blocks ++ [b]) g g' :=
  serial_append.mpr ⟨mid, h, g', hb, rfl⟩

/-- A value after it has been taken out some number of times: only marks of handles change. -/
def Descends (v v' : Value) : Prop :=
  ∃ times : Nat, v' = (fun v : Value => v.transfer.2)^[times] v

theorem Descends.refl (v : Value) : Descends v v :=
  ⟨0, rfl⟩

theorem Descends.trans {u : Value} (h : Descends v v') (h' : Descends v' u) : Descends v u := by
  obtain ⟨times, rfl⟩ := h
  obtain ⟨times', rfl⟩ := h'
  exact ⟨times' + times, (Function.iterate_add_apply _ _ _ _).symm⟩

theorem Globals.takeOut_descends (g : Globals) (name other : String) :
    Descends (g.get other) ((g.takeOut name).2.get other) := by
  unfold Globals.takeOut
  cases hvalue : g.get? name with
  | none => exact .refl _
  | some value =>
      dsimp only
      split
      · by_cases hother : other = name
        · subst hother
          rw [Globals.get_set_self]
          refine ⟨1, ?_⟩
          rw [Globals.get, hvalue]
          rfl
        · rw [Globals.get_set_of_ne _ hother]
          exact .refl _
      · exact .refl _

theorem Globals.takeOut_fst (g : Globals) (name : String) :
    (g.takeOut name).1 = (g.get name).transfer.1 := by
  unfold Globals.takeOut Globals.get
  cases g.get? name with
  | none | some => rfl

theorem Globals.get_takeOut_of_ne (g : Globals) {name other : String} (h : other ≠ name) :
    (g.takeOut name).2.get other = g.get other := by
  unfold Globals.takeOut
  cases g.get? name with
  | none => rfl
  | some value =>
      dsimp only
      split
      · exact Globals.get_set_of_ne _ h
      · rfl

theorem Snapshot.get?_capture {captured : Snapshot} (names : List String) (g : Globals)
    (name : String) :
    (Snapshot.capture captured names g).1.get? name =
      (captured.get? name).or
        (if name ∈ names then some (g.get name).transfer.1 else none) := by
  induction names generalizing captured g with
  | nil => simp [Snapshot.capture]
  | cons other names ih =>
      unfold Snapshot.capture
      split
      · next hfound =>
          rw [ih]
          cases hname : captured.get? name with
          | some value => rfl
          | none =>
              have hne : name ≠ other := by
                rintro rfl
                rw [hname] at hfound
                cases hfound
              simp [hne]
      · next hmissing =>
          dsimp only
          rw [ih, Snapshot.get?, List.lookup_append, Option.or_assoc]
          by_cases hname : name = other
          · subst hname
            simp [Globals.takeOut_fst, Snapshot.get?]
          · rw [List.lookup_cons, beq_false_of_ne hname, Globals.get_takeOut_of_ne _ hname]
            simp [hname, Snapshot.get?]

theorem Task.get?_capture {call : Call} (hname : name ∈ call.parameters) (g : Globals) :
    ((Task.capture call g).1.snapshot?.getD []).get? name = some (g.get name).transfer.1 := by
  have hsome : call.parameters.isEmpty = false := by
    cases hparameters : call.parameters with
    | nil => rw [hparameters] at hname; cases hname
    | cons => rfl
  unfold Task.capture
  rw [hsome]
  refine (Snapshot.get?_capture call.parameters g name).trans ?_
  rw [if_pos hname]
  rfl

theorem Snapshot.capture_descends {captured : Snapshot} (names : List String) (g : Globals)
    (other : String) :
    Descends (g.get other) ((Snapshot.capture captured names g).2.get other) := by
  induction names generalizing captured g with
  | nil => exact .refl _
  | cons name names ih =>
      unfold Snapshot.capture
      split
      · exact ih g
      · exact (g.takeOut_descends name other).trans (ih _)

theorem Task.capture_descends (call : Call) (g : Globals) (other : String) :
    Descends (g.get other) ((Task.capture call g).2.get other) := by
  unfold Task.capture
  split
  · exact .refl _
  · exact Snapshot.capture_descends _ _ _

theorem Globals.takeOut_set_fst (g : Globals) (name : String) (value : Value) :
    ((g.set name value).takeOut name).1 = value.transfer.1 := by
  unfold Globals.takeOut
  rw [Globals.get?_set_self]
  cases value with
  | nil => rfl
  | _ => rfl

theorem Globals.writeBack_snd (names : List String) (results : List Value) (own main : Globals) :
    (Globals.writeBack names results own main).2 =
      main.setAll ((resultPairs names results).map fun pair => (pair.1, pair.2.transfer.1)) := by
  induction names generalizing results own main with
  | nil => rfl
  | cons name names ih =>
      rw [Globals.writeBack, ih, Globals.takeOut_set_fst]
      rfl

theorem Globals.get_setAll (g : Globals) (pairs : List (String × Value)) (name : String) :
    (g.setAll pairs).get name = (pairs.reverse.lookup name).getD (g.get name) := by
  induction pairs generalizing g with
  | nil => rfl
  | cons pair pairs ih =>
      obtain ⟨other, value⟩ := pair
      have hcons : g.setAll ((other, value) :: pairs) = (g.set other value).setAll pairs := rfl
      rw [hcons, ih, List.reverse_cons, List.lookup_append]
      cases pairs.reverse.lookup name with
      | some found => rfl
      | none =>
          by_cases hname : name = other
          · subst hname
            simp [Globals.get_set_self]
          · rw [List.lookup_cons, beq_false_of_ne hname, Globals.get_set_of_ne _ hname]
            rfl

theorem MainBlock.Takes.get (h : b.Takes g g') (name : String) :
    (∃ v, b.result? name = some v ∧ g'.get name = v.transfer.1) ∨
      b.result? name = none ∧ Descends (g.get name) (g'.get name) := by
  cases b with
  | capture call task =>
      right
      have hg' : (Task.capture call g).2 = g' := congrArg Prod.snd h
      exact ⟨rfl, hg' ▸ Task.capture_descends call g name⟩
  | deliver s outcome own own' =>
      have hg' : (Globals.writeBack _ _ own g).2 = g' := congrArg Prod.snd h
      rw [Globals.writeBack_snd] at hg'
      subst hg'
      rw [Globals.get_setAll, MainBlock.result?, MainBlock.pairs]
      generalize resultPairs _ outcome.results = pairs
      have hlookup : (pairs.map fun pair => (pair.1, pair.2.transfer.1)).reverse.lookup name =
          (pairs.reverse.lookup name).map fun v => v.transfer.1 := by
        rw [← List.map_reverse]
        induction pairs.reverse with
        | nil => rfl
        | cons pair pairs ih =>
            rw [List.map_cons, List.lookup_cons, List.lookup_cons]
            split
            · rfl
            · exact ih
      rw [hlookup]
      cases pairs.reverse.lookup name with
      | some v => exact .inl ⟨v, rfl, rfl⟩
      | none => exact .inr ⟨rfl, .refl _⟩

/-- Some globals all come from one place: they are what they were at the start, or what one block
has written, but for marks. -/
def FromOne (names : List String) (start : Globals) (blocks : List MainBlock) (g : Globals) : Prop :=
  (∀ name ∈ names, Descends (start.get name) (g.get name)) ∨
    ∃ b ∈ blocks, ∀ name ∈ names, ∃ v, b.result? name = some v ∧
      Descends v.transfer.1 (g.get name)

/-- Whether a block writes all of some names or none of them. -/
def MainBlock.WritesWhole (names : List String) (b : MainBlock) : Prop :=
  (∀ name ∈ names, (b.result? name).isSome = true) ∨ ∀ name ∈ names, b.result? name = none

instance (names : List String) (b : MainBlock) : Decidable (b.WritesWhole names) :=
  inferInstanceAs (Decidable (_ ∨ _))

theorem MainBlock.Takes.fromOne {names : List String} {start : Globals} (h : b.Takes g g')
    (hwhole : b.WritesWhole names) (hg : FromOne names start blocks g) :
    FromOne names start (blocks ++ [b]) g' := by
  rcases hwhole with hall | hnone
  · right
    refine ⟨b, List.mem_append_right _ (List.mem_singleton_self b), fun name hname => ?_⟩
    rcases h.get name with ⟨v, hv, heq⟩ | ⟨hmissing, -⟩
    · exact ⟨v, hv, heq ▸ .refl _⟩
    · have hsome := hall name hname
      rw [hmissing] at hsome
      cases hsome
  · have hkept : ∀ name ∈ names, Descends (g.get name) (g'.get name) := by
      intro name hname
      rcases h.get name with ⟨v, hv, -⟩ | ⟨-, hdescends⟩
      · rw [hnone name hname] at hv
        cases hv
      · exact hdescends
    rcases hg with hstart | ⟨b', hmem, hb'⟩
    · exact .inl fun name hname => (hstart name hname).trans (hkept name hname)
    · refine .inr ⟨b', List.mem_append_left _ hmem, fun name hname => ?_⟩
      obtain ⟨v, hv, hdescends⟩ := hb' name hname
      exact ⟨v, hv, hdescends.trans (hkept name hname)⟩

theorem Serial.fromOne {names : List String} {start : Globals} (h : Serial blocks start g)
    (hwhole : ∀ b ∈ blocks, b.WritesWhole names) : FromOne names start blocks g := by
  induction blocks using List.reverseRecOn generalizing g with
  | nil =>
      cases h
      exact .inl fun name _ => .refl _
  | append_singleton blocks b ih =>
      obtain ⟨mid, hmid, u, hb, rfl⟩ := serial_append.mp h
      exact hb.fromOne (hwhole b (List.mem_append_right _ (List.mem_singleton_self b)))
        (ih hmid fun b' hb' => hwhole b' (List.mem_append_left _ hb'))

/-- A call that is captured between two blocks sees all that the blocks before it have written and
nothing of those after it. -/
theorem Serial.capture {call : Call} {task : Task} {start : Globals}
    (h : Serial (blocks ++ .capture call task :: blocks') start g) :
    ∃ mid, Serial blocks start mid ∧ (Task.capture call mid).1 = task := by
  obtain ⟨mid, hmid, u, htakes, -⟩ := serial_append.mp h
  exact ⟨mid, hmid, congrArg Prod.fst htakes⟩

end ScriptPool

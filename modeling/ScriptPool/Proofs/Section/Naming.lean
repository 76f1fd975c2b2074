import ScriptPool.Pool.Place
import ScriptPool.Proofs.Value.Equality
import ScriptPool.Proofs.Value.NumberText

namespace ScriptPool

open ScriptPool.Number ScriptPool.Number.Numeral

variable {text : String} {m n : Double} {a b : Value}

theorem Number.Numeral.Writes.read (h : Writes text n) :
    (Numeral.read text.toList).map Numeral.toDouble = some n := by
  obtain ⟨negative, body, digits, exponent, rfl, hbody, rfl⟩ := h
  rw [read_withSign negative hbody]
  rfl

theorem Number.Numeral.Writes.unique (hm : Writes text m) (hn : Writes text n) : m = n := by
  have hread := hm.read
  rw [hn.read] at hread
  exact (Option.some.inj hread).symm

theorem read_displayNumber_infinite (negative : Bool) :
    Numeral.read (Value.displayNumber (.infinite negative)).toList = none := by
  cases negative with
  | false | true => decide

theorem read_displayNumber_nan : Numeral.read (Value.displayNumber .nan).toList = none := by
  decide

theorem exists_writes_displayNumber_iff :
    (∃ k, Writes (Value.displayNumber n) k) ↔ ∃ negative x, n = .finite negative x := by
  constructor
  · rintro ⟨k, hwrites⟩
    have hread := hwrites.read
    cases n with
    | finite negative x => exact ⟨negative, x, rfl⟩
    | infinite negative =>
        rw [read_displayNumber_infinite] at hread
        cases hread
    | nan =>
        rw [read_displayNumber_nan] at hread
        cases hread
  · rintro ⟨negative, x, rfl⟩
    obtain ⟨k, hwrites, -⟩ := displayNumber_writes negative x
    exact ⟨k, hwrites⟩

theorem displayNumber_congr (h : m.equal n = true) :
    Value.displayNumber m = Value.displayNumber n := by
  cases m with
  | nan => cases h
  | infinite s =>
      cases n with
      | infinite t => rw [of_decide_eq_true h]
      | nan | finite => cases h
  | finite s x =>
      cases n with
      | nan | infinite => cases h
      | finite t y =>
          simp only [Double.equal, Bool.and_eq_true, Bool.or_eq_true, decide_eq_true_eq] at h
          obtain ⟨rfl, rfl | hzero⟩ := h
          · rfl
          · rw [Magnitude.units_eq_zero_iff.mp hzero, displayNumber_zero, displayNumber_zero]

theorem equal_of_displayNumber_finite {s t : Bool} {x y : Magnitude}
    (h : Value.displayNumber (.finite s x) = Value.displayNumber (.finite t y)) :
    (Double.finite s x).equal (.finite t y) = true := by
  obtain ⟨k, hwrites, hequal, -⟩ := displayNumber_writes s x
  obtain ⟨l, hwrites', hequal', -⟩ := displayNumber_writes t y
  rw [h] at hwrites
  obtain rfl := hwrites.unique hwrites'
  rw [Double.equal_comm] at hequal
  exact Double.equal_trans hequal hequal'

theorem displayNumber_infinite_inj {s t : Bool} :
    Value.displayNumber (.infinite s) = Value.displayNumber (.infinite t) ↔ s = t := by
  revert s t
  decide

theorem displayNumber_infinite_ne_nan (s : Bool) :
    Value.displayNumber (.infinite s) ≠ Value.displayNumber .nan := by
  revert s
  decide

theorem displayNumber_eq_iff : Value.displayNumber m = Value.displayNumber n ↔
    m.equal n = true ∨ m = .nan ∧ n = .nan := by
  constructor
  · intro h
    have hfinite : (∃ s x, m = .finite s x) ↔ ∃ t y, n = .finite t y := by
      rw [← exists_writes_displayNumber_iff, h, exists_writes_displayNumber_iff]
    by_cases hm : ∃ s x, m = .finite s x
    · obtain ⟨t, y, rfl⟩ := hfinite.mp hm
      obtain ⟨s, x, rfl⟩ := hm
      exact .inl (equal_of_displayNumber_finite h)
    · have hn := mt hfinite.mpr hm
      cases m with
      | finite s x => exact absurd ⟨s, x, rfl⟩ hm
      | infinite s =>
          cases n with
          | finite t y => exact absurd ⟨t, y, rfl⟩ hn
          | infinite t => exact .inl (decide_eq_true (displayNumber_infinite_inj.mp h))
          | nan => exact absurd h (displayNumber_infinite_ne_nan s)
      | nan =>
          cases n with
          | finite t y => exact absurd ⟨t, y, rfl⟩ hn
          | infinite t => exact absurd h.symm (displayNumber_infinite_ne_nan t)
          | nan => exact .inr ⟨rfl, rfl⟩
  · rintro (h | ⟨rfl, rfl⟩)
    · exact displayNumber_congr h
    · rfl

/-- An id of a section that is equal to itself: a string, or a number other than not-a-number. -/
def Value.IsSectionId : Value → Prop
  | .number n => n ≠ .nan
  | .string _ => True
  | _ => False

/-- Ids of the same section: equal numbers, equal strings, or a number and its text. -/
inductive SameSection : Value → Value → Prop
  | numbers {m n : Double} (h : m.equal n = true) : SameSection (.number m) (.number n)
  | strings (s : String) : SameSection (.string s) (.string s)
  | numberText (n : Double) : SameSection (.number n) (.string (Value.number n).display)
  | textNumber (n : Double) : SameSection (.string (Value.number n).display) (.number n)

theorem sameSection_numbers_iff : SameSection (.number m) (.number n) ↔ m.equal n = true := by
  constructor
  · rintro ⟨h⟩
    exact h
  · exact .numbers

theorem Value.IsSectionId.cases (h : a.IsSectionId) :
    (∃ n, a = .number n ∧ n ≠ .nan) ∨ ∃ s, a = .string s := by
  cases a with
  | number n => exact .inl ⟨n, rfl, h⟩
  | string s => exact .inr ⟨s, rfl⟩
  | nil | boolean | lightRef | table | handle => cases h

theorem Value.IsSectionId.sectionName_eq (h : a.IsSectionId) : sectionName a = .ok a.display := by
  obtain ⟨n, rfl, -⟩ | ⟨s, rfl⟩ := h.cases
  · rfl
  · rfl

theorem sameSection_iff (ha : a.IsSectionId) (hb : b.IsSectionId) :
    SameSection a b ↔ a.display = b.display := by
  constructor
  · rintro (h | s | n | n)
    · exact displayNumber_congr h
    · rfl
    · rfl
    · rfl
  · intro h
    obtain ⟨m, rfl, hm⟩ | ⟨s, rfl⟩ := ha.cases
    · obtain ⟨n, rfl, -⟩ | ⟨t, rfl⟩ := hb.cases
      · obtain hequal | ⟨hnan, -⟩ := displayNumber_eq_iff.mp h
        · exact .numbers hequal
        · exact absurd hnan hm
      · obtain rfl : (Value.number m).display = t := h
        exact .numberText m
    · obtain ⟨n, rfl, -⟩ | ⟨t, rfl⟩ := hb.cases
      · obtain rfl : s = (Value.number n).display := h
        exact .textNumber n
      · obtain rfl : s = t := h
        exact .strings s

/-- Two ids name the same section exactly if they are equal, or one of them is a number and the
other is its text. All that is not a number shares a name that no number has. So requests for
sections that numbers name meet exactly where the numbers are equal. -/
theorem section_ids_identified :
    (∀ a b : Value, a.IsSectionId → b.IsSectionId → (∃ name, sectionName a = .ok name) ∧
      (sectionName a = sectionName b ↔ SameSection a b)) ∧
    (∃ name, ∀ n : Double, sectionName (.number n) = .ok name ↔ n.equal n = false) ∧
    ∀ (c : ContextId) (m n : Double), m.equal m = true →
      ((Request.acquire (.number m)).begin c = (Request.acquire (.number n)).begin c ↔
        m.equal n = true) ∧
      ((Request.release (.number m)).begin c = (Request.release (.number n)).begin c ↔
        m.equal n = true) := by
  refine ⟨fun a b ha hb => ⟨⟨_, ha.sectionName_eq⟩, ?_⟩,
    ⟨Value.displayNumber .nan, fun n => ?_⟩, fun c m n hm => ?_⟩
  · rw [sameSection_iff ha hb, ha.sectionName_eq, hb.sectionName_eq, Except.ok.injEq]
  · have hnan : n.equal n = false ↔ n = .nan := by
      rw [Bool.eq_false_iff, ne_eq, Double.equal_self_iff, not_not]
    have hname : sectionName (.number n) = .ok (Value.displayNumber .nan) ↔
        Value.displayNumber n = Value.displayNumber .nan :=
      ⟨Except.ok.inj, congrArg Except.ok⟩
    rw [hname, displayNumber_eq_iff, hnan]
    constructor
    · rintro (h | ⟨rfl, -⟩)
      · cases n with
        | nan | infinite | finite => cases h
      · rfl
    · exact fun h => .inr ⟨h, rfl⟩
  · have hequal : Value.displayNumber m = Value.displayNumber n ↔ m.equal n = true := by
      rw [displayNumber_eq_iff, or_iff_left]
      rintro ⟨rfl, -⟩
      cases hm
    rw [← hequal]
    exact ⟨by simp [Request.begin, sectionName, Value.display],
      by simp [Request.begin, sectionName, Value.display]⟩

/-- The first whole number that takes the plain form. -/
def firstPlain : Double := .ofNat (10 ^ 15)

/-- The whole number before it. -/
def lastWhole : Double := .ofNat (10 ^ 15 - 1)

/-- Across the two ways of writing a number, ids of the same digits name one section and neighbours
two. The two zeros name one section, and the infinite numbers two. -/
theorem section_ids_identified_boundary :
    sectionName (.number firstPlain) = sectionName (.string "1000000000000000") ∧
    sectionName (.number firstPlain) ≠ sectionName (.number lastWhole) ∧
    sectionName (.number .zero) = sectionName (.number (.finite true .zero)) ∧
    sectionName (.number (.infinite true)) ≠ sectionName (.number (.infinite false)) := by
  have hplain : firstPlain ≠ .nan := by decide +kernel
  have hwhole : lastWhole ≠ .nan := by decide +kernel
  have htext : (Value.number firstPlain).display = "1000000000000000" := by decide +kernel
  have hdiffer : firstPlain.equal lastWhole = false := by decide +kernel
  obtain ⟨hids, -, -⟩ := section_ids_identified
  refine ⟨?_, ?_, ?_, ?_⟩
  · have hsame := SameSection.numberText firstPlain
    rw [htext] at hsame
    exact (hids (.number firstPlain) (.string _) hplain trivial).2.mpr hsame
  · rw [ne_eq, (hids (.number firstPlain) (.number lastWhole) hplain hwhole).2,
      sameSection_numbers_iff, hdiffer]
    decide
  · exact (hids (.number .zero) (.number (.finite true .zero)) nofun nofun).2.mpr
      (.numbers (by decide))
  · rw [ne_eq, (hids (.number (.infinite true)) (.number (.infinite false)) nofun nofun).2,
      sameSection_numbers_iff]
    decide

end ScriptPool

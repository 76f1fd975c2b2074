import ScriptPool.Proofs.Token.Spelling
import ScriptPool.Proofs.Value.NumberText

namespace ScriptPool

open ScriptPool.Number ScriptPool.Number.Numeral ScriptPool.Text ScriptPool.Token

namespace Text

/-- No line break is in a text. -/
def Unbroken (cs : List Char) : Prop :=
  '\n' ∉ cs ∧ '\r' ∉ cs

instance (cs : List Char) : Decidable (Unbroken cs) :=
  inferInstanceAs (Decidable (_ ∧ _))

variable {cs cs' : List Char}

theorem Unbroken.subset (h : Unbroken cs) (hsub : cs' ⊆ cs) : Unbroken cs' :=
  ⟨fun hmem => h.1 (hsub hmem), fun hmem => h.2 (hsub hmem)⟩

@[simp] theorem unbroken_append : Unbroken (cs ++ cs') ↔ Unbroken cs ∧ Unbroken cs' := by
  simp only [Unbroken, List.mem_append, not_or]
  tauto

@[simp] theorem unbroken_cons {c : Char} :
    Unbroken (c :: cs) ↔ (c ≠ '\n' ∧ c ≠ '\r') ∧ Unbroken cs := by
  simp only [Unbroken, List.mem_cons, not_or, ne_eq, @eq_comm _ _ c]
  tauto

theorem unbroken_of_all {p : Char → Prop} (h : ∀ c ∈ cs, p c) (hn : ¬ p '\n') (hr : ¬ p '\r') :
    Unbroken cs :=
  ⟨fun hmem => hn (h _ hmem), fun hmem => hr (h _ hmem)⟩

end Text

theorem unbroken_of_isName {name : String} (h : isName name = true) : Unbroken name.toList := by
  obtain ⟨c, cs, hlist, hstart, hcontinue, -⟩ := isName_cons h
  rw [hlist, Text.unbroken_cons]
  refine ⟨⟨?_, ?_⟩, Text.unbroken_of_all hcontinue (by decide) (by decide)⟩
  · rintro rfl
    cases hstart
  · rintro rfl
    cases hstart

theorem quote_unbroken (text : String) : Unbroken (quote text).toList := by
  have hescape (c : Char) : Unbroken (escapeChar c) := by
    unfold escapeChar
    split_ifs with h₁ h₂ h₃ h₄ h₅
    · decide
    · decide
    · decide
    · decide
    · decide
    · exact Text.unbroken_cons.mpr ⟨⟨h₃, h₅⟩, by decide⟩
  have hchars : Unbroken (text.toList.flatMap escapeChar) := by
    constructor
    · rw [List.mem_flatMap]
      rintro ⟨c, -, hc⟩
      exact (hescape c).1 hc
    · rw [List.mem_flatMap]
      rintro ⟨c, -, hc⟩
      exact (hescape c).2 hc
  rw [quote, String.toList_ofList, Text.unbroken_cons, Text.unbroken_append]
  exact ⟨by decide, hchars, by decide⟩

theorem writes_unbroken {text : String} {n : Double} (h : Writes text n) :
    Unbroken text.toList := by
  obtain ⟨negative, body, digits, exponent, rfl, hbody, -⟩ := h
  have hchars : Unbroken body := Text.unbroken_of_all hbody.chars (by decide) (by decide)
  cases negative with
  | false => simpa [withSign] using hchars
  | true => simpa [withSign] using hchars

theorem displayNumber_unbroken (n : Double) : Unbroken (Value.displayNumber n).toList := by
  cases n with
  | nan => decide
  | infinite negative =>
      cases negative with
      | false | true => decide
  | finite negative x =>
      obtain ⟨m, hwrites, -⟩ := displayNumber_writes negative x
      exact writes_unbroken hwrites

end ScriptPool

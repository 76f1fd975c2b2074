import Mathlib.Data.List.TakeWhile
import ScriptPool.Number.Numeral
import ScriptPool.Proofs.Number.Shortest

namespace ScriptPool.Number

open ScriptPool.Text

attribute [local irreducible] unitsPerOne

theorem lt_ten_pow_length (n : Nat) : n < 10 ^ (Nat.toDigits 10 n).length :=
  (Nat.length_toDigits_le_iff (by decide) Nat.length_toDigits_pos).mp le_rfl

theorem ten_pow_length_le {n : Nat} (h : n ≠ 0) : 10 ^ ((Nat.toDigits 10 n).length - 1) ≤ n := by
  by_cases hlength : (Nat.toDigits 10 n).length - 1 = 0
  · rw [hlength]
    omega
  · by_contra hlt
    have hle : (Nat.toDigits 10 n).length ≤ (Nat.toDigits 10 n).length - 1 :=
      (Nat.length_toDigits_le_iff (by decide) (by omega)).mpr (by omega)
    omega

namespace Magnitude

variable {x : Magnitude} {digits : Nat} {exponent : Int}

theorem upperQuarters_le (x : Magnitude) : x.upperQuarters ≤ 2 ^ 55 * 2 ^ 2045 := by
  have hmantissa := x.mantissa_lt
  have hmul : (4 * x.mantissa + 2) * 2 ^ x.scale ≤ 2 ^ 55 * 2 ^ 2045 :=
    Nat.mul_le_mul (by simp only [Nat.pow_eq] at hmantissa; omega)
      (Nat.pow_le_pow_right (by decide) x.scale_le)
  rwa [Nat.add_mul, Nat.mul_assoc] at hmul

theorem AttractsDecimal.places_le (h : x.AttractsDecimal digits exponent) (hdigits : digits ≠ 0) :
    exponent + (Nat.toDigits 10 digits).length ≤ 310 := by
  by_contra hplaces
  have hbig : 10 ^ 310 * 10 ^ (-exponent).toNat ≤ digits * 10 ^ exponent.toNat :=
    calc 10 ^ 310 * 10 ^ (-exponent).toNat
        = 10 ^ (310 + (-exponent).toNat) := (Nat.pow_add 10 _ _).symm
      _ ≤ 10 ^ ((Nat.toDigits 10 digits).length - 1 + exponent.toNat) :=
        Nat.pow_le_pow_right (by decide) (by omega)
      _ = 10 ^ ((Nat.toDigits 10 digits).length - 1) * 10 ^ exponent.toNat := Nat.pow_add 10 _ _
      _ ≤ digits * 10 ^ exponent.toNat := Nat.mul_le_mul_right _ (ten_pow_length_le hdigits)
  have hupper : digits * (4 * unitsPerOne * 10 ^ exponent.toNat) ≤
      2 ^ 55 * 2 ^ 2045 * 10 ^ (-exponent).toNat :=
    (attracts_iff.mp h).2.1.trans (Nat.mul_le_mul_right _ x.upperQuarters_le)
  have hlt : 2 ^ 55 * 2 ^ 2045 * 10 ^ (-exponent).toNat <
      4 * unitsPerOne * 10 ^ 310 * 10 ^ (-exponent).toNat :=
    Nat.mul_lt_mul_of_pos_right (by decide +kernel) (Nat.pow_pos (by decide))
  have hle := Nat.mul_le_mul_left (4 * unitsPerOne) hbig
  rw [Nat.mul_left_comm] at hupper
  rw [Nat.mul_assoc (4 * unitsPerOne)] at hlt
  exact absurd (hle.trans hupper) (Nat.not_le_of_lt hlt)

/-- A decimal that rounds to a magnitude other than zero has its first digit at the place of 10⁻³³¹
or before it. -/
theorem AttractsDecimal.le_places (h : x.AttractsDecimal digits exponent) (hunits : x.units ≠ 0) :
    -330 ≤ exponent + (Nat.toDigits 10 digits).length := by
  by_contra hplaces
  have hlower : 2 * 10 ^ (-exponent).toNat ≤ digits * (4 * unitsPerOne * 10 ^ exponent.toNat) :=
    (Nat.mul_le_mul_right _ (two_le_lowerQuarters hunits)).trans (attracts_iff.mp h).1
  have htiny : 10 ^ 331 * 10 ^ (Nat.toDigits 10 digits).length ≤ 10 ^ (-exponent).toNat := by
    rw [← Nat.pow_add]
    exact Nat.pow_le_pow_right (by decide) (by omega)
  have hlt : digits * (4 * unitsPerOne) <
      10 ^ (Nat.toDigits 10 digits).length * (2 * 10 ^ 331) :=
    Nat.mul_lt_mul_of_lt_of_le (lt_ten_pow_length digits) (by decide +kernel) (by decide +kernel)
  have hle := Nat.mul_le_mul_left 2 htiny
  rw [show exponent.toNat = 0 by omega, Nat.pow_zero, Nat.mul_one] at hlower
  rw [← Nat.mul_assoc, Nat.mul_comm] at hle
  exact absurd (hle.trans hlower) (Nat.not_le_of_lt hlt)

theorem AttractsDecimal.carry (h : x.AttractsDecimal digits exponent) :
    x.AttractsDecimal (digits * 10 ^ exponent.toNat) (min exponent 0) := by
  unfold AttractsDecimal at h ⊢
  rw [show (min exponent 0).toNat = 0 by omega,
    show (-min exponent 0).toNat = (-exponent).toNat by omega, Nat.pow_zero, Nat.mul_one,
    Nat.mul_assoc, Nat.mul_comm (10 ^ exponent.toNat)]
  exact h

theorem attractsDecimal_of_units {n : Nat} (h : x.units = n * unitsPerOne) :
    x.AttractsDecimal n 0 := by
  have hself := attracts_units x 1 Nat.one_pos
  rw [h, Nat.mul_one, Nat.mul_left_comm] at hself
  unfold AttractsDecimal
  rw [Int.toNat_zero, Int.neg_zero, Int.toNat_zero, Nat.pow_zero, Nat.mul_one]
  exact hself

end Magnitude

theorem Numeral.toDouble_of_attracts {x : Magnitude} {digits : Nat} {exponent : Int}
    (negative : Bool) (h : x.AttractsDecimal digits exponent) (hunits : x.units ≠ 0) :
    Numeral.toDouble ⟨negative, digits, exponent⟩ = .finite negative x := by
  have hdigits : digits ≠ 0 := h.factor_ne_zero hunits
  have hplaces : ¬ 310 < exponent + (Nat.toDigits 10 digits).length := by
    have hle := h.places_le hdigits
    omega
  have hplaces' : ¬ exponent + (Nat.toDigits 10 digits).length < -330 := by
    have hle := h.le_places hunits
    omega
  have hattracts : x.attracts (4 * (digits * 10 ^ exponent.toNat * unitsPerOne))
      (10 ^ (-exponent).toNat) = true := by
    have hcomm (d p u : Nat) : 4 * (d * p * u) = d * (4 * u * p) := by ring
    rw [hcomm]
    exact h
  have hquotient : Magnitude.ofQuotient? (digits * Nat.pow 10 exponent.toNat * unitsPerOne)
      (Nat.pow 10 (-exponent).toNat) = some x :=
    Magnitude.ofQuotient?_of_attracts hattracts (Nat.pow_pos (by decide))
  unfold Numeral.toDouble
  rw [if_neg hdigits, if_neg hplaces, if_neg hplaces', Double.ofQuotient, hquotient]

theorem isDigit_of_mem_toDigits {n : Nat} {c : Char} (h : c ∈ Nat.toDigits 10 n) :
    isDigit c = true :=
  Nat.isDigit_of_mem_toDigits (by decide) (by decide) h

namespace Numeral

variable {body : List Char} {digits : Nat} {exponent : Int}

theorem digitsValue_eq (ds : List Char) : digitsValue ds = Nat.ofDigitChars 10 ds 0 :=
  Nat.ofDigitChars_eq_foldl.symm

theorem digitsValue_toDigits (n : Nat) : digitsValue (Nat.toDigits 10 n) = n := by
  rw [digitsValue_eq, Nat.ofDigitChars_ten_toDigits]

theorem digitsValue_append_zeros (ds : List Char) (zeros : Nat) :
    digitsValue (ds ++ List.replicate zeros '0') = digitsValue ds * 10 ^ zeros := by
  rw [digitsValue_eq, digitsValue_eq, Nat.ofDigitChars_append, Nat.ofDigitChars_replicate_zero,
    Nat.mul_comm]

theorem digitsValue_zeros_append (ds : List Char) (zeros : Nat) :
    digitsValue (List.replicate zeros '0' ++ ds) = digitsValue ds := by
  rw [digitsValue_eq, digitsValue_eq, Nat.ofDigitChars_append, Nat.ofDigitChars_replicate_zero,
    Nat.mul_zero]

/-- A text of digits, with at most one point between them, that is read as a numeral. -/
structure Unsigned (body : List Char) (digits : Nat) (exponent : Int) : Prop where
  chars : ∀ c ∈ body, isDigit c = true ∨ c = '.'
  starts : ∃ c rest, body = c :: rest ∧ isDigit c = true
  reads : ∀ negative, readUnsigned negative body = some ⟨negative, digits, exponent⟩

theorem unsigned_whole (ds : List Char) (hds : ∀ c ∈ ds, isDigit c = true) (hne : ds ≠ []) :
    Unsigned ds (digitsValue ds) 0 := by
  obtain ⟨d, rest, rfl⟩ := List.exists_cons_of_ne_nil hne
  refine ⟨fun c hc => .inl (hds c hc), ⟨d, rest, rfl, hds d List.mem_cons_self⟩, ?_⟩
  intro negative
  have htake : (d :: rest).takeWhile isDigit = d :: rest := List.takeWhile_eq_self_iff.mpr hds
  have hdrop : (d :: rest).dropWhile isDigit = [] := List.dropWhile_eq_nil_iff.mpr hds
  simp [readUnsigned, htake, hdrop, readExponent]

theorem unsigned_point (ds fs : List Char) (hds : ∀ c ∈ ds, isDigit c = true) (hne : ds ≠ [])
    (hfs : ∀ c ∈ fs, isDigit c = true) :
    Unsigned (ds ++ '.' :: fs) (digitsValue (ds ++ fs)) (-fs.length) := by
  obtain ⟨d, rest, rfl⟩ := List.exists_cons_of_ne_nil hne
  refine ⟨?_, ⟨d, rest ++ '.' :: fs, rfl, hds d List.mem_cons_self⟩, ?_⟩
  · intro c hc
    rcases List.mem_append.mp hc with hc | hc
    · exact .inl (hds c hc)
    · exact (List.mem_cons.mp hc).elim .inr fun hc => .inl (hfs c hc)
  · intro negative
    have hpoint : isDigit '.' = false := by decide
    have htake : (d :: rest ++ '.' :: fs).takeWhile isDigit = d :: rest := by
      rw [List.takeWhile_append_of_pos hds, List.takeWhile_cons_of_neg (by simp [hpoint]),
        List.append_nil]
    have hdrop : (d :: rest ++ '.' :: fs).dropWhile isDigit = '.' :: fs := by
      rw [List.dropWhile_append_of_pos hds, List.dropWhile_cons_of_neg (by simp [hpoint])]
    have hfraction : fs.takeWhile isDigit = fs := List.takeWhile_eq_self_iff.mpr hfs
    have hend : fs.dropWhile isDigit = [] := List.dropWhile_eq_nil_iff.mpr hfs
    unfold readUnsigned
    rw [htake, hdrop]
    simp [hfraction, hend, readExponent]

theorem unsigned_toDigits (n : Nat) : Unsigned (Nat.toDigits 10 n) n 0 := by
  have hwhole := unsigned_whole (Nat.toDigits 10 n)
    (fun c => isDigit_of_mem_toDigits) Nat.toDigits_ne_nil
  rwa [digitsValue_toDigits] at hwhole

/-- The form without an exponent is read as the decimal that it was written from, with the zeros up
to the point as digits. -/
theorem unsigned_positional (n : Nat) (exponent : Int) :
    Unsigned (positional (Nat.toDigits 10 n) exponent) (n * 10 ^ exponent.toNat)
      (min exponent 0) := by
  have hdigits : ∀ c ∈ Nat.toDigits 10 n, isDigit c = true := fun c => isDigit_of_mem_toDigits
  have hzeros : ∀ zeros, ∀ c ∈ List.replicate zeros '0', isDigit c = true := by
    intro zeros c hc
    rw [List.eq_of_mem_replicate hc]
    decide
  cases exponent with
  | ofNat zeros =>
      have hwhole := unsigned_whole (Nat.toDigits 10 n ++ List.replicate zeros '0')
        (fun c hc => (List.mem_append.mp hc).elim (hdigits c) (hzeros zeros c)) (by simp)
      have hmin : min (Int.ofNat zeros) 0 = 0 := min_eq_right (Int.natCast_nonneg zeros)
      rw [digitsValue_append_zeros, digitsValue_toDigits] at hwhole
      rw [hmin]
      exact hwhole
  | negSucc places =>
      have hexponent : n * 10 ^ (Int.negSucc places).toNat = n := Nat.mul_one n
      have hmin : min (Int.negSucc places) 0 = -((places + 1 : Nat) : Int) := by omega
      rw [hexponent, hmin]
      unfold positional
      dsimp only
      split
      · next hlt =>
          have hne : (Nat.toDigits 10 n).take ((Nat.toDigits 10 n).length - (places + 1)) ≠ [] := by
            rw [← List.length_pos_iff, List.length_take]
            omega
          have hpoint := unsigned_point
            ((Nat.toDigits 10 n).take ((Nat.toDigits 10 n).length - (places + 1)))
            ((Nat.toDigits 10 n).drop ((Nat.toDigits 10 n).length - (places + 1)))
            (fun c hc => hdigits c (List.mem_of_mem_take hc)) hne
            (fun c hc => hdigits c (List.mem_of_mem_drop hc))
          rw [List.take_append_drop, digitsValue_toDigits, List.length_drop,
            Nat.sub_sub_self hlt.le] at hpoint
          exact hpoint
      · next hge =>
          have hpoint := unsigned_point ['0']
            (List.replicate (places + 1 - (Nat.toDigits 10 n).length) '0' ++
              Nat.toDigits 10 n)
            (hzeros 1) (by simp)
            (fun c hc => (List.mem_append.mp hc).elim (hzeros _ c) (hdigits c))
          have hvalue : digitsValue (['0'] ++
              (List.replicate (places + 1 - (Nat.toDigits 10 n).length) '0' ++
                Nat.toDigits 10 n)) = n := by
            rw [← List.append_assoc, ← List.replicate_one, List.replicate_append_replicate,
              digitsValue_zeros_append, digitsValue_toDigits]
          rw [hvalue, List.length_append, List.length_replicate,
            Nat.sub_add_cancel (by omega)] at hpoint
          exact hpoint

theorem read_withSign (negative : Bool) (h : Unsigned body digits exponent) :
    Numeral.read (withSign negative body).toList = some ⟨negative, digits, exponent⟩ := by
  obtain ⟨c, rest, rfl, hc⟩ := h.starts
  cases negative with
  | true =>
      rw [withSign, if_pos rfl, String.toList_ofList]
      exact h.reads true
  | false =>
      rw [withSign, if_neg (by decide), String.toList_ofList, ← h.reads false]
      unfold Numeral.read
      split
      · next heq =>
          cases heq
          exact absurd hc (by decide)
      · rfl

/-- The text is a signed numeral and is read as the number. -/
def Writes (text : String) (n : Double) : Prop :=
  ∃ negative body digits exponent, text = withSign negative body ∧ Unsigned body digits exponent ∧
    toDouble ⟨negative, digits, exponent⟩ = n

variable {x : Magnitude}

theorem writes_digits (negative : Bool) {n : Nat} (h : x.AttractsDecimal n 0) (hunits : x.units ≠ 0) :
    Writes (withSign negative (Nat.toDigits 10 n)) (.finite negative x) :=
  ⟨negative, Nat.toDigits 10 n, n, 0, rfl, unsigned_toDigits n,
    toDouble_of_attracts negative h hunits⟩

theorem writes_plain (negative : Bool) (hunits : x.units ≠ 0) :
    Writes (Double.finite negative x).plain (.finite negative x) :=
  ⟨negative, _, _, _, rfl, unsigned_positional x.shortest.1 x.shortest.2,
    toDouble_of_attracts negative (Magnitude.shortest_attracts hunits).carry hunits⟩

end Numeral

end ScriptPool.Number

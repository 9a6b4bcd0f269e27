import CodeGauge.Proofs.JsonGrammar

/-!
# Numbers are written as JSON numbers

The numbers of a data format, and whole numbers, are JSON numbers in any of the forms they are
written in. Digits of a whole number start with a zero only if that is all (`isWhole_toDigits`); a
point stands between two digits, with a zero put before it where there is none
(`isUnsigned_pointed`).
-/

namespace CodeGauge

namespace Json

open Decimal

/-- A number without a sign. -/
def IsUnsigned (cs : List Char) : Prop :=
  ∃ whole fraction exponent, cs = whole ++ fraction ++ exponent ∧ IsWhole whole ∧
    IsFraction fraction ∧ IsExponent exponent

theorem isNumber_signed {text : String} (negative : Bool) (h : IsUnsigned text.toList) :
    IsNumber (signed negative text).toList := by
  obtain ⟨whole, fraction, exponent, htext, hparts⟩ := h
  cases negative with
  | false => exact ⟨[], whole, fraction, exponent, htext, by simp, hparts⟩
  | true =>
    refine ⟨['-'], whole, fraction, exponent, ?_, by simp, hparts⟩
    rw [signed, if_pos rfl, String.toList_append, htext]
    rfl

/-! ## Digits -/

theorem isDigits_toDigits (n : Nat) : IsDigits (Nat.toDigits 10 n) :=
  ⟨Nat.toDigits_ne_nil, fun _ h => Nat.isDigit_of_mem_toDigits (by decide) (by decide) h⟩

theorem head?_toDigits {n : Nat} (h : n ≠ 0) : (Nat.toDigits 10 n).head? ≠ some '0' := by
  induction n using Nat.strongRecOn with
  | ind n ih =>
    rcases Nat.lt_or_ge n 10 with hlt | hge
    · rw [Nat.toDigits_of_lt_base hlt, List.head?_cons]
      have hdigits : ∀ d < 10, d ≠ 0 → some d.digitChar ≠ some '0' := by decide
      exact hdigits n hlt h
    · have hlead := ih (n / 10) (by omega) (by omega)
      obtain ⟨d, ds, hds⟩ :=
        List.exists_cons_of_ne_nil (Nat.toDigits_ne_nil (n := n / 10) (b := 10))
      rw [Nat.toDigits_of_base_le (by decide) hge, hds]
      rwa [hds] at hlead

theorem isWhole_toDigits (n : Nat) : IsWhole (Nat.toDigits 10 n) := by
  by_cases h : n = 0
  · subst h
    exact .inl rfl
  · exact .inr ⟨isDigits_toDigits n, head?_toDigits h⟩

theorem isNumber_toString (n : Nat) : IsNumber (toString n).toList := by
  refine ⟨[], Nat.toDigits 10 n, [], [], ?_, by simp, isWhole_toDigits n, .inl rfl, .inl rfl⟩
  simp [Nat.toList_repr]

/-! ## The forms of a number -/

/-- Behind enough zeros, the digits before the last `places` are those of a whole number. -/
theorem isWhole_take {places : Nat} (hplaces : places ≠ 0) (n : Nat) :
    let ds := List.replicate (places + 1 - (digitChars n).length) '0' ++ digitChars n
    IsWhole (ds.take (ds.length - places)) := by
  intro ds
  rcases Nat.lt_or_ge places (digitChars n).length with hlt | hge
  · -- no zero is put before the digits
    have hds : ds = digitChars n := by
      show List.replicate _ '0' ++ _ = _
      rw [Nat.sub_eq_zero_of_le hlt, List.replicate_zero, List.nil_append]
    have h0 : n ≠ 0 := by
      rintro rfl
      rw [digitChars, Nat.toDigits_zero, List.length_singleton] at hlt
      omega
    rw [hds]
    refine .inr ⟨⟨?_, fun d hd => (isDigits_toDigits n).2 d (List.mem_of_mem_take hd)⟩, ?_⟩
    · rw [Ne, List.take_eq_nil_iff, not_or]
      exact ⟨by omega, Nat.toDigits_ne_nil⟩
    · rw [List.head?_take, if_neg (by omega)]
      exact head?_toDigits h0
  · -- just one zero is left before the last places
    obtain ⟨k, hk⟩ := Nat.exists_eq_add_of_le hge
    have hlength : ds.length - places = 1 := by
      simp only [ds, List.length_append, List.length_replicate]
      omega
    have hzeros : places + 1 - (digitChars n).length = k + 1 := by omega
    left
    rw [hlength]
    simp only [ds, hzeros, List.replicate_succ, List.cons_append, List.take_succ_cons,
      List.take_zero]

theorem isUnsigned_pointed {places : Nat} (hplaces : places ≠ 0) (n : Nat) :
    IsUnsigned (pointed places n).toList := by
  have hwhole := isWhole_take hplaces n
  simp only [pointed, if_neg hplaces, String.toList_ofList]
  refine ⟨_, _, [], (List.append_nil _).symm, hwhole, .inr ⟨_, rfl, ?_, fun d hd => ?_⟩, .inl rfl⟩
  · rw [Ne, List.drop_eq_nil_iff, List.length_append, List.length_replicate]
    omega
  · rcases List.mem_append.1 (List.mem_of_mem_drop hd) with hd | hd
    · rw [(List.mem_replicate.1 hd).2]
      rfl
    · exact (isDigits_toDigits n).2 d hd

theorem isUnsigned_positional (s : Scaled) :
    IsUnsigned (if 0 ≤ s.exponent then s.positional ++ ".0" else s.positional).toList := by
  by_cases h : 0 ≤ s.exponent
  · rw [if_pos h, Scaled.positional, if_pos h]
    refine ⟨Nat.toDigits 10 (s.digits * tenTo s.exponent.toNat), ['.', '0'], [], ?_,
      isWhole_toDigits _, .inr ⟨['0'], rfl, by simp, by simp⟩, .inl rfl⟩
    simp [Nat.toList_repr]
  · rw [if_neg h, Scaled.positional, if_neg h]
    exact isUnsigned_pointed (by omega) s.digits

theorem isExponent_scientific (e : Int) :
    IsExponent ((if e < 0 then "e-" else "e+") ++ toString e.natAbs).toList := by
  refine .inr ⟨'e', if e < 0 then ['-'] else ['+'], Nat.toDigits 10 e.natAbs, ?_, by simp, ?_,
    isDigits_toDigits _⟩
  · split <;> simp [Nat.toList_repr]
  · split <;> simp

theorem isUnsigned_scientific (s : Scaled) (h : s.digits ≠ 0) : IsUnsigned s.scientific.toList := by
  have hexponent := isExponent_scientific s.leading
  have hdigits := isDigits_toDigits s.digits
  have hhead := head?_toDigits h
  rcases hds : Nat.toDigits 10 s.digits with _ | ⟨d, _ | ⟨d', ds⟩⟩ <;> rw [hds] at hdigits hhead
  · exact absurd rfl hdigits.1
  all_goals
    have hfirst : IsWhole [d] := .inr ⟨⟨by simp, by simpa using hdigits.2 d (by simp)⟩, hhead⟩
    simp only [Scaled.scientific, digitChars, hds, String.append_assoc]
  · exact ⟨[d], [], _, by simp, hfirst, .inl rfl, hexponent⟩
  · refine ⟨[d], '.' :: d' :: ds, _, by simp, hfirst, .inr ⟨_, rfl, by simp, fun c hc => ?_⟩,
      hexponent⟩
    exact hdigits.2 c (List.mem_cons_of_mem d hc)

/-- Any number that can be written at all is written as a JSON number. -/
theorem isNumber_exchange? {x : Float} {text : String} (h : exchange? x = some text) :
    IsNumber text.toList := by
  rw [exchange?] at h
  split at h
  · simp at h
  · simp at h
  · rw [Option.some.injEq] at h
    subst h
    refine isNumber_signed _ ?_
    split
    · exact ⟨['0'], ['.', '0'], [], rfl, .inl rfl, .inr ⟨['0'], rfl, by simp, by simp⟩, .inl rfl⟩
    · rename_i hdigits
      split
      · exact isUnsigned_scientific _ hdigits
      · exact isUnsigned_positional _

end Json

end CodeGauge

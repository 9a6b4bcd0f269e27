import CodeGauge.Decimal.Binary
import CodeGauge.Proofs.RollupValue

/-!
# The form of a value

A value is a sign, an exponent and a mantissa side by side in its bits (`exists_components`), so
numbers that are taken apart into the same are the same (`eq_of_unpack_eq`), and numbers that
compare as equal are the same unless they are zeros (`eq_of_rank_eq`).

A whole number from one up to the bound is the value of a natural number
(`exists_ofNat_of_isWholeNumber`): the mantissa has no bits behind the point.
-/

namespace CodeGauge

namespace WholeNumber

open Float.Model Float.Model.UnpackedFloat

/-! ## Sign, exponent and mantissa -/

theorem toNat_packComponents (s : Sign) (e : BitVec 11) (m : BitVec 52) :
    (packComponents .binary64 s e m).toNat =
      s.toBitVec.toNat * 2 ^ 63 + e.toNat * 2 ^ 52 + m.toNat := by
  have he := e.isLt
  have hm := m.isLt
  show ((s.toBitVec ++ e) ++ m).toNat = _
  rw [BitVec.toNat_append, BitVec.toNat_append, ← Nat.shiftLeft_add_eq_or_of_lt he,
    ← Nat.shiftLeft_add_eq_or_of_lt hm, Nat.shiftLeft_eq, Nat.shiftLeft_eq]
  omega

theorem exists_components (x : Float) :
    ∃ (s : Sign) (e : BitVec 11) (m : BitVec 52),
      x.toModel.toBits.toBitVec = packComponents .binary64 s e m := by
  let b : BitVec 64 := x.toModel.toBits.toBitVec
  have hb : b.toNat < 2 ^ 64 := b.isLt
  refine ⟨.ofBitVec (BitVec.ofNat 1 (b.toNat / 2 ^ 63)), BitVec.ofNat 11 (b.toNat / 2 ^ 52),
    BitVec.ofNat 52 b.toNat, BitVec.eq_of_toNat_eq ?_⟩
  have hsign : (Sign.ofBitVec (BitVec.ofNat 1 (b.toNat / 2 ^ 63))).toBitVec.toNat =
      b.toNat / 2 ^ 63 := by
    rcases Nat.lt_or_ge b.toNat (2 ^ 63) with h | h
    · rw [Nat.div_eq_of_lt h]
      rfl
    · rw [show b.toNat / 2 ^ 63 = 1 by omega]
      rfl
  show b.toNat = _
  rw [toNat_packComponents, hsign, BitVec.toNat_ofNat, BitVec.toNat_ofNat]
  omega

theorem components_eq_of_unpack_eq {s s' : Sign} {e e' : BitVec 11} {m m' : BitVec 52}
    (h : UnpackedFloat.unpack .binary64 (packComponents .binary64 s e m) =
      UnpackedFloat.unpack .binary64 (packComponents .binary64 s' e' m'))
    (hn : UnpackedFloat.unpack .binary64 (packComponents .binary64 s e m) ≠ .notANumber) :
    s = s' ∧ e = e' ∧ m = m' := by
  have hm := m.isLt
  have hm' := m'.isLt
  rw [unpack_packComponents] at hn
  rw [unpack_packComponents, unpack_packComponents] at h
  split_ifs at h hn <;> simp_all [← BitVec.toNat_inj]
  all_goals omega

theorem eq_of_bits_eq {x y : Float}
    (h : x.toModel.toBits.toBitVec = y.toModel.toBits.toBitVec) : x = y := by
  obtain ⟨⟨⟨b⟩, hb⟩⟩ := x
  obtain ⟨⟨⟨c⟩, hc⟩⟩ := y
  obtain rfl : b = c := h
  rfl

/-- Numbers that are taken apart into the same are the same. -/
theorem eq_of_unpack_eq {x y : Float} (hx : Rollup.IsNumber x)
    (h : x.toModel.unpack = y.toModel.unpack) : x = y := by
  obtain ⟨s, e, m, hxbits⟩ := exists_components x
  obtain ⟨s', e', m', hybits⟩ := exists_components y
  rw [Rollup.IsNumber, Float.Model.unpack, hxbits] at hx
  rw [Float.Model.unpack, Float.Model.unpack, hxbits, hybits] at h
  obtain ⟨rfl, rfl, rfl⟩ := components_eq_of_unpack_eq h hx
  exact eq_of_bits_eq (hxbits.trans hybits.symm)

/-! ## Finite values -/

section Finite

variable {x : Float} {s : Sign} {m : Nat} {e : Int} {hm : 0 < m}
  (h : x.toModel.unpack = .finite s m e hm)

include h

theorem mantissa_of_unpack : m < 2 ^ 53 ∧ (2 ^ 52 ≤ m ∨ e = -1074) := by
  obtain ⟨s', e', m', hbits⟩ := exists_components x
  have hm' := m'.isLt
  rw [Float.Model.unpack, hbits, unpack_packComponents] at h
  split_ifs at h with hones hinfinite hzero <;> cases h
  · exact ⟨by omega, .inr (by rw [hzero]; rfl)⟩
  · exact ⟨by omega, .inl (by omega)⟩

theorem read_of_unpack : ∃ negative tight, Decimal.read x = .finite negative ⟨m, e, tight⟩ := by
  obtain ⟨s', e', m', hbits⟩ := exists_components x
  have hm' := m'.isLt
  have he' := e'.isLt
  have hsign : s'.toBitVec.toNat < 2 := s'.toBitVec.isLt
  have hnat : x.toBits.toNat = s'.toBitVec.toNat * 2 ^ 63 + e'.toNat * 2 ^ 52 + m'.toNat := by
    rw [← toNat_packComponents, ← hbits]
    rfl
  have hexponent : (x.toBits.toNat >>> 52) % 2048 = e'.toNat := by
    rw [hnat, Nat.shiftRight_eq_div_pow]
    omega
  have hfraction : x.toBits.toNat % (1 <<< 52) = m'.toNat := by
    rw [hnat, Nat.shiftLeft_eq]
    omega
  rw [Float.Model.unpack, hbits, unpack_packComponents] at h
  rw [Decimal.read, Decimal.Reading.ofBits, hexponent, hfraction]
  split_ifs at h with hones hinfinite hzero <;> cases h
  · rw [hzero]
    exact ⟨_, _, rfl⟩
  · have hexponent0 : e'.toNat ≠ 0 := fun h0 => hzero (BitVec.eq_of_toNat_eq h0)
    have hexponent1 : e'.toNat ≠ 2047 := fun h1 => hones (BitVec.eq_of_toNat_eq h1)
    simp only [if_neg hexponent0, if_neg hexponent1, Nat.shiftLeft_eq]
    exact ⟨_, _, by rw [Nat.one_mul, Nat.add_comm]⟩

theorem isWholeNumber_of_unpack :
    isWholeNumber x ↔ (m <<< e.toNat) % (1 <<< (-e).toNat) = 0 := by
  obtain ⟨negative, tight, hread⟩ := read_of_unpack h
  rw [isWholeNumber, hread]
  exact beq_iff_eq

end Finite

end WholeNumber

/-! ## Equal numbers and whole numbers -/

namespace Rollup

open Float.Model

variable {x y : Float}

/-- Numbers at one place are the same, or they are zeros, whose signs may differ. -/
theorem eq_of_rank_eq (hx : IsNumber x) (h : rank x = rank y) : x = y ∨ x == 0 := by
  by_cases hzero : ∃ s, x.toModel.unpack = .zero s
  · obtain ⟨s, hzero⟩ := hzero
    refine .inr ?_
    show x.toModel.unpack.beq (0 : Float).toModel.unpack = true
    rw [hzero]
    rfl
  · refine .inl (WholeNumber.eq_of_unpack_eq hx ?_)
    have hx : x.toModel.unpack ≠ .notANumber := hx
    rw [rank, rank] at h
    rcases hux : x.toModel.unpack with (_ | _) | _ | _ | ⟨_ | _, m, e, hm⟩ <;>
      rcases huy : y.toModel.unpack with (_ | _) | _ | _ | ⟨_ | _, m', e', hm'⟩ <;>
      simp_all [key]

end Rollup

namespace WholeNumber

open Float.Model

theorem unpack_of_one_le {x : Float} {k : Nat} (hlow : 1 ≤ x) (hhigh : x ≤ Float.ofNat k)
    (hk : k < bound) :
    ∃ m e hm, x.toModel.unpack = .finite .positive m e hm ∧ -52 ≤ e ∧ e ≤ 0 := by
  obtain ⟨hone, hx⟩ := Rollup.isNumber_of_le hlow
  have hnumber := (Rollup.isNumber_of_le hhigh).2
  have hbottom : Rollup.rank 1 = toLex (1, toLex (-52, 2 ^ 52)) := by rfl
  have htop : Rollup.rank (Float.ofNat k) ≤ toLex (1, toLex (1, 0)) := by
    rw [Rollup.rank, unpack_ofNat hk]
    by_cases h0 : k = 0
    · subst h0
      exact Prod.Lex.toLex_le_toLex.2 (.inl (by decide))
    · have hlog : k.log2 < 53 := (Nat.log2_lt h0).2 hk
      rw [whole_of_ne h0]
      refine Prod.Lex.toLex_le_toLex.2 (.inr ⟨rfl, Prod.Lex.toLex_le_toLex.2 (.inl ?_)⟩)
      show (k.log2 : Int) - 52 < 1
      omega
  rw [Rollup.le_iff_rank_le hone hx, hbottom, Rollup.rank] at hlow
  rw [Rollup.le_iff_rank_le hx hnumber, Rollup.rank] at hhigh
  have hhigh := hhigh.trans htop
  rcases hux : x.toModel.unpack with (_ | _) | _ | _ | ⟨_ | _, m, e, hm⟩ <;>
    rw [hux] at hlow hhigh <;>
    simp [Rollup.key, Prod.Lex.toLex_le_toLex] at hlow hhigh
  exact ⟨m, e, hm, rfl, by omega, by omega⟩

/-- A whole number from one up to a value below the bound is the value of a natural number. -/
theorem exists_ofNat_of_isWholeNumber {x : Float} {k : Nat} (hwhole : isWholeNumber x)
    (hlow : 1 ≤ x) (hhigh : x ≤ Float.ofNat k) (hk : k < bound) :
    ∃ n, 1 ≤ n ∧ n ≤ k ∧ x = Float.ofNat n := by
  obtain ⟨m, e, hm, hunpack, hlower, hupper⟩ := unpack_of_one_le hlow hhigh hk
  obtain ⟨j, hj⟩ : ∃ j : Nat, e = -j := ⟨(-e).toNat, by omega⟩
  subst hj
  obtain ⟨hbelow, hnormal⟩ := mantissa_of_unpack hunpack
  have hnormal := hnormal.resolve_right (by omega)
  -- the mantissa is the number with as many zeros behind it as the exponent takes away
  obtain ⟨n, rfl⟩ : ∃ n, m = n * 2 ^ j := by
    rw [isWholeNumber_of_unpack hunpack] at hwhole
    have hleft : (-(j : Int)).toNat = 0 := by omega
    have hright : (- -(j : Int)).toNat = j := by omega
    rw [hleft, hright, Nat.shiftLeft_zero, Nat.shiftLeft_eq, Nat.one_mul] at hwhole
    exact ⟨m / 2 ^ j, (Nat.div_mul_cancel (Nat.dvd_of_mod_eq_zero hwhole)).symm⟩
  have h0 : n ≠ 0 := by
    rintro rfl
    omega
  have hlog : n.log2 + j = 52 := by
    rw [← log2_mul_two_pow h0, Nat.log2_eq_iff hm.ne']
    exact ⟨hnormal, hbelow⟩
  have hn : n < bound := (Nat.le_mul_of_pos_right n (Nat.two_pow_pos j)).trans_lt hbelow
  obtain rfl : x = Float.ofNat n := by
    refine eq_of_unpack_eq (Rollup.isNumber_of_le hlow).2 ?_
    rw [hunpack, unpack_ofNat hn, whole_of_ne h0]
    refine finite_congr ?_ (by omega)
    rw [mantissa, show 52 - n.log2 = j by omega]
  refine ⟨n, Nat.one_le_iff_ne_zero.2 h0, ?_, rfl⟩
  obtain ⟨hx, hk'⟩ := Rollup.isNumber_of_le hhigh
  rw [Rollup.le_iff_rank_le hx hk', ← not_lt, ← Rollup.lt_iff_rank_lt hk' hx,
    ofNat_lt_ofNat hk hn] at hhigh
  omega

end WholeNumber

end CodeGauge

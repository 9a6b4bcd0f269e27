import Mathlib

/-!
# Whole numbers as values

Counts become values at the end. A value has a mantissa of 53 bits, so below `2 ^ 53` each whole
number is one value (`unpack_ofNat`): adding such values adds the numbers (`ofNat_add_ofNat`) and
comparing them compares the numbers (`ofNat_lt_ofNat`). Any whole number, however large, becomes a
number that is not negative (`notNegative_ofNat`).
-/

namespace CodeGauge

namespace WholeNumber

open Float.Model Float.Model.UnpackedFloat

/-- Below this, every whole number is a value. -/
def bound : Nat := 2 ^ 53

/-! ## Mantissa and exponent -/

/-- The mantissa of a positive whole number, shifted to 53 bits. -/
def mantissa (n : Nat) : Nat := n * 2 ^ (52 - n.log2)

theorem mantissa_bounds {n : Nat} (h0 : n ≠ 0) (h : n < bound) :
    2 ^ 52 ≤ mantissa n ∧ mantissa n < 2 ^ 53 := by
  have hlog : n.log2 < 53 := (Nat.log2_lt h0).2 h
  have hlow : 2 ^ n.log2 ≤ n := (Nat.le_log2 h0).1 le_rfl
  have hhigh : n < 2 ^ (n.log2 + 1) := (Nat.log2_lt h0).1 (Nat.lt_succ_self _)
  have hsplit : 2 ^ 52 = 2 ^ n.log2 * 2 ^ (52 - n.log2) := by
    rw [← Nat.pow_add]
    congr 1
    omega
  have hsplit' : 2 ^ 53 = 2 ^ (n.log2 + 1) * 2 ^ (52 - n.log2) := by
    rw [← Nat.pow_add]
    congr 1
    omega
  have hpos : 0 < 2 ^ (52 - n.log2) := Nat.two_pow_pos _
  rw [mantissa, hsplit, hsplit']
  exact ⟨Nat.mul_le_mul_right _ hlow, Nat.mul_lt_mul_of_pos_right hhigh hpos⟩

theorem log2_mul_two_pow {n : Nat} (h0 : n ≠ 0) (k : Nat) : (n * 2 ^ k).log2 = n.log2 + k := by
  induction k with
  | zero => simp
  | succ k ih =>
    have hne : n * 2 ^ k ≠ 0 := Nat.mul_ne_zero h0 (Nat.two_pow_pos k).ne'
    have hdouble : n * 2 ^ (k + 1) = 2 * (n * 2 ^ k) := by ring
    rw [hdouble, Nat.log2_two_mul hne, ih]
    omega

/-- A whole number below the bound as it is taken apart into sign, mantissa and exponent. -/
def whole (n : Nat) : UnpackedFloat :=
  if h : n = 0 then .zero .positive
  else .finite .positive (mantissa n) (n.log2 - 52)
    (Nat.mul_pos (Nat.pos_of_ne_zero h) (Nat.two_pow_pos _))

theorem whole_of_ne {n : Nat} (h : n ≠ 0) :
    whole n = .finite .positive (mantissa n) (n.log2 - 52)
      (Nat.mul_pos (Nat.pos_of_ne_zero h) (Nat.two_pow_pos _)) := dif_neg h

/-! ## Rounding -/

/-- Shifting out zeros loses nothing. -/
theorem shiftRight_mul_two_pow (m j : Nat) :
    ExtendedMantissa.ofMantissaAndAccuracy (m * 2 ^ j) .exact >>> j =
      ExtendedMantissa.ofMantissaAndAccuracy m .exact := by
  show j.repeat ExtendedMantissa.shiftRightOne _ = _
  induction j generalizing m with
  | zero => simp [Nat.repeat]
  | succ j ih =>
    have hdouble : m * 2 ^ (j + 1) = (m * 2) * 2 ^ j := by ring
    rw [Nat.repeat, hdouble, ih]
    simp [ExtendedMantissa.shiftRightOne, ExtendedMantissa.ofMantissaAndAccuracy]

theorem targetExponent_whole {n : Nat} (h0 : n ≠ 0) (k : Nat) :
    Format.binary64.targetExponent (totalExponent (n * 2 ^ k) (-k)) = n.log2 - 52 := by
  have hmin : Format.binary64.minExponent = -1074 := by decide
  have hbits : Format.binary64.mantissaBits = 53 := by decide
  rw [Format.targetExponent, totalExponent, log2_mul_two_pow h0, hmin, hbits]
  omega

theorem shiftToTarget_whole {n : Nat} (h0 : n ≠ 0) (h : n < bound) {k : Nat}
    (hk : 52 - n.log2 ≤ k) :
    shiftToTargetExponent .binary64 (n * 2 ^ k) (-k) .exact =
      (ExtendedMantissa.ofMantissaAndAccuracy (mantissa n) .exact, (n.log2 : Int) - 52) := by
  have hlog : n.log2 < 53 := (Nat.log2_lt h0).2 h
  have hamount : ((n.log2 : Int) - 52 - -(k : Int)).toNat = k - (52 - n.log2) := by omega
  have hmantissa : n * 2 ^ k = mantissa n * 2 ^ (k - (52 - n.log2)) := by
    rw [mantissa, Nat.mul_assoc, ← Nat.pow_add]
    congr 2
    omega
  rw [shiftToTargetExponent, targetExponent_whole h0, shiftToExponent]
  simp only [hamount]
  rw [hmantissa, shiftRight_mul_two_pow]
  congr 1
  omega

/-- Whatever it is written as, a whole number below the bound is rounded to itself. -/
theorem roundWithAccuracy_whole {n : Nat} (h0 : n ≠ 0) (h : n < bound) {k : Nat}
    (hk : 52 - n.log2 ≤ k) :
    roundWithAccuracy .binary64 .positive (n * 2 ^ k) (-k) .exact = whole n := by
  have hlog : n.log2 < 53 := (Nat.log2_lt h0).2 h
  -- rounding leaves the mantissa as it is, and with 53 bits nothing is left to shift
  have hrounded : (ExtendedMantissa.ofMantissaAndAccuracy (mantissa n) .exact).roundedMantissa =
      n * 2 ^ (52 - n.log2) := rfl
  have hexponent : (n.log2 : Int) - 52 = -((52 - n.log2 : Nat) : Int) := by omega
  have hpos : mantissa n ≠ 0 := Nat.mul_ne_zero h0 (Nat.two_pow_pos _).ne'
  have hm : (ExtendedMantissa.ofMantissaAndAccuracy (mantissa n) .exact).mantissa = mantissa n :=
    rfl
  rw [roundWithAccuracy, shiftToTarget_whole h0 h hk]
  simp only [hrounded]
  simp only [hexponent, shiftToTarget_whole h0 h le_rfl, hm, dif_neg hpos, whole_of_ne h0]

theorem round_whole {n : Nat} (h0 : n ≠ 0) (h : n < bound) (k : Nat) :
    UnpackedFloat.round .binary64 .positive (n * 2 ^ k) (-k) = whole n := by
  have hlog : n.log2 < 53 := (Nat.log2_lt h0).2 h
  -- first the exponent is lowered as far as 53 bits need it
  obtain ⟨j, hj⟩ : ∃ j : Nat, (-(k : Int) - ((n.log2 : Int) - 52)).toNat = j := ⟨_, rfl⟩
  have hmantissa : (n * 2 ^ k) <<< j = n * 2 ^ (k + j) := by
    rw [Nat.shiftLeft_eq, Nat.mul_assoc, ← Nat.pow_add]
  have hexponent : -(k : Int) - j = -((k + j : Nat) : Int) := by omega
  rw [UnpackedFloat.round, targetExponent_whole h0, decreaseExponent]
  simp only [hj, hmantissa, hexponent]
  exact roundWithAccuracy_whole h0 h (by omega)

/-! ## Packing -/

theorem unpackSign_packComponents (spec : Format) (s : Sign) (e : BitVec spec.exponentBits)
    (m : BitVec spec.mantissaBitsWithoutImplicit) :
    unpackSign (packComponents spec s e m) = s.toBitVec := by
  apply BitVec.eq_of_getLsbD_eq
  intro i hi
  have hi0 : i = 0 := by omega
  subst hi0
  simp [unpackSign, packComponents, BitVec.getLsbD_append, BitVec.getElem_append]

theorem ofBitVec_toBitVec (s : Sign) : Sign.ofBitVec s.toBitVec = s := by cases s <;> rfl

theorem unpack_packComponents (s : Sign) (e : BitVec 11) (m : BitVec 52) :
    UnpackedFloat.unpack .binary64 (packComponents .binary64 s e m) =
      if e = -1#_ then if m = 0#_ then .infinity s else .notANumber
      else if e = 0#_ then
        if h : m = 0#_ then .zero s
        else .finite s m.toNat (e.toNat - 1075 + 1)
          (by simpa [BitVec.toNat_pos, BitVec.pos_iff_ne_zero])
      else .finite s (2 ^ 52 + m.toNat) (e.toNat - 1075) (by omega) := by
  have hbias : (Format.binary64.exponentBias : Int) + 52 = 1075 := by decide
  have happend : (1#1 ++ m).toNat = 2 ^ 52 + m.toNat := by
    rw [BitVec.toNat_append, ← Nat.shiftLeft_add_eq_or_of_lt m.isLt]
    simp [Nat.shiftLeft_eq]
  rw [UnpackedFloat.unpack]
  simp only [unpackMantissa_packComponents, unpackExponent_packComponents,
    unpackSign_packComponents, ofBitVec_toBitVec, happend]
  simp only [Nat.cast_ofNat, hbias]

theorem finite_congr {s : Sign} {m m' : Nat} {e e' : Int} {h : 0 < m} {h' : 0 < m'} (hm : m = m')
    (he : e = e') : UnpackedFloat.finite s m e h = .finite s m' e' h' := by
  subst hm he
  rfl

theorem unpack_pack_whole {n : Nat} (h : n < bound) :
    UnpackedFloat.unpack .binary64 (UnpackedFloat.pack .binary64 (whole n)) = whole n := by
  by_cases h0 : n = 0
  · subst h0
    rfl
  obtain ⟨hlow, hhigh⟩ := mantissa_bounds h0 h
  have hlog : n.log2 < 53 := (Nat.log2_lt h0).2 h
  have hbits : (mantissa n).log2 + 1 = Format.binary64.mantissaBits := by
    rw [(Nat.log2_eq_iff (by omega)).2 ⟨hlow, hhigh⟩]
    rfl
  have hbiased : (((n.log2 : Int) - 52) + Format.binary64.exponentBias + 52).toNat =
      n.log2 + 1023 := by
    have hbias : Format.binary64.exponentBias = 1023 := by decide
    rw [hbias]
    omega
  have hexponent : (BitVec.ofNat 11 (n.log2 + 1023)).toNat = n.log2 + 1023 := by
    rw [BitVec.toNat_ofNat, Nat.mod_eq_of_lt (by omega)]
  have hmantissa : 2 ^ 52 + (BitVec.ofNat 52 (mantissa n)).toNat = mantissa n := by
    rw [BitVec.toNat_ofNat]
    omega
  have hpack : UnpackedFloat.pack .binary64 (whole n) =
      packComponents .binary64 .positive (BitVec.ofNat 11 (n.log2 + 1023))
        (BitVec.ofNat 52 (mantissa n)) := by
    rw [whole_of_ne h0]
    simp only [UnpackedFloat.pack, Nat.cast_ofNat, hbiased]
    rw [if_neg (by omega), if_pos hbits]
  rw [hpack, unpack_packComponents, if_neg, if_neg, whole_of_ne h0]
  · exact finite_congr hmantissa (by rw [hexponent]; omega)
  · intro hzero
    have := congrArg BitVec.toNat hzero
    rw [hexponent] at this
    simp at this
  · intro hones
    have := congrArg BitVec.toNat hones
    rw [hexponent] at this
    simp at this
    omega

/-! ## Values -/

theorem normalize_whole {n : Nat} (h : n < bound) (k : Nat) :
    UnpackedFloat.normalize .binary64 ((n * 2 ^ k : Nat) : Int) (-k) .positive = whole n := by
  by_cases h0 : n = 0
  · subst h0
    simp [UnpackedFloat.normalize, whole]
  · have hpos : 0 < n * 2 ^ k := Nat.mul_pos (Nat.pos_of_ne_zero h0) (Nat.two_pow_pos k)
    have hcompare : compare ((n * 2 ^ k : Nat) : Int) 0 = .gt := by
      rw [Int.compare_eq_gt]
      omega
    rw [UnpackedFloat.normalize, hcompare]
    exact round_whole h0 h k

/-- One as a value. -/
def one : UnpackedFloat := .finite .positive (2 ^ 52) (-52) (by decide)

theorem mul_one_whole {n : Nat} (h : n < bound) :
    UnpackedFloat.mul .binary64 (whole n) one = whole n := by
  by_cases h0 : n = 0
  · subst h0
    rfl
  · have hlog : n.log2 < 53 := (Nat.log2_lt h0).2 h
    have hmantissa : mantissa n * 2 ^ 52 = n * 2 ^ (52 - n.log2 + 52) := by
      rw [mantissa, Nat.mul_assoc, ← Nat.pow_add]
    have hexponent : (n.log2 : Int) - 52 + -52 = -((52 - n.log2 + 52 : Nat) : Int) := by omega
    have hround := roundWithAccuracy_whole h0 h (k := 52 - n.log2 + 52) (by omega)
    rw [← hmantissa, ← hexponent] at hround
    rw [whole_of_ne h0] at hround ⊢
    exact hround

theorem toModel_ofNat {n : Nat} (h : n < bound) :
    (Float.ofNat n).toModel = Float.Model.pack (whole n) := by
  have hfast : Float.ofNat n = n.toUInt64.toFloat * Float.ofBits 0x3FF0000000000000 := by
    show Float.ofScientific n false 0 = _
    rw [Float.ofScientific, dif_pos ⟨h, by decide⟩]
    rfl
  have hone : (Float.ofBits 0x3FF0000000000000).toModel.unpack = one := by rfl
  have hword : (UInt64.ofNat n).toNat = n := UInt64.toNat_ofNat_of_lt' (h.trans (by decide))
  have hread : n.toUInt64.toFloat.toModel = Float.Model.pack (whole n) := by
    have hwhole := normalize_whole h 0
    rw [Nat.pow_zero, Nat.mul_one] at hwhole
    show Float.Model.pack
      (UnpackedFloat.normalize .binary64 ((UInt64.ofNat n).toNat : Int) 0 .positive) = _
    rw [hword]
    exact congrArg _ hwhole
  rw [hfast]
  show Float.Model.pack (UnpackedFloat.mul .binary64 n.toUInt64.toFloat.toModel.unpack
    (Float.ofBits 0x3FF0000000000000).toModel.unpack) = _
  rw [hone, hread]
  show Float.Model.pack (UnpackedFloat.mul .binary64
    (UnpackedFloat.unpack .binary64 (UnpackedFloat.pack .binary64 (whole n))) one) = _
  rw [unpack_pack_whole h, mul_one_whole h]

theorem unpack_ofNat {n : Nat} (h : n < bound) : (Float.ofNat n).toModel.unpack = whole n := by
  rw [toModel_ofNat h]
  exact unpack_pack_whole h

theorem ofModel_pack_whole {n : Nat} (h : n < bound) :
    Float.ofModel (Float.Model.pack (whole n)) = Float.ofNat n := by
  rw [← toModel_ofNat h]

/-- Lowering the exponent writes a whole number with more zeros. -/
theorem decreaseExponent_whole {n k : Nat} (h0 : n ≠ 0) (h : n < bound) (hk : 52 - n.log2 ≤ k) :
    (decreaseExponent (mantissa n) (n.log2 - 52) (-k)).1 = n * 2 ^ k := by
  have hlog : n.log2 < 53 := (Nat.log2_lt h0).2 h
  have hamount : ((n.log2 : Int) - 52 - -(k : Int)).toNat = k - (52 - n.log2) := by omega
  rw [decreaseExponent]
  simp only [hamount]
  rw [Nat.shiftLeft_eq, mantissa, Nat.mul_assoc, ← Nat.pow_add]
  congr 2
  omega

theorem add_whole {a b : Nat} (h : a + b < bound) :
    UnpackedFloat.add .binary64 (whole a) (whole b) = whole (a + b) := by
  by_cases ha : a = 0
  · subst ha
    rw [Nat.zero_add]
    by_cases hb : b = 0
    · subst hb
      rfl
    · rw [whole_of_ne hb]
      rfl
  by_cases hb : b = 0
  · subst hb
    rw [Nat.add_zero, whole_of_ne ha]
    rfl
  have hla : a.log2 < 53 := (Nat.log2_lt ha).2 (lt_of_le_of_lt (Nat.le_add_right a b) h)
  have hlb : b.log2 < 53 := (Nat.log2_lt hb).2 (lt_of_le_of_lt (Nat.le_add_left b a) h)
  -- both are written with the lower of the two exponents
  obtain ⟨k, hk⟩ : ∃ k : Nat, min ((a.log2 : Int) - 52) (b.log2 - 52) = -k :=
    ⟨52 - min a.log2 b.log2, by omega⟩
  have hsum : UnpackedFloat.add .binary64 (whole a) (whole b) =
      UnpackedFloat.normalize .binary64
        (((decreaseExponent (mantissa a) (a.log2 - 52) (-k)).1 : Int) +
          ((decreaseExponent (mantissa b) (b.log2 - 52) (-k)).1 : Int)) (-k) .positive := by
    rw [whole_of_ne ha, whole_of_ne hb, ← hk]
    rfl
  rw [hsum, decreaseExponent_whole ha (by omega) (by omega),
    decreaseExponent_whole hb (by omega) (by omega), ← Int.natCast_add, ← Nat.add_mul,
    normalize_whole h]

/-- Adding values of whole numbers adds the numbers. -/
theorem ofNat_add_ofNat {a b : Nat} (h : a + b < bound) :
    Float.ofNat a + Float.ofNat b = Float.ofNat (a + b) := by
  show Float.ofModel (Float.Model.pack (UnpackedFloat.add .binary64
    (Float.ofNat a).toModel.unpack (Float.ofNat b).toModel.unpack)) = _
  rw [unpack_ofNat (by omega), unpack_ofNat (by omega), add_whole h, ofModel_pack_whole h]

/-- Negative zero is neutral. -/
theorem neg_zero_add_ofNat {n : Nat} (h : n < bound) : -0.0 + Float.ofNat n = Float.ofNat n := by
  have hzero : (-0.0 : Float).toModel.unpack = .zero .negative := by rfl
  have hadd : UnpackedFloat.add .binary64 (.zero .negative) (whole n) = whole n := by
    by_cases h0 : n = 0
    · subst h0
      rfl
    · rw [whole_of_ne h0]
      rfl
  show Float.ofModel (Float.Model.pack (UnpackedFloat.add .binary64
    (-0.0 : Float).toModel.unpack (Float.ofNat n).toModel.unpack)) = _
  rw [hzero, unpack_ofNat h, hadd, ofModel_pack_whole h]

/-! ## Order -/

theorem compare_mantissa_of_lt {a b : Nat} (ha : a ≠ 0) (h : a < b) :
    (compare ((a.log2 : Int) - 52) (b.log2 - 52)).then (compare (mantissa a) (mantissa b)) =
      .lt := by
  have hlog : a.log2 ≤ b.log2 :=
    (Nat.le_log2 (by omega)).2 (((Nat.le_log2 ha).1 le_rfl).trans h.le)
  rcases hlog.lt_or_eq with hlog | hlog
  · rw [Int.compare_eq_lt.2 (by omega)]
    rfl
  · have hmantissa : mantissa a < mantissa b := by
      rw [mantissa, mantissa, hlog]
      exact Nat.mul_lt_mul_of_pos_right h (Nat.two_pow_pos _)
    rw [hlog, Int.compare_eq_eq.2 rfl, Nat.compare_eq_lt.2 hmantissa]
    rfl

/-- Values of whole numbers are in the order of the numbers. -/
theorem compare_whole {a b : Nat} :
    (whole a).compare (whole b) = some (compare a b) := by
  by_cases ha : a = 0
  · subst ha
    by_cases hb : b = 0
    · subst hb
      rfl
    · rw [whole_of_ne hb, Nat.compare_eq_lt.2 (by omega)]
      rfl
  by_cases hb : b = 0
  · subst hb
    rw [whole_of_ne ha, Nat.compare_eq_gt.2 (by omega)]
    rfl
  have hfinite : (whole a).compare (whole b) = some
      ((compare ((a.log2 : Int) - 52) (b.log2 - 52)).then (compare (mantissa a) (mantissa b))) := by
    rw [whole_of_ne ha, whole_of_ne hb]
    rfl
  rw [hfinite]
  congr 1
  rcases lt_trichotomy a b with h | rfl | h
  · rw [compare_mantissa_of_lt ha h, Nat.compare_eq_lt.2 h]
  · rw [Nat.compare_eq_eq.2 rfl, Int.compare_eq_eq.2 rfl, Nat.compare_eq_eq.2 rfl]
    rfl
  · have hswap := congrArg Ordering.swap (compare_mantissa_of_lt hb h)
    rw [Ordering.swap_then, Int.compare_swap, Nat.compare_swap] at hswap
    rw [hswap, Nat.compare_eq_gt.2 h]
    rfl

theorem ofNat_lt_ofNat {a b : Nat} (ha : a < bound) (hb : b < bound) :
    Float.ofNat a < Float.ofNat b ↔ a < b := by
  have hlt : Float.ofNat a < Float.ofNat b ↔
      ((Float.ofNat a).toModel.unpack.compare (Float.ofNat b).toModel.unpack == some .lt) := by
    show decide _ = true ↔ _
    rw [decide_eq_true_eq]
    exact Iff.rfl
  rw [hlt, unpack_ofNat ha, unpack_ofNat hb, compare_whole, beq_iff_eq, Option.some_inj,
    Nat.compare_eq_lt]

theorem ofNat_beq_ofNat {a b : Nat} (ha : a < bound) (hb : b < bound) :
    (Float.ofNat a == Float.ofNat b) = true ↔ a = b := by
  have heq : (Float.ofNat a == Float.ofNat b) =
      ((Float.ofNat a).toModel.unpack.compare (Float.ofNat b).toModel.unpack == some .eq) := rfl
  rw [heq, unpack_ofNat ha, unpack_ofNat hb, compare_whole]
  simp

/-! ## No whole number is too large to be a number -/

/-- Whether a value is a number that is not negative. -/
def NotNegative : UnpackedFloat → Prop
  | .infinity s | .zero s | .finite s _ _ _ => s = .positive
  | .notANumber => False

theorem notNegative_whole (n : Nat) : NotNegative (whole n) := by
  unfold whole
  split <;> rfl

theorem notNegative_roundWithAccuracy (m : Nat) (e : Int) (a : Accuracy) :
    NotNegative (roundWithAccuracy .binary64 .positive m e a) := by
  rw [roundWithAccuracy]
  simp only
  split <;> rfl

theorem notNegative_mul {m m' : Nat} {e e' : Int} (h : 0 < m) (h' : 0 < m') :
    NotNegative
      (UnpackedFloat.mul .binary64 (.finite .positive m e h) (.finite .positive m' e' h')) :=
  notNegative_roundWithAccuracy _ _ _

theorem notNegative_unpack_packComponents {e : BitVec 11} {m : BitVec 52}
    (h : e = -1#_ → m = 0#_) :
    NotNegative (UnpackedFloat.unpack .binary64 (packComponents .binary64 .positive e m)) := by
  rw [unpack_packComponents]
  split
  · rename_i he
    rw [if_pos (h he)]
    rfl
  · split
    · split <;> rfl
    · rfl

theorem notNegative_unpack_pack {f : UnpackedFloat} (h : NotNegative f) :
    NotNegative (UnpackedFloat.unpack .binary64 (UnpackedFloat.pack .binary64 f)) := by
  cases f with
  | notANumber => exact h.elim
  | infinity s =>
    obtain rfl : s = .positive := h
    exact notNegative_unpack_packComponents fun _ => rfl
  | zero s =>
    obtain rfl : s = .positive := h
    exact notNegative_unpack_packComponents fun _ => rfl
  | finite s m e hm =>
    obtain rfl : s = .positive := h
    simp only [UnpackedFloat.pack]
    split
    · exact notNegative_unpack_packComponents fun _ => rfl
    · split
      · rename_i hsmall _
        refine notNegative_unpack_packComponents fun hones => ?_
        have hones := congrArg BitVec.toNat hones
        rw [BitVec.toNat_ofNat, Nat.mod_eq_of_lt (by omega)] at hones
        simp at hones
        omega
      · exact notNegative_unpack_packComponents fun hones => absurd hones (by decide)

/-- The value of a whole number is a number and not negative, however large the number is. -/
theorem notNegative_ofNat (n : Nat) : NotNegative (Float.ofNat n).toModel.unpack := by
  by_cases h : n < bound
  · rw [unpack_ofNat h]
    exact notNegative_whole n
  · have hslow : Float.ofNat n = Float.ofModel (Float.Model.ofScientific n 0) := by
      show Float.ofScientific n false 0 = _
      rw [Float.ofScientific, dif_neg fun hn => h hn.1]
      rfl
    rw [hslow]
    refine notNegative_unpack_pack (f := UnpackedFloat.ofScientific .binary64 n 0) ?_
    have h0 : n ≠ 0 := fun h0 => h (h0 ▸ by decide)
    have hbits : (2 : Int) ^ Format.binary64.exponentBits = 2048 := by decide
    rw [UnpackedFloat.ofScientific, hbits, dif_neg h0, if_neg (by decide), if_neg (by omega),
      if_pos le_rfl]
    exact notNegative_mul _ _

theorem isNaN_ofNat (n : Nat) : (Float.ofNat n).isNaN = false := by
  have h := notNegative_ofNat n
  show (Float.ofNat n).toModel.unpack.isNaN = false
  cases hn : (Float.ofNat n).toModel.unpack with
  | notANumber => rw [hn] at h; exact h.elim
  | _ => rfl

end WholeNumber

end CodeGauge

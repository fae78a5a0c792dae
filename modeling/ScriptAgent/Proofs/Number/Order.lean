import Mathlib.Algebra.Order.Field.Power
import Mathlib.Data.Rat.Cast.Order
import Mathlib.Order.Compare
import Mathlib.Tactic.FieldSimp
import Mathlib.Tactic.Linarith
import Mathlib.Tactic.Ring
import ScriptAgent.Number.Binary64

/-!
# Doubles in the order of their values

A finite double has an exact value, read off its dyadic form.  Comparisons of finite doubles are comparisons of
their values: their arithmetic takes them apart as the dyadic form does, and in that form, in which either the
significand has all its bits or the exponent is the least, a greater exponent is a greater number.
-/

namespace ScriptAgent.Number

open Float.Model
open Float.Model.UnpackedFloat (Sign)

/-- The exact value of a dyadic number. -/
def Dyadic.toRat (d : Dyadic) : ℚ :=
  (if d.negative then -(d.significand : ℚ) else d.significand) * 2 ^ d.exponent

/-- The exact value of a finite double. -/
def toRat (x : Float) : ℚ :=
  (toDyadic x).toRat

/-- The form that a double is taken apart into: its significand has 53 bits, or its exponent is the
least one. -/
structure Dyadic.Normal (d : Dyadic) : Prop where
  lt : d.significand < 2 ^ 53
  least : -1074 ≤ d.exponent
  full : 2 ^ 52 ≤ d.significand ∨ d.exponent = -1074

/-- The sign of a dyadic number. -/
def Dyadic.sign (d : Dyadic) : Sign :=
  if d.negative then .negative else .positive

/-- A dyadic number as the arithmetic of doubles takes it. -/
def Dyadic.unpacked (d : Dyadic) : UnpackedFloat :=
  if h : d.significand = 0 then .zero d.sign
  else .finite d.sign d.significand d.exponent (Nat.pos_of_ne_zero h)

variable {x y : Float} {a b : Dyadic}

/-! ### Fields -/

theorem toNat_unpackExponent (x : Float) :
    (@UnpackedFloat.unpackExponent Format.binary64 x.toBits.toBitVec).toNat = exponentField x := by
  unfold UnpackedFloat.unpackExponent exponentField
  simp only [BitVec.toNat_cast, BitVec.extractLsb_toNat, UInt64.toNat_and, UInt64.toNat_shiftRight,
    UInt64.toNat_toBitVec, UInt64.reduceToNat, Nat.reduceMod]
  exact (Nat.and_two_pow_sub_one_eq_mod _ 11).symm

theorem toNat_unpackMantissa (x : Float) :
    (@UnpackedFloat.unpackMantissa Format.binary64 x.toBits.toBitVec).toNat = fractionField x := by
  unfold UnpackedFloat.unpackMantissa fractionField
  simp only [BitVec.toNat_cast, BitVec.extractLsb_toNat, UInt64.toNat_and,
    UInt64.toNat_toBitVec, UInt64.reduceToNat, Nat.shiftRight_zero]
  exact (Nat.and_two_pow_sub_one_eq_mod _ 52).symm

theorem fractionField_lt (x : Float) : fractionField x < 2 ^ 52 := by
  rw [← toNat_unpackMantissa]
  exact BitVec.isLt _

theorem ofBitVec_unpackSign (x : Float) :
    Sign.ofBitVec (@UnpackedFloat.unpackSign Format.binary64 x.toBits.toBitVec) =
      if signBit x then .negative else .positive := by
  have hlt : x.toBits.toNat >>> 63 < 2 := by
    have := x.toBits.toNat_lt
    rw [Nat.shiftRight_eq_div_pow]
    omega
  have hsign : (@UnpackedFloat.unpackSign Format.binary64 x.toBits.toBitVec).toNat =
      x.toBits.toNat >>> 63 := by
    unfold UnpackedFloat.unpackSign
    simp only [BitVec.toNat_cast, BitVec.extractLsb_toNat, UInt64.toNat_toBitVec]
    exact Nat.mod_eq_of_lt hlt
  have hbit : signBit x = decide (x.toBits.toNat >>> 63 = 1) := by
    simp only [signBit, beq_eq_decide, ← UInt64.toNat_inj, UInt64.toNat_shiftRight, UInt64.reduceToNat,
      Nat.reduceMod]
  simp only [Sign.ofBitVec, hbit, ← BitVec.toNat_inj, hsign, BitVec.toNat_ofNat, Nat.zero_mod, decide_eq_true_eq]
  split <;> split <;> first | rfl | omega

theorem toDyadic_normal (x : Float) : (toDyadic x).Normal := by
  have hf := fractionField_lt x
  unfold toDyadic
  dsimp only
  split
  · exact ⟨by dsimp only; omega, by simp, .inr rfl⟩
  · next he =>
    have : exponentField x ≠ 0 := by simpa using he
    refine ⟨by simp; omega, by simp; omega, .inl (by simp)⟩

/-- The arithmetic of doubles takes a finite double apart as `toDyadic` does. -/
theorem unpack_eq (h : isFinite x) : x.toModel.unpack = (toDyadic x).unpacked := by
  have hexp := toNat_unpackExponent x
  have hfrac := toNat_unpackMantissa x
  have hsign := ofBitVec_unpackSign x
  have hinf : @UnpackedFloat.unpackExponent Format.binary64 x.toBits.toBitVec ≠ -1#11 := by
    intro he
    have hmax : exponentField x = 2047 := by rw [← hexp, he]; rfl
    simp [isFinite, hmax] at h
  have hzero : @UnpackedFloat.unpackExponent Format.binary64 x.toBits.toBitVec = 0#11 ↔
      exponentField x = 0 := by
    rw [← hexp, ← BitVec.toNat_inj]
    rfl
  have hempty : @UnpackedFloat.unpackMantissa Format.binary64 x.toBits.toBitVec = 0#52 ↔
      fractionField x = 0 := by
    rw [← hfrac, ← BitVec.toNat_inj]
    rfl
  show UnpackedFloat.unpack Format.binary64 x.toBits.toBitVec = _
  unfold UnpackedFloat.unpack
  dsimp only
  rw [if_neg hinf, hsign]
  by_cases he : exponentField x = 0
  · rw [if_pos (hzero.mpr he)]
    have hd : toDyadic x = ⟨signBit x, fractionField x, -1074⟩ := by simp [toDyadic, he]
    rw [hd]
    by_cases hm : fractionField x = 0
    · rw [dif_pos (hempty.mpr hm), Dyadic.unpacked, dif_pos hm]
      rfl
    · rw [dif_neg (mt hempty.mp hm), Dyadic.unpacked, dif_neg hm, UnpackedFloat.finite.injEq, hexp, he]
      exact ⟨rfl, hfrac, rfl⟩
  · rw [if_neg (mt hzero.mp he)]
    have hd : toDyadic x = ⟨signBit x, fractionField x + 2 ^ 52, (exponentField x : Int) - 1075⟩ := by
      simp [toDyadic, he]
    rw [hd, Dyadic.unpacked, dif_neg (by simp)]
    have hlead : (1#1 ++ @UnpackedFloat.unpackMantissa Format.binary64 x.toBits.toBitVec).toNat =
        fractionField x + 2 ^ 52 := by
      rw [BitVec.toNat_append, ← Nat.shiftLeft_add_eq_or_of_lt (BitVec.isLt _), hfrac, Nat.add_comm]
      rfl
    rw [UnpackedFloat.finite.injEq, hexp]
    exact ⟨rfl, hlead, rfl⟩

/-! ### Order -/

/-- The size of a dyadic number, its sign left out. -/
def Dyadic.magnitude (d : Dyadic) : ℚ :=
  d.significand * 2 ^ d.exponent

theorem Dyadic.toRat_eq (d : Dyadic) : d.toRat = if d.negative then -d.magnitude else d.magnitude := by
  unfold toRat magnitude
  split <;> ring

theorem Dyadic.magnitude_eq_zero (d : Dyadic) : d.magnitude = 0 ↔ d.significand = 0 := by
  have hpow : (2 : ℚ) ^ d.exponent ≠ 0 := zpow_ne_zero _ (by norm_num)
  simp [magnitude, hpow]

theorem Dyadic.magnitude_pos (h : a.significand ≠ 0) : 0 < a.magnitude := by
  have hpow : (0 : ℚ) < 2 ^ a.exponent := zpow_pos (by norm_num) _
  have hsig : (0 : ℚ) < a.significand := by exact_mod_cast Nat.pos_of_ne_zero h
  exact mul_pos hsig hpow

theorem Dyadic.unpacked_cases (a : Dyadic) :
    (∃ s, a.unpacked = .zero s ∧ a.toRat = 0) ∨
      (∃ h, a.unpacked = .finite .positive a.significand a.exponent h ∧ a.toRat = a.magnitude ∧ 0 < a.magnitude) ∨
      ∃ h, a.unpacked = .finite .negative a.significand a.exponent h ∧ a.toRat = -a.magnitude ∧ 0 < a.magnitude := by
  rw [a.toRat_eq]
  by_cases h : a.significand = 0
  · have hzero := a.magnitude_eq_zero.mpr h
    exact .inl ⟨a.sign, by rw [unpacked, dif_pos h], by simp [hzero]⟩
  · have hpos := magnitude_pos h
    have hunpacked : a.unpacked = .finite a.sign a.significand a.exponent (Nat.pos_of_ne_zero h) := by
      rw [unpacked, dif_neg h]
    cases hs : a.negative with
    | false =>
      have hsign : a.sign = .positive := if_neg (by simp [hs])
      exact .inr (.inl ⟨Nat.pos_of_ne_zero h, hsign ▸ hunpacked, by simp, hpos⟩)
    | true =>
      have hsign : a.sign = .negative := if_pos hs
      exact .inr (.inr ⟨Nat.pos_of_ne_zero h, hsign ▸ hunpacked, by simp, hpos⟩)

namespace Dyadic.Normal

/-- Of two numbers in normal form the one with the smaller exponent is smaller. -/
theorem magnitude_lt (ha : a.Normal) (hb : b.Normal) (h : a.exponent < b.exponent) :
    a.magnitude < b.magnitude := by
  have hfull : 2 ^ 52 ≤ b.significand := by
    have := ha.least
    rcases hb.full with hf | hf
    · exact hf
    · omega
  have hpos : (0 : ℚ) < 2 ^ a.exponent := zpow_pos (by norm_num) _
  calc a.magnitude
      < 2 ^ 53 * 2 ^ a.exponent := mul_lt_mul_of_pos_right (by exact_mod_cast ha.lt) hpos
    _ = 2 ^ 52 * 2 ^ (a.exponent + 1) := by rw [zpow_add_one₀ (by norm_num)]; ring
    _ ≤ b.significand * 2 ^ b.exponent := by
      apply mul_le_mul
      · exact_mod_cast hfull
      · exact zpow_le_zpow_right₀ (by norm_num) h
      · exact (zpow_pos (by norm_num) _).le
      · positivity

/-- Magnitudes in normal form are compared by exponent, then by significand. -/
theorem compare_magnitude (ha : a.Normal) (hb : b.Normal) :
    compare a.magnitude b.magnitude =
      (compare a.exponent b.exponent).then (compare a.significand b.significand) := by
  rcases lt_trichotomy a.exponent b.exponent with h | h | h
  · rw [compare_lt_iff_lt.mpr (ha.magnitude_lt hb h), compare_lt_iff_lt.mpr h]
    rfl
  · have hpos : (0 : ℚ) < 2 ^ b.exponent := zpow_pos (by norm_num) _
    have hscaled : a.magnitude = a.significand * 2 ^ b.exponent := by rw [Dyadic.magnitude, h]
    rw [compare_eq_iff_eq.mpr h, hscaled]
    show compare _ _ = compare a.significand b.significand
    rcases lt_trichotomy a.significand b.significand with h | h | h
    · rw [compare_lt_iff_lt.mpr h, compare_lt_iff_lt]
      exact mul_lt_mul_of_pos_right (by exact_mod_cast h) hpos
    · rw [h, compare_eq_iff_eq.mpr rfl]
      exact compare_eq_iff_eq.mpr rfl
    · rw [compare_gt_iff_gt.mpr h, compare_gt_iff_gt]
      exact mul_lt_mul_of_pos_right (by exact_mod_cast h) hpos
  · rw [compare_gt_iff_gt.mpr (hb.magnitude_lt ha h), compare_gt_iff_gt.mpr h]
    rfl

/-- Numbers in normal form are compared by their values. -/
theorem compare_unpacked (ha : a.Normal) (hb : b.Normal) :
    a.unpacked.compare b.unpacked = some (compare a.toRat b.toRat) := by
  have hmag := ha.compare_magnitude hb
  have hswap : compare (-a.magnitude) (-b.magnitude) = (compare a.magnitude b.magnitude).swap := by
    rcases lt_trichotomy a.magnitude b.magnitude with h | h | h
    · rw [compare_lt_iff_lt.mpr h, compare_gt_iff_gt.mpr (neg_lt_neg h)]
      rfl
    · rw [h, compare_eq_iff_eq.mpr rfl, compare_eq_iff_eq.mpr rfl]
      rfl
    · rw [compare_gt_iff_gt.mpr h, compare_lt_iff_lt.mpr (neg_lt_neg h)]
      rfl
  -- each of the two is zero, positive or negative; only where the signs agree are magnitudes compared
  rcases a.unpacked_cases with ⟨sa, hua, hva⟩ | ⟨pa, hua, hva, hapos⟩ | ⟨pa, hua, hva, hapos⟩ <;>
  rcases b.unpacked_cases with ⟨sb, hub, hvb⟩ | ⟨pb, hub, hvb, hbpos⟩ | ⟨pb, hub, hvb, hbpos⟩ <;>
  rw [hua, hub, hva, hvb]
  · exact congrArg some (compare_eq_iff_eq.mpr rfl).symm
  · exact congrArg some (compare_lt_iff_lt.mpr hbpos).symm
  · exact congrArg some (compare_gt_iff_gt.mpr (by linarith)).symm
  · exact congrArg some (compare_gt_iff_gt.mpr hapos).symm
  · exact congrArg some hmag.symm
  · exact congrArg some (compare_gt_iff_gt.mpr (by linarith)).symm
  · exact congrArg some (compare_lt_iff_lt.mpr (by linarith)).symm
  · exact congrArg some (compare_lt_iff_lt.mpr (by linarith)).symm
  · rw [hswap, hmag]
    rfl

end Dyadic.Normal

theorem compare_unpack (hx : isFinite x) (hy : isFinite y) :
    x.toModel.unpack.compare y.toModel.unpack = some (compare (toRat x) (toRat y)) := by
  rw [unpack_eq hx, unpack_eq hy]
  exact (toDyadic_normal x).compare_unpacked (toDyadic_normal y)

/-- Finite doubles are ordered by their values. -/
theorem lt_iff (hx : isFinite x) (hy : isFinite y) : x < y ↔ toRat x < toRat y := by
  have hlt : x < y ↔ (x.toModel.unpack.compare y.toModel.unpack == some .lt) = true := decide_eq_true_iff
  rw [hlt, compare_unpack hx hy, beq_iff_eq, Option.some_inj, compare_lt_iff_lt]

theorem le_iff (hx : isFinite x) (hy : isFinite y) : x ≤ y ↔ toRat x ≤ toRat y := by
  have hle : x ≤ y ↔ (x.toModel.unpack.compare y.toModel.unpack).any (·.isLE) = true := decide_eq_true_iff
  rw [hle, compare_unpack hx hy, Option.any_some, Ordering.isLE_iff_ne_gt]
  exact compare_le_iff_le

/-- Finite doubles are equal just if their values are. -/
theorem beq_iff (hx : isFinite x) (hy : isFinite y) : (x == y) = true ↔ toRat x = toRat y := by
  have hbeq : (x == y) = (x.toModel.unpack.compare y.toModel.unpack == some .eq) := rfl
  rw [hbeq, compare_unpack hx hy, beq_iff_eq, Option.some_inj, compare_eq_iff_eq]

/-! ### Whole numbers -/

theorem Dyadic.exists_int (h : 0 ≤ a.exponent) : ∃ n : ℤ, a.toRat = n := by
  have hpow : (2 : ℚ) ^ a.exponent = ((2 ^ a.exponent.toNat : ℕ) : ℚ) := by
    rw [Nat.cast_pow, ← zpow_natCast, Int.toNat_of_nonneg h]
    rfl
  rw [toRat, hpow]
  split
  · exact ⟨-a.significand * (2 ^ a.exponent.toNat : ℕ), by push_cast; rfl⟩
  · exact ⟨a.significand * (2 ^ a.exponent.toNat : ℕ), by push_cast; rfl⟩

/-- Below the point a number is whole just if the bits there are zero. -/
theorem Dyadic.exists_int_iff_dvd {k : ℕ} (h : a.exponent = -k) : (∃ n : ℤ, a.toRat = n) ↔ 2 ^ k ∣ a.significand := by
  have hne : (2 : ℚ) ^ k ≠ 0 := pow_ne_zero _ (by norm_num)
  have hdiv : a.magnitude = a.significand / 2 ^ k := by
    rw [magnitude, h, zpow_neg, zpow_natCast, div_eq_mul_inv]
  have hsign : (∃ n : ℤ, a.toRat = n) ↔ ∃ n : ℤ, a.magnitude = n := by
    rw [a.toRat_eq]
    split
    · constructor <;> rintro ⟨n, hn⟩ <;> exact ⟨-n, by push_cast; linarith⟩
    · rfl
  rw [hsign, hdiv]
  constructor
  · rintro ⟨n, hn⟩
    rw [div_eq_iff hne] at hn
    have hint : (a.significand : ℤ) = 2 ^ k * n := by
      rw [Int.mul_comm]
      exact_mod_cast hn
    exact_mod_cast Dvd.intro n hint.symm
  · rintro ⟨c, hc⟩
    refine ⟨c, ?_⟩
    rw [hc]
    push_cast
    field_simp

/-- A whole double is one whose value is an integer. -/
theorem isWhole_iff (hx : isFinite x) : isWhole x = true ↔ ∃ n : ℤ, toRat x = n := by
  unfold isWhole toRat
  rw [hx, Bool.true_and]
  dsimp only
  generalize toDyadic x = d
  by_cases he : 0 ≤ d.exponent
  · simp only [ge_iff_le, he, decide_true, Bool.true_or, true_iff]
    exact Dyadic.exists_int he
  · obtain ⟨k, hk⟩ : ∃ k : ℕ, d.exponent = -k := ⟨(-d.exponent).toNat, by omega⟩
    have hnat : (-d.exponent).toNat = k := by omega
    rw [Dyadic.exists_int_iff_dvd hk, hnat, Nat.pow_eq, Nat.dvd_iff_mod_eq_zero]
    simp [he]

end ScriptAgent.Number

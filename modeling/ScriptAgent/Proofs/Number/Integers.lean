import ScriptAgent.Proofs.Number.Order

/-!
# Doubles of integers

The double of an integer is finite and whole unless the integer is far too large, and it is the integer itself
if no bit beyond the 53 most significant ones is set.  Both are seen in the significand with all its bits: there
rounding drops what is beyond it, and a double put together from it is taken apart into it again.
-/

namespace ScriptAgent.Number

open Float.Model
open Float.Model.UnpackedFloat (Sign ExtendedMantissa Accuracy roundWithAccuracy shiftToTargetExponent)

variable {x : Float} {a : Dyadic}

/-! ### Significands with all bits -/

/-- A number with all 53 bits in its significand, and an exponent that a double has room for. -/
structure Dyadic.Full (d : Dyadic) : Prop where
  le : 2 ^ 52 ≤ d.significand
  lt : d.significand < 2 ^ 53
  least : -1074 ≤ d.exponent
  greatest : d.exponent ≤ 971

theorem Dyadic.Full.normal (h : a.Full) : a.Normal := ⟨h.lt, h.least, .inl h.le⟩

theorem Dyadic.Full.log2 (h : a.Full) : a.significand.log2 = 52 :=
  (Nat.log2_eq_iff (by have := h.le; omega)).mpr ⟨h.le, h.lt⟩

theorem unpackSign_packComponents (s : Sign) (e : BitVec 11) (m : BitVec 52) :
    UnpackedFloat.unpackSign (UnpackedFloat.packComponents Format.binary64 s e m) = s.toBitVec := by
  ext i hi
  obtain rfl : i = 0 := by omega
  show (BitVec.extractLsb 63 63 (s.toBitVec ++ e ++ m))[0] = s.toBitVec[0]
  have hbit : (s.toBitVec ++ e ++ m).getLsbD 63 = s.toBitVec.getLsbD 0 := by
    rw [BitVec.getLsbD_append, BitVec.getLsbD_append]
    rfl
  simpa [BitVec.extractLsb, BitVec.getElem_extractLsb'] using hbit

/-- A double that was put together from a full significand is taken apart into it. -/
theorem unpack_pack (h : a.Full) : (Float.Model.pack a.unpacked).unpack = a.unpacked := by
  have hle := h.le
  have hlt := h.lt
  have hleast := h.least
  have hgreatest := h.greatest
  have hne : a.significand ≠ 0 := by omega
  -- `e` is the exponent as it is stored: neither that of zero nor that of infinity
  obtain ⟨e, he⟩ : ∃ e : ℕ, a.exponent = (e : ℤ) - 1075 := ⟨(a.exponent + 1075).toNat, by omega⟩
  have hbounds : 1 ≤ e ∧ e < 2047 := by omega
  have hbiased : (a.exponent + (Format.binary64.exponentBias : ℤ) + (52 : ℕ)).toNat = e := by
    rw [he]
    show ((e : ℤ) - 1075 + 1023 + 52).toNat = e
    omega
  have hunpacked : a.unpacked = .finite a.sign a.significand a.exponent (Nat.pos_of_ne_zero hne) := by
    rw [Dyadic.unpacked, dif_neg hne]
  have hpack : UnpackedFloat.pack Format.binary64 a.unpacked =
      UnpackedFloat.packComponents Format.binary64 a.sign (BitVec.ofNat 11 e) (BitVec.ofNat 52 a.significand) := by
    rw [hunpacked]
    unfold UnpackedFloat.pack
    dsimp only
    rw [hbiased, h.log2, if_neg (by omega)]
    exact if_pos rfl
  have hexp : (BitVec.ofNat 11 e).toNat = e := by
    rw [BitVec.toNat_ofNat, Nat.mod_eq_of_lt (by omega)]
  have hinf : BitVec.ofNat 11 e ≠ -1#11 := by
    intro heq
    have hmax : e = 2047 := by rw [← hexp, heq]; rfl
    omega
  have hzero : BitVec.ofNat 11 e ≠ 0#11 := by
    intro heq
    have hmin : e = 0 := by rw [← hexp, heq]; rfl
    omega
  have hlead : (1#1 ++ BitVec.ofNat 52 a.significand).toNat = a.significand := by
    rw [BitVec.toNat_append, ← Nat.shiftLeft_add_eq_or_of_lt (BitVec.isLt _), BitVec.toNat_ofNat]
    show 2 ^ 52 + a.significand % 2 ^ 52 = a.significand
    omega
  have hsign : Sign.ofBitVec a.sign.toBitVec = a.sign := by cases a.sign <;> rfl
  show UnpackedFloat.unpack Format.binary64 (UnpackedFloat.pack Format.binary64 a.unpacked) = a.unpacked
  rw [hpack]
  unfold UnpackedFloat.unpack
  dsimp only
  rw [UnpackedFloat.unpackExponent_packComponents, if_neg hinf, if_neg hzero, hunpacked, UnpackedFloat.finite.injEq]
  refine ⟨?_, ?_, ?_⟩
  · rw [unpackSign_packComponents, hsign]
  · rw [UnpackedFloat.unpackMantissa_packComponents, hlead]
  · rw [hexp, he]
    rfl

/-! ### Rounding -/

/-- Bits that are all zero leave nothing behind when they are shifted out. -/
theorem shift_exact (m k : ℕ) :
    (ExtendedMantissa.mk (m * 2 ^ k) false false) >>> k = ExtendedMantissa.mk m false false := by
  induction k generalizing m with
  | zero => simp [HShiftRight.hShiftRight, Nat.repeat]
  | succ k ih =>
    show ((ExtendedMantissa.mk (m * 2 ^ (k + 1)) false false) >>> k).shiftRightOne = _
    have hsplit : m * 2 ^ (k + 1) = (m * 2) * 2 ^ k := by ring
    rw [hsplit, ih]
    simp [ExtendedMantissa.shiftRightOne]

theorem mantissa_shift (em : ExtendedMantissa) (k : ℕ) : (em >>> k).mantissa = em.mantissa / 2 ^ k := by
  induction k with
  | zero => simp [HShiftRight.hShiftRight, Nat.repeat]
  | succ k ih =>
    show (em >>> k).mantissa / 2 = _
    rw [ih, Nat.div_div_eq_div_mul, Nat.pow_succ]

theorem roundedMantissa_bounds (em : ExtendedMantissa) :
    em.mantissa ≤ em.roundedMantissa ∧ em.roundedMantissa ≤ em.mantissa + 1 := by
  obtain ⟨m, r, s⟩ := em
  cases r <;> cases s <;>
    simp only [ExtendedMantissa.roundedMantissa, ExtendedMantissa.accuracy, Accuracy.roundToNearestEven] <;> omega

theorem shiftToTargetExponent_eq {m : ℕ} {e : ℤ} (he : -1074 ≤ e) :
    shiftToTargetExponent Format.binary64 m e .exact =
      (ExtendedMantissa.mk m false false >>> (m.log2 - 52), e + (m.log2 - 52 : ℕ)) := by
  have htarget : Format.binary64.targetExponent (totalExponent m e) = max (m.log2 + e - 52) (-1074) := by
    show max ((m.log2 : ℤ) + 1 + e - 53) (3 - 2 ^ 10 - 53) = _
    omega
  have hamount : (max ((m.log2 : ℤ) + e - 52) (-1074) - e).toNat = m.log2 - 52 := by omega
  unfold shiftToTargetExponent UnpackedFloat.shiftToExponent
  rw [htarget]
  dsimp only
  rw [hamount]
  rfl

theorem Dyadic.Full.unpacked_eq {n : ℕ} {f : ℤ} (h : Full ⟨false, n, f⟩) :
    Dyadic.unpacked ⟨false, n, f⟩ = .finite .positive n f (Nat.lt_of_lt_of_le (Nat.two_pow_pos 52) h.le) := by
  have hle : 2 ^ 52 ≤ n := h.le
  rw [Dyadic.unpacked, dif_neg (by dsimp only; omega)]
  rfl

/-- A significand of at least 53 bits is rounded to one of exactly 53; nothing is lost if the bits that are
dropped are zero. -/
theorem exists_full_round {m : ℕ} {e : ℤ} (hm : 52 ≤ m.log2) (he : -1074 ≤ e) (hmax : e + m.log2 ≤ 1022) :
    ∃ d : Dyadic, d.Full ∧ d.negative = false ∧
      e + (m.log2 - 52 : ℕ) ≤ d.exponent ∧ d.exponent ≤ e + (m.log2 - 52 : ℕ) + 1 ∧
      roundWithAccuracy Format.binary64 .positive m e .exact = d.unpacked ∧
      (2 ^ (m.log2 - 52) ∣ m → d.toRat = m * 2 ^ e) := by
  have hm0 : m ≠ 0 := by rintro rfl; simp at hm
  obtain ⟨k, hk⟩ : ∃ k, m.log2 = 52 + k := ⟨m.log2 - 52, by omega⟩
  have hdrop : m.log2 - 52 = k := by omega
  have hlow : 2 ^ 52 ≤ m / 2 ^ k := by
    rw [Nat.le_div_iff_mul_le (Nat.two_pow_pos k), ← pow_add, ← hk]
    exact Nat.log2_self_le hm0
  have hhigh : m / 2 ^ k < 2 ^ 53 := by
    rw [Nat.div_lt_iff_lt_mul (Nat.two_pow_pos k), ← pow_add, show 53 + k = m.log2 + 1 by omega]
    exact Nat.lt_log2_self
  -- what is left of the significand, with what was dropped noted in two bits
  obtain ⟨em, hem⟩ : ∃ em, em = ExtendedMantissa.mk m false false >>> k := ⟨_, rfl⟩
  have hmantissa : em.mantissa = m / 2 ^ k := by rw [hem, mantissa_shift]
  obtain ⟨hle, hge⟩ := roundedMantissa_bounds em
  have hexact : 2 ^ k ∣ m → (em.roundedMantissa : ℚ) * 2 ^ (e + k) = m * 2 ^ e := by
    rintro ⟨c, hc⟩
    have hround : em = ⟨c, false, false⟩ := by rw [hem, hc, Nat.mul_comm, shift_exact]
    rw [hround, hc, zpow_add₀ (by norm_num), zpow_natCast]
    show (c : ℚ) * _ = _
    push_cast
    ring
  unfold roundWithAccuracy
  rw [shiftToTargetExponent_eq he, hdrop, ← hem]
  dsimp only
  -- 53 bits are left unless rounding up carries
  by_cases hr : em.roundedMantissa < 2 ^ 53
  · have hlog : em.roundedMantissa.log2 = 52 := (Nat.log2_eq_iff (by omega)).mpr ⟨by omega, hr⟩
    have hfull : Dyadic.Full ⟨false, em.roundedMantissa, e + k⟩ :=
      ⟨by dsimp only; omega, hr, by dsimp only; omega, by dsimp only; omega⟩
    rw [shiftToTargetExponent_eq (by omega), hlog]
    refine ⟨_, hfull, rfl, by simp, by simp, ?_, hexact⟩
    rw [hfull.unpacked_eq, dif_neg, UnpackedFloat.finite.injEq]
    · exact ⟨rfl, by simp [mantissa_shift], by simp⟩
    · simp [mantissa_shift]; omega
  · -- rounding up has carried into a bit more, which is zero then
    have hcarry : em.roundedMantissa = 2 ^ 53 := by omega
    have hfull : Dyadic.Full ⟨false, 2 ^ 52, e + k + 1⟩ :=
      ⟨le_rfl, by norm_num, by dsimp only; omega, by dsimp only; omega⟩
    rw [hcarry] at hexact ⊢
    rw [shiftToTargetExponent_eq (by omega), Nat.log2_two_pow]
    refine ⟨_, hfull, rfl, by simp, by simp, ?_, fun hdvd => ?_⟩
    · rw [hfull.unpacked_eq, dif_neg, UnpackedFloat.finite.injEq]
      · exact ⟨rfl, by simp [mantissa_shift], by simp⟩
      · simp [mantissa_shift]
    · rw [← hexact hdvd]
      show ((2 ^ 52 : ℕ) : ℚ) * 2 ^ (e + k + 1) = _
      rw [zpow_add_one₀ (by norm_num)]
      push_cast
      ring

/-! ### Integers -/

theorem isFinite_of_unpack (h : x.toModel.unpack = a.unpacked) : isFinite x = true := by
  unfold isFinite
  rw [bne_iff_ne]
  intro hinf
  have hexp : @UnpackedFloat.unpackExponent Format.binary64 x.toBits.toBitVec = -1#11 := by
    rw [← BitVec.toNat_inj, toNat_unpackExponent, hinf]
    rfl
  have hunpack : UnpackedFloat.unpack Format.binary64 x.toBits.toBitVec = a.unpacked := h
  unfold UnpackedFloat.unpack at hunpack
  dsimp only at hunpack
  rw [if_pos hexp] at hunpack
  by_cases hm : @UnpackedFloat.unpackMantissa Format.binary64 x.toBits.toBitVec = 0#52
  · rw [if_pos hm] at hunpack
    rcases a.unpacked_cases with ⟨_, ha, -⟩ | ⟨_, ha, -⟩ | ⟨_, ha, -⟩ <;> cases hunpack.trans ha
  · rw [if_neg hm] at hunpack
    rcases a.unpacked_cases with ⟨_, ha, -⟩ | ⟨_, ha, -⟩ | ⟨_, ha, -⟩ <;> cases hunpack.trans ha

theorem toRat_of_unpack (ha : a.Normal) (h : x.toModel.unpack = a.unpacked) : toRat x = a.toRat := by
  have hfinite := isFinite_of_unpack h
  have hcompare : a.unpacked.compare a.unpacked = some (compare (toRat x) a.toRat) := by
    rw [toRat, ← (toDyadic_normal x).compare_unpacked ha, ← unpack_eq hfinite, h]
  rw [ha.compare_unpacked ha, Option.some_inj, compare_eq_iff_eq.mpr rfl] at hcompare
  exact compare_eq_iff_eq.mp hcompare.symm

/-- A double that was rounded to a positive number of 53 bits. -/
structure Rounded (x : Float) (d : Dyadic) : Prop where
  full : d.Full
  positive : d.negative = false
  unpack : x.toModel.unpack = d.unpacked

theorem unpack_one : (Float.ofBits 0x3FF0000000000000).toModel.unpack =
    .finite .positive (2 ^ 52) (-52) (Nat.two_pow_pos 52) := rfl

theorem log2_mul_two_pow {m : ℕ} (h : m ≠ 0) (k : ℕ) : (m * 2 ^ k).log2 = m.log2 + k := by
  rw [Nat.log2_eq_iff (by positivity)]
  constructor
  · rw [pow_add]
    exact Nat.mul_le_mul_right _ (Nat.log2_self_le h)
  · rw [show m.log2 + k + 1 = (m.log2 + 1) + k by omega, pow_add]
    exact Nat.mul_lt_mul_of_pos_right Nat.lt_log2_self (Nat.two_pow_pos k)

/-- A rounded number is not changed by a multiplication by one. -/
theorem Rounded.mul_one (h : Rounded x a) (hlow : -1022 ≤ a.exponent) (hhigh : a.exponent ≤ 970) :
    ∃ d, Rounded (x * Float.ofBits 0x3FF0000000000000) d ∧ d.toRat = a.toRat := by
  obtain ⟨hfull, hpositive, hunpack⟩ := h
  have hle := hfull.le
  have hne : a.significand ≠ 0 := by omega
  have hlog : (a.significand * 2 ^ 52).log2 = 104 := by
    rw [log2_mul_two_pow hne, hfull.log2]
  have hfinite : a.unpacked = .finite .positive a.significand a.exponent (Nat.pos_of_ne_zero hne) := by
    rw [Dyadic.unpacked, dif_neg hne, Dyadic.sign, hpositive]
    rfl
  obtain ⟨d, hd, hsign, -, -, hround, hvalue⟩ :=
    exists_full_round (m := a.significand * 2 ^ 52) (e := a.exponent + -52) (by omega) (by omega) (by omega)
  have hmul : x.toModel.unpack.mul Format.binary64 (Float.ofBits 0x3FF0000000000000).toModel.unpack =
      d.unpacked := by
    rw [hunpack, hfinite, unpack_one]
    exact hround
  refine ⟨d, ⟨hd, hsign, ?_⟩, ?_⟩
  · show (Float.Model.pack (x.toModel.unpack.mul Format.binary64 _)).unpack = _
    rw [hmul, unpack_pack hd]
  · rw [hvalue (hlog ▸ Nat.dvd_mul_left _ _), a.toRat_eq, hpositive, Dyadic.magnitude, zpow_add₀ (by norm_num)]
    push_cast
    field_simp
    norm_num

/-- A natural number below `2 ^ 53` is shifted up to 53 bits, and put together exactly. -/
theorem exists_rounded_ofUInt64 {n : ℕ} (h : n ≠ 0) (hlt : n < 2 ^ 53) :
    ∃ d, Rounded n.toUInt64.toFloat d ∧ -52 ≤ d.exponent ∧ d.exponent ≤ 1 ∧ d.toRat = n := by
  have hlog : n.log2 < 53 := (Nat.log2_lt h).mpr hlt
  obtain ⟨k, hk⟩ : ∃ k, 52 = n.log2 + k := ⟨52 - n.log2, by omega⟩
  have hlog' : (n * 2 ^ k).log2 = 52 := by rw [log2_mul_two_pow h, ← hk]
  obtain ⟨d, hfull, hpositive, habove, hbelow, hround, hvalue⟩ :=
    exists_full_round (m := n * 2 ^ k) (e := -k) (by omega) (by omega) (by omega)
  have htarget : Format.binary64.targetExponent (totalExponent n 0) = -k := by
    show max ((n.log2 : ℤ) + 1 + 0 - 53) (3 - 2 ^ 10 - 53) = _
    omega
  have hnat : n.toUInt64.toNat = n := by
    rw [UInt64.toNat_ofNat']
    omega
  have hmodel : UnpackedFloat.ofUInt64 Format.binary64 n.toUInt64 = d.unpacked := by
    rw [UnpackedFloat.ofUInt64, hnat, UnpackedFloat.ofNat, UnpackedFloat.ofInt, UnpackedFloat.normalize,
      Int.compare_eq_gt.mpr (by omega)]
    show UnpackedFloat.round Format.binary64 .positive n 0 = _
    have hshift : (0 - -(k : ℤ)).toNat = k := by omega
    unfold UnpackedFloat.round UnpackedFloat.decreaseExponent
    rw [htarget]
    dsimp only
    rw [hshift, Nat.shiftLeft_eq, zero_sub, hround]
  refine ⟨d, ⟨hfull, hpositive, ?_⟩, by omega, by omega, ?_⟩
  · show (Float.Model.pack (UnpackedFloat.ofUInt64 Format.binary64 n.toUInt64)).unpack = _
    rw [hmodel, unpack_pack hfull]
  · rw [hvalue (by simp [hlog']), zpow_neg, zpow_natCast]
    push_cast
    field_simp

/-- A natural number that is not too large is rounded to a whole one of 53 bits, and to itself if it has no more. -/
theorem exists_rounded_ofNat {n : ℕ} (h : n ≠ 0) (hlt : n.log2 ≤ 900) :
    ∃ d, Rounded (Float.ofNat n) d ∧ (∃ m : ℤ, d.toRat = m) ∧ (2 ^ (n.log2 - 52) ∣ n → d.toRat = n) := by
  show ∃ d, Rounded (Float.ofScientific n false 0) d ∧ _
  unfold Float.ofScientific
  by_cases hn : n < 2 ^ 53
  · rw [dif_pos ⟨hn, by norm_num⟩]
    obtain ⟨a, ha, hlow, hhigh, hvalue⟩ := exists_rounded_ofUInt64 h hn
    obtain ⟨d, hd, hsame⟩ := ha.mul_one (by omega) (by omega)
    have hexact : d.toRat = n := hsame.trans hvalue
    exact ⟨d, hd, ⟨n, hexact⟩, fun _ => hexact⟩
  · rw [dif_neg (by omega)]
    have hlog : (n * 2 ^ 53).log2 = n.log2 + 53 := log2_mul_two_pow h 53
    have hlow : 53 ≤ n.log2 := (Nat.le_log2 h).mpr (by omega)
    have hmodel : UnpackedFloat.ofScientific Format.binary64 n (Int.ofNat 0) =
        roundWithAccuracy Format.binary64 .positive (n * 2 ^ 53) (-53) .exact := by
      unfold UnpackedFloat.ofScientific
      rw [dif_neg h, if_neg (by norm_num), if_neg (by norm_num), if_pos (by norm_num)]
      show roundWithAccuracy Format.binary64 .positive (n <<< 53 * 1) (-53 + 0) .exact = _
      rw [Nat.shiftLeft_eq, Nat.mul_one, add_zero]
    obtain ⟨d, hfull, hpositive, habove, -, hround, hvalue⟩ :=
      exists_full_round (m := n * 2 ^ 53) (e := -53) (by omega) (by omega) (by omega)
    refine ⟨d, ⟨hfull, hpositive, ?_⟩, Dyadic.exists_int (by omega), fun hdvd => ?_⟩
    · show (Float.Model.pack (UnpackedFloat.ofScientific Format.binary64 n (Int.ofNat 0))).unpack = _
      rw [hmodel, hround, unpack_pack hfull]
    · have hdvd' : 2 ^ ((n * 2 ^ 53).log2 - 52) ∣ n * 2 ^ 53 := by
        rw [hlog, show n.log2 + 53 - 52 = n.log2 - 52 + 53 by omega, pow_add]
        exact Nat.mul_dvd_mul_right hdvd _
      rw [hvalue hdvd', zpow_neg]
      push_cast
      field_simp

theorem Dyadic.neg_unpacked (h : a.significand ≠ 0) :
    a.unpacked.neg = Dyadic.unpacked { a with negative := !a.negative } := by
  rw [unpacked, unpacked, dif_neg h, dif_neg h, sign, sign]
  cases a.negative <;> rfl

theorem Dyadic.neg_toRat (a : Dyadic) : Dyadic.toRat { a with negative := !a.negative } = -a.toRat := by
  rw [toRat_eq, toRat_eq]
  cases a.negative <;> simp [magnitude]

/-- A double that stands for an integer: it is finite and whole, and the integer itself if no more than 53 bits of
that are used. -/
structure Near (n : ℤ) (x : Float) : Prop where
  finite : isFinite x = true
  whole : ∃ m : ℤ, toRat x = m
  exact : 2 ^ (n.natAbs.log2 - 52) ∣ n.natAbs → toRat x = n

theorem near_ofInt {n : ℤ} (h : n.natAbs.log2 ≤ 900) : Near n (Float.ofInt n) := by
  cases n with
  | ofNat n =>
    show Near n (Float.ofNat n)
    by_cases hn : n = 0
    · subst hn
      have hempty : (toDyadic (Float.ofNat 0)).significand = 0 := rfl
      have hzero : toRat (Float.ofNat 0) = 0 := by
        rw [toRat, Dyadic.toRat_eq, Dyadic.magnitude, hempty]
        simp
      exact ⟨rfl, ⟨0, by simp [hzero]⟩, fun _ => by simp [hzero]⟩
    · obtain ⟨d, hd, ⟨m, hwhole⟩, hexact⟩ := exists_rounded_ofNat hn h
      have hvalue := toRat_of_unpack hd.full.normal hd.unpack
      refine ⟨isFinite_of_unpack hd.unpack, ⟨m, hvalue.trans hwhole⟩, fun hdvd => ?_⟩
      rw [hvalue, hexact hdvd]
      rfl
  | negSucc n =>
    obtain ⟨d, hd, ⟨m, hwhole⟩, hexact⟩ := exists_rounded_ofNat (Nat.succ_ne_zero n) h
    have hne : d.significand ≠ 0 := by
      have := hd.full.le
      omega
    have hfull : Dyadic.Full { d with negative := !d.negative } :=
      ⟨hd.full.le, hd.full.lt, hd.full.least, hd.full.greatest⟩
    have hunpack : (Float.ofInt (Int.negSucc n)).toModel.unpack =
        Dyadic.unpacked { d with negative := !d.negative } := by
      show (Float.Model.pack (Float.ofNat (n + 1)).toModel.unpack.neg).unpack = _
      rw [hd.unpack, Dyadic.neg_unpacked hne, unpack_pack hfull]
    have hvalue : toRat (Float.ofInt (Int.negSucc n)) = -d.toRat := by
      rw [toRat_of_unpack hfull.normal hunpack, Dyadic.neg_toRat]
    refine ⟨isFinite_of_unpack hunpack, ⟨-m, ?_⟩, fun hdvd => ?_⟩
    · rw [hvalue, hwhole, Int.cast_neg]
    · rw [hvalue, hexact hdvd, Int.cast_negSucc]

/-- An integer that is the value of a double uses no more than 53 bits. -/
theorem dvd_of_toRat {n : ℤ} (h : toRat x = n) : 2 ^ (n.natAbs.log2 - 52) ∣ n.natAbs := by
  by_cases hn : n.natAbs = 0
  · simp [hn]
  have hlt := (toDyadic_normal x).lt
  have habs : (toDyadic x).magnitude = (n.natAbs : ℚ) := by
    rw [toRat, Dyadic.toRat_eq] at h
    have hnonneg : 0 ≤ (toDyadic x).magnitude := by
      unfold Dyadic.magnitude
      positivity
    rw [Nat.cast_natAbs, Int.cast_abs, ← h]
    split
    · rw [abs_neg, abs_of_nonneg hnonneg]
    · rw [abs_of_nonneg hnonneg]
  rw [Dyadic.magnitude] at habs
  -- the significand is multiplied or divided by a power of two
  obtain ⟨k, hk | hk⟩ := Int.eq_nat_or_neg (toDyadic x).exponent
  · rw [hk, zpow_natCast] at habs
    have hnat : n.natAbs = (toDyadic x).significand * 2 ^ k := by exact_mod_cast habs.symm
    have hlog : n.natAbs.log2 < 53 + k := by
      rw [Nat.log2_lt hn, hnat, pow_add]
      exact Nat.mul_lt_mul_of_pos_right hlt (Nat.two_pow_pos k)
    exact (Nat.pow_dvd_pow 2 (by omega)).trans (hnat ▸ Nat.dvd_mul_left _ _)
  · rw [hk, zpow_neg, zpow_natCast] at habs
    have hnat : 2 ^ k * n.natAbs = (toDyadic x).significand := by
      have hpow : (2 : ℚ) ^ k ≠ 0 := pow_ne_zero _ (by norm_num)
      field_simp at habs
      exact_mod_cast habs.symm
    have hle : n.natAbs < 2 ^ 53 := by
      calc n.natAbs ≤ 2 ^ k * n.natAbs := Nat.le_mul_of_pos_left _ (Nat.two_pow_pos k)
        _ < 2 ^ 53 := hnat ▸ hlt
    have hlog : n.natAbs.log2 - 52 = 0 := by
      have : n.natAbs.log2 < 53 := (Nat.log2_lt hn).mpr hle
      omega
    simp [hlog]

end ScriptAgent.Number

import Skirmish.Proofs.Number.Quantity
import Skirmish.Proofs.Number.Sign

open Float.Model UnpackedFloat

namespace Skirmish.Binary

variable {num den k : Nat}

theorem lt_roundHalfEven_iff (hden : 0 < den) (hodd : k % 2 = 1) :
    k < roundHalfEven num den ↔ (2 * k + 1) * den ≤ 2 * num := by
  have hdiv := Nat.div_add_mod num den
  have hmod := Nat.mod_lt num hden
  have hhalf : (2 * k + 1) * den = 2 * (den * k) + den := by ring
  rw [roundHalfEven, hhalf]
  generalize num / den = q at *
  generalize num % den = r at *
  rcases Nat.lt_trichotomy q k with hlt | rfl | hgt
  · have hle : den * (q + 1) ≤ den * k := Nat.mul_le_mul_left den hlt
    rw [Nat.mul_succ] at hle
    constructor
    · split_ifs <;> omega
    · omega
  · split_ifs <;> omega
  · have hle : den * (k + 1) ≤ den * q := Nat.mul_le_mul_left den hgt
    rw [Nat.mul_succ] at hle
    constructor
    · omega
    · split_ifs <;> omega

@[irreducible] def halfStep : Nat := 2 ^ 970

/-- Natural numbers from here on are rounded to infinity. -/
@[irreducible] def limit : Nat := 2 ^ 1024 - 2 ^ 970

theorem halfStep_pos : 0 < halfStep := by
  unfold halfStep
  decide +kernel

theorem greatest_eq : greatest = (2 ^ 53 - 1) * (2 * halfStep) := by
  unfold greatest halfStep
  decide +kernel

theorem limit_eq : limit = (2 ^ 54 - 1) * halfStep := by
  unfold limit halfStep
  decide +kernel

theorem step_eq : 2 ^ 971 = 2 * halfStep := by
  unfold halfStep
  decide +kernel

theorem cast_step : ((2 * halfStep : ℕ) : ℚ) = 2 ^ (971 : Int) := by
  rw [← step_eq]
  simp only [Nat.cast_pow, Nat.cast_ofNat, zpow_ofNat]

theorem zpow_step (k : Nat) : (2 : ℚ) ^ (k + 971 : Int) = ((2 ^ k * (2 * halfStep) : ℕ) : ℚ) := by
  rw [zpow_add₀ two_ne_zero, zpow_natCast, Nat.cast_mul, cast_step, Nat.cast_pow, Nat.cast_ofNat]

theorem limit_le_iff (hden : 0 < den) :
    limit * den ≤ num ↔ 2 ^ 53 ≤ significandAt num den 971 := by
  have hnext (m : Nat) : 2 ^ 53 - 1 < m ↔ 2 ^ 53 ≤ m := by omega
  have hround : 2 ^ 53 - 1 < roundHalfEven num (den * (2 * halfStep)) ↔
      (2 * (2 ^ 53 - 1) + 1) * (den * (2 * halfStep)) ≤ 2 * num :=
    lt_roundHalfEven_iff (Nat.mul_pos hden (Nat.mul_pos two_pos halfStep_pos)) (by decide)
  have hscaled : significandAt num den 971 = roundHalfEven num (den * (2 * halfStep)) := by
    have hexponent : Int.toNat 971 = 971 := rfl
    rw [significandAt, if_pos (by decide)]
    simp only [Nat.pow_eq, hexponent, step_eq]
  have hlimit : (2 * (2 ^ 53 - 1) + 1) * (den * (2 * halfStep)) = 2 * (limit * den) := by
    have hodd : 2 * (2 ^ 53 - 1) + 1 = 2 ^ 54 - 1 := by decide +kernel
    rw [limit_eq, hodd]
    generalize 2 ^ 54 - 1 = odd
    ring
  calc limit * den ≤ num ↔ 2 * (limit * den) ≤ 2 * num := (Nat.mul_le_mul_left_iff two_pos).symm
    _ ↔ 2 ^ 53 - 1 < significandAt num den 971 := by rw [hscaled, hround, hlimit]
    _ ↔ 2 ^ 53 ≤ significandAt num den 971 := hnext _

theorem greatest_lt_limit : greatest < limit := by
  have hpos := halfStep_pos
  rw [greatest_eq, limit_eq]
  omega

theorem cast_limit_lt : (limit : ℚ) < 2 ^ (1024 : Int) := by
  have hlt : limit < 2 ^ 53 * (2 * halfStep) := by
    have hpos := halfStep_pos
    rw [limit_eq]
    omega
  calc (limit : ℚ) < (2 ^ 53 * (2 * halfStep) : ℕ) := by exact_mod_cast hlt
    _ = 2 ^ (1024 : Int) := (zpow_step 53).symm

theorem le_binaryOrder_of_greatest_lt (hden : 0 < den) (h : greatest * den < num) :
    1023 ≤ binaryOrder num den := by
  obtain ⟨-, hhigh⟩ := binaryOrder_bounds (by omega : 0 < num) hden
  have hfull : (den : ℚ) * 2 ^ (1023 : Int) ≤ num := by
    have hle : den * (2 ^ 52 * (2 * halfStep)) ≤ num := by
      have hless : 2 ^ 52 * (2 * halfStep) ≤ greatest := by
        rw [greatest_eq]
        omega
      calc den * (2 ^ 52 * (2 * halfStep)) ≤ den * greatest := Nat.mul_le_mul_left den hless
        _ ≤ num := by rw [Nat.mul_comm]; exact h.le
    have hpow : (2 : ℚ) ^ (1023 : Int) = (2 ^ 52 * (2 * halfStep) : ℕ) := zpow_step 52
    rw [hpow]
    exact_mod_cast hle
  have hpow := lt_of_mul_lt_mul_left (hfull.trans_lt hhigh) (Nat.cast_nonneg den)
  have horder := (zpow_lt_zpow_iff_right₀ (one_lt_two (α := ℚ))).1 hpow
  omega

theorem le_significandAt_of_order (hnum : 0 < num) (hden : 0 < den) :
    2 ^ 52 ≤ significandAt num den (binaryOrder num den - 52) := by
  obtain ⟨hlow, -⟩ := binaryOrder_bounds hnum hden
  refine le_significandAt hden ?_
  have hsplit : (2 : ℚ) ^ binaryOrder num den =
      2 ^ (52 : Int) * 2 ^ (binaryOrder num den - 52) := by
    rw [← zpow_add₀ two_ne_zero, add_sub_cancel]
  have hcast : ((2 ^ 52 : ℕ) : ℚ) = 2 ^ (52 : Int) := by
    rw [Nat.cast_pow, Nat.cast_ofNat, zpow_ofNat]
  rw [hsplit] at hlow
  rw [hcast, mul_left_comm]
  exact hlow

theorem ofRatio_of_greatest_lt (hden : 0 < den) (h : greatest * den < num) :
    ofRatio num den = if limit * den ≤ num then infinity
      else Float.ofBits (2045 * 2 ^ 52 + significandAt num den 971).toUInt64 := by
  have hnum : 0 < num := by omega
  have hfull := le_significandAt_of_order hnum hden
  have horder := le_binaryOrder_of_greatest_lt hden h
  have hscale : max (binaryOrder num den - 52) (-1074) = binaryOrder num den - 52 := by omega
  rw [ofRatio_eq hnum]
  simp only [hscale]
  rcases horder.lt_or_eq with hbeyond | hlast
  · have hlimit : limit * den ≤ num := by
      have hlow := (binaryOrder_bounds hnum hden).1
      have hpow : (2 : ℚ) ^ (1024 : Int) ≤ 2 ^ binaryOrder num den :=
        zpow_le_zpow_right₀ one_le_two (by omega)
      have hle : (limit * den : ℚ) ≤ num := by
        calc (limit * den : ℚ) ≤ 2 ^ binaryOrder num den * den :=
              mul_le_mul_of_nonneg_right (cast_limit_lt.le.trans hpow) (Nat.cast_nonneg den)
          _ ≤ num := by rw [mul_comm]; exact hlow
      exact_mod_cast hle
    rw [if_pos (by omega), if_pos hlimit]
  · have hfield : (1023 - 52 + 1074 : Int).toNat = 2045 := rfl
    have hreached : 2047 * 2 ^ 52 ≤ 2045 * 2 ^ 52 + significandAt num den 971 ↔
        limit * den ≤ num := by
      rw [limit_le_iff hden]
      omega
    rw [← hlast, hfield, show (1023 - 52 : Int) = 971 from rfl]
    simp only [hreached]

theorem isFinite_ofRatio_of_lt_limit (hden : 0 < den) (h : num < limit * den) :
    (ofRatio num den).isFinite = true := by
  rcases Nat.lt_or_ge (greatest * den) num with habove | hwithin
  · have hsignificand : ¬2 ^ 53 ≤ significandAt num den 971 := by
      rw [← limit_le_iff hden]
      omega
    obtain ⟨p, hp, -⟩ := parts?_ofBits (n := 2045 * 2 ^ 52 + significandAt num den 971) (by omega)
    rw [ofRatio_of_greatest_lt hden habove, if_neg (by omega), ← isSome_parts?, hp]
    rfl
  · exact isFinite_ofRatio (Nat.mul_comm _ _ ▸ hwithin)

/-- A ratio is rounded to infinity from the limit on. -/
theorem isInf_ofRatio (hden : 0 < den) : (ofRatio num den).isInf = true ↔ limit * den ≤ num := by
  rcases Nat.lt_or_ge num (limit * den) with hbelow | hreached
  · simp [Quantity.isInf_of_isFinite (isFinite_ofRatio_of_lt_limit hden hbelow), hbelow]
  · have habove : greatest * den < num :=
      (Nat.mul_lt_mul_of_pos_right greatest_lt_limit hden).trans_le hreached
    rw [ofRatio_of_greatest_lt hden habove, if_pos hreached]
    exact iff_of_true (by decide +kernel) hreached

theorem isInf_ofNat : (ofNat num).isInf = true ↔ limit ≤ num := by
  rw [ofNat, isInf_ofRatio Nat.one_pos, Nat.mul_one]

theorem isInf_unpack (b : BitVec 64) : (UnpackedFloat.unpack .binary64 b).isInf = true ↔
    @unpackExponent .binary64 b = -1#11 ∧ @unpackMantissa .binary64 b = 0#52 := by
  simp only [UnpackedFloat.unpack]
  split
  next he =>
    split
    next hm => exact iff_of_true rfl ⟨he, hm⟩
    next hm => exact iff_of_false Bool.false_ne_true fun h => hm h.2
  next he =>
    refine iff_of_false ?_ fun h => he h.1
    split
    next => split <;> exact Bool.false_ne_true
    next => exact Bool.false_ne_true

theorem pack_neg (u : UnpackedFloat) :
    @unpackExponent .binary64 (UnpackedFloat.pack .binary64 u.neg) =
        @unpackExponent .binary64 (UnpackedFloat.pack .binary64 u) ∧
      @unpackMantissa .binary64 (UnpackedFloat.pack .binary64 u.neg) =
        @unpackMantissa .binary64 (UnpackedFloat.pack .binary64 u) := by
  cases u with
  | notANumber => exact ⟨rfl, rfl⟩
  | infinity s =>
    simp only [UnpackedFloat.neg, UnpackedFloat.pack, packedInfinity,
      unpackExponent_packComponents, unpackMantissa_packComponents, and_self]
  | zero s =>
    simp only [UnpackedFloat.neg, UnpackedFloat.pack, packedZero,
      unpackExponent_packComponents, unpackMantissa_packComponents, and_self]
  | finite s m e hm =>
    simp only [UnpackedFloat.neg, UnpackedFloat.pack, packedInfinity]
    split_ifs <;> simp only [unpackExponent_packComponents, unpackMantissa_packComponents, and_self]

theorem pack_unpack (f : Float.Model) :
    UnpackedFloat.pack .binary64 f.unpack = f.toBits.toBitVec := by
  rw [Float.Model.unpack, UnpackedFloat.pack_unpack]
  split
  next hnan =>
    rw [isNaNBits, decide_eq_true_iff] at hnan
    exact (f.valid.eq_packedNaN hnan.1 hnan.2).symm
  next => rfl

theorem isInf_neg (x : Float) : (-x).isInf = x.isInf := by
  have hunpack : (-x).toModel.unpack =
      UnpackedFloat.unpack .binary64 (UnpackedFloat.pack .binary64 x.toModel.unpack.neg) := rfl
  obtain ⟨hexponent, hmantissa⟩ := pack_neg x.toModel.unpack
  rw [Bool.eq_iff_iff, Float.isInf, Float.isInf, Float.Model.isInf, Float.Model.isInf, hunpack,
    isInf_unpack, hexponent, hmantissa, pack_unpack, Float.Model.unpack, isInf_unpack]

end Skirmish.Binary

namespace Skirmish.Quantity

/-- The whole numbers that no float can hold. -/
theorem floatOfInt_eq_error {n : Int} {cause : ArithmeticError} :
    floatOfInt n = .error cause ↔ cause = .overflow ∧ Binary.limit ≤ n.natAbs := by
  have hinf : (Binary.ofInt n).isInf = true ↔ Binary.limit ≤ n.natAbs := by
    rw [← Binary.isInf_ofNat, Binary.ofInt]
    split
    next => rw [Binary.isInf_neg]
    next => rfl
  rw [floatOfInt, ← hinf]
  cases (Binary.ofInt n).isInf with
  | false => simp
  | true => simp [eq_comm]

end Skirmish.Quantity

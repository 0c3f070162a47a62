import Mathlib
import Skirmish.Number.Quantity

open Float.Model

namespace Skirmish.Binary

def isMinus : UnpackedFloat.Sign → Bool
  | .negative => true
  | .positive => false

/-- The parts of a number in the logic's reading; zero is read with the least exponent. -/
def unpackedParts? : UnpackedFloat → Option Parts
  | .zero s => some ⟨isMinus s, 0, -1074⟩
  | .finite s m e _ => some ⟨isMinus s, m, e⟩
  | _ => none

section

variable (b : BitVec 64)

theorem unpackExponent_toNat :
    (@UnpackedFloat.unpackExponent .binary64 b).toNat = b.toNat / 2 ^ 52 % 2 ^ 11 := by
  rw [UnpackedFloat.unpackExponent_def, BitVec.extractLsb'_toNat, Nat.shiftRight_eq_div_pow]

theorem unpackMantissa_toNat :
    (@UnpackedFloat.unpackMantissa .binary64 b).toNat = b.toNat % 2 ^ 52 := by
  rw [UnpackedFloat.unpackMantissa_def, BitVec.extractLsb'_toNat, Nat.shiftRight_zero]

theorem isMinus_unpackSign :
    isMinus (.ofBitVec (@UnpackedFloat.unpackSign .binary64 b)) =
      decide (2 ^ 63 ≤ b.toNat) := by
  have hsign : (@UnpackedFloat.unpackSign .binary64 b).toNat =
      b.toNat / 2 ^ 63 % 2 ^ 1 := by
    rw [UnpackedFloat.unpackSign_def, BitVec.extractLsb'_toNat, Nat.shiftRight_eq_div_pow]
    rfl
  have hlt : b.toNat < 2 ^ 64 := b.isLt
  rw [UnpackedFloat.Sign.ofBitVec]
  split
  next hzero =>
    rw [hzero, BitVec.toNat_ofNat] at hsign
    symm
    rw [isMinus, decide_eq_false_iff_not]
    omega
  next hone =>
    have hone : (@UnpackedFloat.unpackSign .binary64 b).toNat ≠ 0 :=
      fun h => hone (BitVec.eq_of_toNat_eq h)
    symm
    rw [isMinus, decide_eq_true_iff]
    omega

theorem unpackExponent_eq (e : BitVec 11) :
    @UnpackedFloat.unpackExponent .binary64 b = e ↔
      b.toNat / 2 ^ 52 % 2 ^ 11 = e.toNat := by
  rw [← unpackExponent_toNat]
  exact BitVec.toNat_inj.symm

end

theorem implicit_append (m : BitVec 52) : (1#1 ++ m).toNat = m.toNat + 2 ^ 52 := by
  rw [BitVec.toNat_append, ← Nat.shiftLeft_add_eq_or_of_lt m.isLt, Nat.add_comm]
  rfl

theorem parts?_eq (x : Float) : parts? x = unpackedParts? x.toModel.unpack := by
  have hbits : x.toBits.toNat = x.toModel.toBits.toBitVec.toNat := rfl
  rw [Float.Model.unpack, parts?, hbits]
  generalize x.toModel.toBits.toBitVec = b
  have hinfinite : @UnpackedFloat.unpackExponent .binary64 b = -1#11 ↔
      b.toNat / 2 ^ 52 % 2 ^ 11 = 2047 := unpackExponent_eq b _
  have hsmall : @UnpackedFloat.unpackExponent .binary64 b = 0#11 ↔
      b.toNat / 2 ^ 52 % 2 ^ 11 = 0 := unpackExponent_eq b _
  simp only [Nat.pow_eq, ← isMinus_unpackSign, ← unpackMantissa_toNat, ← hinfinite, ← hsmall]
  rw [← unpackExponent_toNat, UnpackedFloat.unpack]
  generalize @UnpackedFloat.unpackExponent .binary64 b = e
  split
  next =>
    split <;> rfl
  next =>
    split
    next hzero =>
      subst hzero
      split
      next hm =>
        rw [hm]
        rfl
      next => rfl
    next =>
      rw [unpackedParts?, implicit_append]
      rfl

theorem isSome_parts? (x : Float) : (parts? x).isSome = x.isFinite := by
  rw [parts?_eq, Float.isFinite, Float.Model.isFinite]
  cases x.toModel.unpack <;> rfl

theorem toBits_ofBits {b : UInt64} (h : b.toNat / 2 ^ 52 % 2 ^ 11 ≠ 2047) :
    (Float.ofBits b).toBits = b := by
  have hnumber : @UnpackedFloat.isNaNBits .binary64 b.toBitVec = false := by
    rw [UnpackedFloat.isNaNBits, decide_eq_false_iff_not]
    intro hnan
    exact h ((unpackExponent_eq b.toBitVec _).1 hnan.1)
  have hpack := @UnpackedFloat.pack_unpack .binary64 b.toBitVec
  rw [hnumber] at hpack
  exact UInt64.toBitVec_inj.1 hpack

theorem parts?_ofBits {n : Nat} (h : n < 2047 * 2 ^ 52) :
    ∃ p, parts? (Float.ofBits n.toUInt64) = some p ∧ p.negative = false ∧
      (0 < n → 0 < p.significand) := by
  have hn : n.toUInt64.toNat = n := UInt64.toNat_ofNat_of_lt' (by rw [UInt64.size]; omega)
  have hbits : (Float.ofBits n.toUInt64).toBits.toNat = n := by
    rw [toBits_ofBits (by omega), hn]
  simp only [parts?, hbits, Nat.pow_eq]
  rw [if_neg (by omega)]
  split
  next =>
    refine ⟨_, rfl, decide_eq_false (by omega), fun hpos => ?_⟩
    show 0 < n % 2 ^ 52
    omega
  next =>
    refine ⟨_, rfl, decide_eq_false (by omega), fun _ => ?_⟩
    show 0 < n % 2 ^ 52 + 2 ^ 52
    omega

theorem parts?_ofBits_full {k m : Nat} (hk : k < 2046) (hm : 2 ^ 52 ≤ m) (hlt : m < 2 ^ 53) :
    parts? (Float.ofBits (k * 2 ^ 52 + m).toUInt64) = some ⟨false, m, k - 1074⟩ := by
  have hsize : (k * 2 ^ 52 + m).toUInt64.toNat = k * 2 ^ 52 + m :=
    UInt64.toNat_ofNat_of_lt' (by rw [UInt64.size]; omega)
  have hfield : (k * 2 ^ 52 + m) / 2 ^ 52 % 2 ^ 11 = k + 1 := by omega
  have hfraction : (k * 2 ^ 52 + m) % 2 ^ 52 + 2 ^ 52 = m := by omega
  have hsign : decide (2 ^ 63 ≤ k * 2 ^ 52 + m) = false := decide_eq_false (by omega)
  have hexponent : Int.ofNat (k + 1) - 1075 = k - 1074 := by
    rw [Int.ofNat_eq_natCast]
    omega
  simp only [parts?, Nat.pow_eq]
  rw [toBits_ofBits (by omega), hsize, hfield, if_neg (by omega), if_neg (by omega), hfraction,
    hsign, hexponent]

section

variable {num den k : Nat}

theorem roundHalfEven_le (hden : 0 < den) (h : num ≤ k * den) : roundHalfEven num den ≤ k := by
  have hdiv := Nat.div_add_mod num den
  have hmod := Nat.mod_lt num hden
  have hq : num / den ≤ k := Nat.div_le_of_le_mul (by rwa [Nat.mul_comm])
  rw [roundHalfEven]
  rcases Nat.lt_or_ge (num / den) k with hlt | hge
  · split_ifs <;> omega
  · have hk : num / den = k := Nat.le_antisymm hq hge
    have hr : num % den = 0 := by
      rw [hk, Nat.mul_comm] at hdiv
      omega
    simp [hr, hden, hk]

theorem le_roundHalfEven (hden : 0 < den) (h : k * den ≤ num) : k ≤ roundHalfEven num den := by
  have hq : k ≤ num / den := (Nat.le_div_iff_mul_le hden).2 h
  rw [roundHalfEven]
  split_ifs <;> omega

def significandAt (num den : Nat) (scale : Int) : Nat :=
  if 0 ≤ scale then roundHalfEven num (den * Nat.pow 2 scale.toNat)
  else roundHalfEven (num * Nat.pow 2 (-scale).toNat) den

theorem zpow_of_nonneg {e : Int} (h : 0 ≤ e) : ((2 ^ e.toNat : Nat) : ℚ) = 2 ^ e := by
  rw [Nat.cast_pow, Nat.cast_ofNat, ← zpow_natCast, Int.toNat_of_nonneg h]

theorem zpow_neg_mul (e : Int) : (2 : ℚ) ^ (-e) * 2 ^ e = 1 := by
  rw [← zpow_add₀ two_ne_zero, neg_add_cancel, zpow_zero]

variable {scale : Int}

theorem significandAt_le (hden : 0 < den) (h : (num : ℚ) ≤ k * (den * 2 ^ scale)) :
    significandAt num den scale ≤ k := by
  rw [significandAt]
  simp only [Nat.pow_eq]
  split
  next hscale =>
    refine roundHalfEven_le (by positivity) ?_
    rw [← zpow_of_nonneg hscale] at h
    exact_mod_cast h
  next hscale =>
    refine roundHalfEven_le hden ?_
    have hnonneg : 0 ≤ -scale := by omega
    have hscaled : ((num * 2 ^ (-scale).toNat : Nat) : ℚ) ≤ ((k * den : Nat) : ℚ) := by
      rw [Nat.cast_mul, zpow_of_nonneg hnonneg]
      calc (num : ℚ) * 2 ^ (-scale) ≤ k * (den * 2 ^ scale) * 2 ^ (-scale) := by gcongr
        _ = k * den * (2 ^ (-scale) * 2 ^ scale) := by ring
        _ = ((k * den : Nat) : ℚ) := by rw [zpow_neg_mul]; push_cast; ring
    exact_mod_cast hscaled

theorem le_significandAt (hden : 0 < den) (h : (k : ℚ) * (den * 2 ^ scale) ≤ num) :
    k ≤ significandAt num den scale := by
  rw [significandAt]
  simp only [Nat.pow_eq]
  split
  next hscale =>
    refine le_roundHalfEven (by positivity) ?_
    rw [← zpow_of_nonneg hscale] at h
    exact_mod_cast h
  next hscale =>
    refine le_roundHalfEven hden ?_
    have hnonneg : 0 ≤ -scale := by omega
    have hscaled : ((k * den : Nat) : ℚ) ≤ ((num * 2 ^ (-scale).toNat : Nat) : ℚ) := by
      rw [Nat.cast_mul num, zpow_of_nonneg hnonneg]
      calc ((k * den : Nat) : ℚ) = k * den * (2 ^ (-scale) * 2 ^ scale) := by
            rw [zpow_neg_mul]; push_cast; ring
        _ = k * (den * 2 ^ scale) * 2 ^ (-scale) := by ring
        _ ≤ (num : ℚ) * 2 ^ (-scale) := by gcongr
    exact_mod_cast hscaled

theorem log2_bounds {n : Nat} (h : 0 < n) :
    (2 : ℚ) ^ (n.log2 : Int) ≤ n ∧ (n : ℚ) < 2 ^ (n.log2 + 1 : Int) := by
  constructor
  · exact_mod_cast Nat.log2_self_le h.ne'
  · exact_mod_cast Nat.lt_log2_self (n := n)

theorem reached_iff (e : Int) :
    (if 0 ≤ e then decide (den * Nat.pow 2 e.toNat ≤ num)
      else decide (den ≤ num * Nat.pow 2 (-e).toNat)) = decide (den * (2 : ℚ) ^ e ≤ num) := by
  simp only [Nat.pow_eq]
  split
  next he =>
    rw [← zpow_of_nonneg he]
    norm_cast
  next he =>
    have hscaled : den ≤ num * 2 ^ (-e).toNat ↔ (den : ℚ) ≤ num * 2 ^ (-e) := by
      rw [← zpow_of_nonneg (by omega : 0 ≤ -e)]
      norm_cast
    rw [decide_eq_decide, hscaled, zpow_neg, ← div_eq_mul_inv, le_div_iff₀ (by positivity)]

theorem binaryOrder_bounds (hnum : 0 < num) (hden : 0 < den) :
    den * (2 : ℚ) ^ binaryOrder num den ≤ num ∧
      (num : ℚ) < den * 2 ^ (binaryOrder num den + 1) := by
  obtain ⟨hnlow, hnhigh⟩ := log2_bounds hnum
  obtain ⟨hdlow, hdhigh⟩ := log2_bounds hden
  rw [binaryOrder, reached_iff]
  have hguess : (2 : ℚ) ^ (num.log2 : Int) =
      2 ^ (den.log2 : Int) * 2 ^ ((num.log2 : Int) - den.log2) := by
    rw [← zpow_add₀ two_ne_zero, add_sub_cancel]
  have hpos : (0 : ℚ) < 2 ^ ((num.log2 : Int) - den.log2) := by positivity
  rw [zpow_add_one₀ two_ne_zero] at hnhigh hdhigh
  rw [hguess] at hnlow hnhigh
  generalize (num.log2 : Int) - den.log2 = guess at *
  split
  next hreached =>
    refine ⟨by simpa using hreached, ?_⟩
    rw [zpow_add_one₀ two_ne_zero]
    calc (num : ℚ) < 2 ^ (den.log2 : Int) * 2 ^ guess * 2 := hnhigh
      _ ≤ den * 2 ^ guess * 2 := by gcongr
      _ = den * (2 ^ guess * 2) := by ring
  next hmissed =>
    have hmissed : (num : ℚ) < den * 2 ^ guess := by simpa using hmissed
    have hhalf : (2 : ℚ) ^ guess = 2 ^ (guess - 1) * 2 := by
      rw [← zpow_add_one₀ two_ne_zero, sub_add_cancel]
    refine ⟨?_, by rwa [sub_add_cancel]⟩
    calc (den : ℚ) * 2 ^ (guess - 1) ≤ 2 ^ (den.log2 : Int) * 2 * 2 ^ (guess - 1) := by gcongr
      _ = 2 ^ (den.log2 : Int) * 2 ^ guess := by rw [hhalf]; ring
      _ ≤ num := hnlow

/-- The greatest finite float. -/
@[irreducible] def greatest : Nat := (2 ^ 53 - 1) * 2 ^ 971

theorem cast_greatest : (greatest : ℚ) = (2 ^ 53 - 1 : ℕ) * 2 ^ (971 : Int) := by
  unfold greatest
  simp only [Nat.cast_mul, Nat.cast_pow, Nat.cast_ofNat, zpow_ofNat]

theorem greatest_lt : (greatest : ℚ) < 2 ^ (1024 : Int) := by
  have hsplit : (2 : ℚ) ^ (1024 : Int) = 2 ^ (53 : Int) * 2 ^ (971 : Int) := by
    rw [← zpow_add₀ two_ne_zero]
    rfl
  rw [cast_greatest, hsplit]
  gcongr
  norm_num

theorem binaryOrder_le (hnum : 0 < num) (hden : 0 < den) (h : num ≤ den * greatest) :
    binaryOrder num den ≤ 1023 := by
  have hbound : (num : ℚ) < den * 2 ^ (1024 : Int) := by
    calc (num : ℚ) ≤ den * greatest := by exact_mod_cast h
      _ < den * 2 ^ (1024 : Int) := by gcongr; exact greatest_lt
  have hlow := (binaryOrder_bounds hnum hden).1.trans_lt hbound
  have hpow : (2 : ℚ) ^ binaryOrder num den < 2 ^ (1024 : Int) := by
    exact lt_of_mul_lt_mul_left hlow (by positivity)
  have := (zpow_lt_zpow_iff_right₀ (by norm_num : (1 : ℚ) < 2)).1 hpow
  omega

theorem ofRatio_eq (hnum : 0 < num) :
    ofRatio num den =
      let scale := max (binaryOrder num den - 52) (-1074)
      let bits := (scale + 1074).toNat * 2 ^ 52 + significandAt num den scale
      if 2047 * 2 ^ 52 ≤ bits then infinity else Float.ofBits bits.toUInt64 := by
  rw [ofRatio, if_neg (by omega)]
  rfl

theorem isFinite_ofRatio (h : num ≤ den * greatest) : (ofRatio num den).isFinite = true := by
  rcases Nat.eq_zero_or_pos num with rfl | hnum
  · rw [ofRatio, if_pos rfl]
    decide +kernel
  have hden : 0 < den := by
    rcases Nat.eq_zero_or_pos den with rfl | hden
    · omega
    · exact hden
  have horder := binaryOrder_le hnum hden h
  have hhigh := (binaryOrder_bounds hnum hden).2
  rw [ofRatio_eq hnum]
  extract_lets scale bits
  have hscale : binaryOrder num den + 1 ≤ 53 + scale := by omega
  have hsignificand : significandAt num den scale ≤ 2 ^ 53 := by
    refine significandAt_le hden ?_
    calc (num : ℚ) ≤ den * 2 ^ (binaryOrder num den + 1) := hhigh.le
      _ ≤ den * 2 ^ (53 + scale) := by gcongr; norm_num
      _ = (2 ^ 53 : ℕ) * (den * 2 ^ scale) := by
        rw [zpow_add₀ two_ne_zero]; push_cast; ring
  have hbits : bits < 2047 * 2 ^ 52 := by
    rcases eq_or_ne scale 971 with htop | hbelow
    · have hlast : significandAt num den scale ≤ 2 ^ 53 - 1 := by
        refine significandAt_le hden ?_
        rw [htop]
        have : (num : ℚ) ≤ den * greatest := by exact_mod_cast h
        calc (num : ℚ) ≤ den * greatest := this
          _ = (2 ^ 53 - 1 : ℕ) * (den * 2 ^ (971 : Int)) := by
            rw [cast_greatest]; ring
      omega
    · omega
  rw [if_neg (by omega)]
  obtain ⟨p, hp, -⟩ := parts?_ofBits hbits
  rw [← isSome_parts?, hp]
  rfl

theorem binaryOrder_nonneg (hnum : 0 < num) : 0 ≤ binaryOrder num 1 := by
  obtain ⟨-, hhigh⟩ := binaryOrder_bounds hnum Nat.one_pos
  rw [Nat.cast_one, one_mul] at hhigh
  have hone : (2 : ℚ) ^ (0 : Int) ≤ num := by exact_mod_cast hnum
  have := (zpow_lt_zpow_iff_right₀ (one_lt_two (α := ℚ))).1 (hone.trans_lt hhigh)
  omega

end

end Skirmish.Binary

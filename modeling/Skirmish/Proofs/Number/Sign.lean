import Skirmish.Proofs.Number.Binary

open Float.Model UnpackedFloat

namespace Skirmish.Binary

inductive IsPositive : UnpackedFloat → Prop
  | infinity : IsPositive (.infinity .positive)
  | finite {m : Nat} {e : Int} (hm : 0 < m) : IsPositive (.finite .positive m e hm)

inductive IsNonneg : UnpackedFloat → Prop
  | zero (s : Sign) : IsNonneg (.zero s)
  | positive {u : UnpackedFloat} (h : IsPositive u) : IsNonneg u

theorem unpackSign_packComponents (s : Sign) (e : BitVec 11) (m : BitVec 52) :
    @unpackSign .binary64 (packComponents .binary64 s e m) = s.toBitVec := by
  ext i hi
  obtain rfl : i = 0 := by omega
  simp only [unpackSign, packComponents, BitVec.extractLsb, BitVec.getElem_cast,
    BitVec.getElem_extractLsb', BitVec.getLsbD_append]
  simp [BitVec.getLsbD_eq_getElem]

theorem isPositive_packComponents {e : BitVec 11} {m : BitVec 52} (hinf : e = -1#11 → m = 0#52)
    (hzero : e = 0#11 → m ≠ 0#52) :
    IsPositive (UnpackedFloat.unpack .binary64 (packComponents .binary64 .positive e m)) := by
  have hsign : Sign.ofBitVec (Sign.toBitVec .positive) = .positive := rfl
  simp only [UnpackedFloat.unpack, unpackExponent_packComponents, unpackMantissa_packComponents,
    unpackSign_packComponents, hsign]
  split
  next he =>
    split
    next => exact .infinity
    next hm => exact absurd (hinf he) hm
  next =>
    split
    next he =>
      split
      next hm => exact absurd hm (hzero he)
      next => exact .finite _
    next => exact .finite _

theorem log2_eq_iff {m : Nat} (hm : 0 < m) (hlt : m < 2 ^ 53) : m.log2 + 1 = 53 ↔ 2 ^ 52 ≤ m := by
  constructor
  · intro h
    have := Nat.log2_self_le hm.ne'
    rwa [show m.log2 = 52 by omega] at this
  · intro h
    have hlow : 52 ≤ m.log2 := (Nat.le_log2 hm.ne').2 h
    have hhigh : m.log2 < 53 := (Nat.log2_lt hm.ne').2 hlt
    omega

theorem isPositive_pack {m : Nat} {e : Int} (hm : 0 < m) (hlt : m < 2 ^ 53) (he : -1074 ≤ e) :
    IsPositive (Float.Model.pack (.finite .positive m e hm)).unpack := by
  show IsPositive (UnpackedFloat.unpack .binary64 (UnpackedFloat.pack .binary64 _))
  rw [UnpackedFloat.pack]
  have hbiased : (e + (Format.exponentBias .binary64 : Int) +
      (Format.mantissaBitsWithoutImplicit .binary64 : Int)).toNat = (e + 1075).toNat := by
    show (e + (1023 : Int) + 52).toNat = _
    omega
  rw [hbiased]
  split
  next => exact isPositive_packComponents (by simp) (by decide)
  next hfits =>
    have hfits : ¬ 2 ^ 11 ≤ (e + 1075).toNat + 1 := hfits
    have hpos : 0 < (e + 1075).toNat := by omega
    generalize (e + 1075).toNat = biased at *
    split
    next =>
      have hnat : (BitVec.ofNat 11 biased).toNat = biased := by
        rw [BitVec.toNat_ofNat, Nat.mod_eq_of_lt (by omega)]
      refine isPositive_packComponents (fun hinf => ?_) fun hzero => ?_
      · rw [hinf] at hnat
        have : (-1#11).toNat = 2047 := by decide
        omega
      · rw [hzero] at hnat
        have : (0#11).toNat = 0 := by decide
        omega
    next hsub =>
      -- a subnormal number: the significand is the fraction, and it is not nothing
      have hsmall : m < 2 ^ 52 := by
        by_contra hlarge
        exact hsub ((log2_eq_iff hm hlt).2 (by omega))
      refine isPositive_packComponents (fun hinf => absurd hinf (by decide)) fun _ hzero => ?_
      have hnat := congrArg BitVec.toNat hzero
      rw [BitVec.toNat_ofNat, Nat.mod_eq_of_lt hsmall] at hnat
      have : (0#52).toNat = 0 := by decide
      omega

theorem shiftRight_mantissa (em : ExtendedMantissa) (k : Nat) :
    (em >>> k).mantissa = em.mantissa / 2 ^ k := by
  show (k.repeat ExtendedMantissa.shiftRightOne em).mantissa = _
  induction k with
  | zero => rw [Nat.repeat, Nat.pow_zero, Nat.div_one]
  | succ k ih =>
      show (k.repeat ExtendedMantissa.shiftRightOne em).mantissa / 2 = _
      rw [ih, Nat.div_div_eq_div_mul, Nat.pow_succ]

theorem le_roundToNearestEven (m : Nat) (a : Accuracy) : m ≤ a.roundToNearestEven m := by
  rcases a with _ | _ | _ | _
  all_goals simp [Accuracy.roundToNearestEven]

theorem targetExponent_eq (m : Nat) (e : Int) :
    Format.binary64.targetExponent (totalExponent m e) = max (m.log2 + e - 52) (-1074) := by
  show max ((m.log2 : Int) + 1 + e - 53) (-1074) = _
  omega

theorem shifted_bounds {m : Nat} {e : Int} (hm : 0 < m) (he : -1074 ≤ e) :
    0 < m / 2 ^ (Format.binary64.targetExponent (totalExponent m e) - e).toNat ∧
      m / 2 ^ (Format.binary64.targetExponent (totalExponent m e) - e).toNat < 2 ^ 53 := by
  have hshift : (Format.binary64.targetExponent (totalExponent m e) - e).toNat = m.log2 - 52 := by
    rw [targetExponent_eq]
    omega
  have hlow : 2 ^ (m.log2 - 52) ≤ m := by
    calc 2 ^ (m.log2 - 52) ≤ 2 ^ m.log2 := Nat.pow_le_pow_right (by decide) (by omega)
      _ ≤ m := Nat.log2_self_le hm.ne'
  have hhigh : m < 2 ^ 53 * 2 ^ (m.log2 - 52) := by
    calc m < 2 ^ (m.log2 + 1) := Nat.lt_log2_self
      _ ≤ 2 ^ (53 + (m.log2 - 52)) := Nat.pow_le_pow_right (by decide) (by omega)
      _ = 2 ^ 53 * 2 ^ (m.log2 - 52) := Nat.pow_add 2 53 _
  rw [hshift]
  exact ⟨Nat.div_pos hlow (Nat.two_pow_pos _), (Nat.div_lt_iff_lt_mul (Nat.two_pow_pos _)).2 hhigh⟩

theorem isPositive_roundWithAccuracy {m : Nat} {e : Int} (hm : 0 < m) (he : -1074 ≤ e) :
    IsPositive (Float.Model.pack (roundWithAccuracy .binary64 .positive m e .exact)).unpack := by
  simp only [roundWithAccuracy, shiftToTargetExponent, shiftToExponent, shiftRight_mantissa,
    ExtendedMantissa.roundedMantissa, ExtendedMantissa.ofMantissaAndAccuracy]
  have hrounded := fun a => Nat.lt_of_lt_of_le (shifted_bounds hm he).1 (le_roundToNearestEven _ a)
  split
  next hzero =>
    refine absurd hzero (Nat.ne_of_gt (shifted_bounds (hrounded _) ?_).1)
    omega
  next =>
    refine isPositive_pack _ (shifted_bounds (hrounded _) ?_).2 ?_
    all_goals omega

theorem isPositive_normalize {n : Int} {e : Int} (hn : 0 < n) (he : -1074 ≤ e) :
    IsPositive (Float.Model.pack (normalize .binary64 n e .positive)).unpack := by
  rw [UnpackedFloat.normalize, show compare n 0 = .gt from Int.compare_eq_gt.2 hn]
  simp only [UnpackedFloat.round, decreaseExponent]
  refine isPositive_roundWithAccuracy ?_ ?_
  · rw [Nat.shiftLeft_eq]
    exact Nat.mul_pos (by omega) (Nat.two_pow_pos _)
  · rw [targetExponent_eq]
    omega

theorem bounds_of_parts? {x : Float} {p : Parts} (h : parts? x = some p) :
    p.significand < 2 ^ 53 ∧ -1074 ≤ p.exponent ∧
      (2 ^ 52 ≤ p.significand ∨ p.exponent = -1074) := by
  simp only [parts?, Nat.pow_eq] at h
  split at h
  next => cases h
  next =>
    split at h
    next =>
      cases h
      refine ⟨?_, Int.le_refl _, .inr rfl⟩
      show x.toBits.toNat % 2 ^ 52 < 2 ^ 53
      omega
    next =>
      cases h
      refine ⟨?_, ?_, .inl (Nat.le_add_left _ _)⟩
      · show x.toBits.toNat % 2 ^ 52 + 2 ^ 52 < 2 ^ 53
        omega
      · show -1074 ≤ Int.ofNat (x.toBits.toNat / 2 ^ 52 % 2 ^ 11) - 1075
        simp only [Int.ofNat_eq_natCast]
        omega

theorem bounds_of_unpack {x : Float} {s : Sign} {m : Nat} {e : Int} {hm : 0 < m}
    (h : x.toModel.unpack = .finite s m e hm) :
    m < 2 ^ 53 ∧ -1074 ≤ e ∧ (2 ^ 52 ≤ m ∨ e = -1074) := by
  have hparts : parts? x = some ⟨isMinus s, m, e⟩ := by rw [parts?_eq, h, unpackedParts?]
  exact bounds_of_parts? hparts

noncomputable def amount : UnpackedFloat → WithTop ℚ
  | .infinity _ => ⊤
  | .finite _ m e _ => ((m * 2 ^ e : ℚ) : WithTop ℚ)
  | _ => 0

theorem isPositive_pack_infinity : IsPositive (Float.Model.pack (.infinity .positive)).unpack :=
  isPositive_packComponents (fun _ => rfl) fun h => absurd h (by decide)

theorem amount_pos {u : UnpackedFloat} (h : IsPositive u) : 0 < amount u := by
  cases h with
  | infinity => exact WithTop.coe_lt_top 0
  | @finite m e hm =>
    have : (0 : ℚ) < m * 2 ^ e := by positivity
    exact WithTop.coe_lt_coe.2 this

theorem IsNonneg.isPositive {u : UnpackedFloat} (h : IsNonneg u) (hpos : 0 < amount u) :
    IsPositive u := by
  cases h with
  | zero s => exact absurd hpos (lt_irrefl _)
  | positive h => exact h

theorem isPositive_add {x y : Float} (hx : IsPositive x.toModel.unpack)
    (hy : IsNonneg y.toModel.unpack) : IsPositive (x + y).toModel.unpack := by
  show IsPositive (Float.Model.pack (UnpackedFloat.add .binary64 _ _)).unpack
  generalize hxu : x.toModel.unpack = u at *
  generalize hyu : y.toModel.unpack = v at *
  cases hx with
  | infinity =>
    rcases hy with s | (_ | _)
    all_goals exact isPositive_pack_infinity
  | finite hm =>
    obtain ⟨hlt, he, -⟩ := bounds_of_unpack hxu
    rcases hy with s | (_ | hm')
    · exact isPositive_pack hm hlt he
    · exact isPositive_pack_infinity
    · obtain ⟨-, he', -⟩ := bounds_of_unpack hyu
      refine isPositive_normalize ?_ (by omega)
      simp only [Nat.shiftLeft_eq, Sign.apply]
      positivity

theorem aligned (m : Nat) {e low : Int} (h : low ≤ e) :
    ((m <<< (e - low).toNat : Nat) : ℚ) * 2 ^ low = m * 2 ^ e := by
  rw [Nat.shiftLeft_eq, Nat.cast_mul, zpow_of_nonneg (by omega), mul_assoc,
    ← zpow_add₀ two_ne_zero, sub_add_cancel]

theorem isPositive_sub {x y : Float} (hx : IsPositive x.toModel.unpack)
    (hy : IsNonneg y.toModel.unpack) (h : amount y.toModel.unpack < amount x.toModel.unpack) :
    IsPositive (x - y).toModel.unpack := by
  show IsPositive (Float.Model.pack (UnpackedFloat.sub .binary64 _ _)).unpack
  generalize hxu : x.toModel.unpack = u at *
  generalize hyu : y.toModel.unpack = v at *
  rcases hx with _ | @⟨m, e, hm⟩
  · rcases hy with s' | (_ | _)
    · exact isPositive_pack_infinity
    · exact absurd h (lt_irrefl _)
    · exact isPositive_pack_infinity
  · obtain ⟨hlt, he, -⟩ := bounds_of_unpack hxu
    rcases hy with s' | (_ | @⟨m', e', hm'⟩)
    · exact isPositive_pack hm hlt he
    · exact absurd h not_top_lt
    · obtain ⟨-, he', -⟩ := bounds_of_unpack hyu
      refine isPositive_normalize ?_ (by omega)
      have h : (m' * 2 ^ e' : ℚ) < m * 2 ^ e := WithTop.coe_lt_coe.1 h
      rw [← aligned m (min_le_left e e'), ← aligned m' (min_le_right e e')] at h
      have hless := lt_of_mul_lt_mul_right h (by positivity)
      simp only [Sign.apply]
      norm_cast at hless
      omega

theorem isMinus_eq_isNegative {x : Float} {s : Sign} (h : x.toModel.unpack = .infinity s) :
    isNegative x = isMinus s := by
  have hsign : isMinus (.ofBitVec (@unpackSign .binary64 x.toModel.toBits.toBitVec)) =
      isNegative x := isMinus_unpackSign _
  rw [← hsign]
  rw [Float.Model.unpack, UnpackedFloat.unpack] at h
  split at h
  next =>
    split at h
    next =>
      injection h with hs
      rw [← hs]
    next => cases h
  next =>
    split at h
    next => split at h <;> cases h
    next => cases h

theorem isNaN_eq {x : Float} : x.isNaN = x.toModel.unpack.isNaN := rfl

/-- A greater exponent decides, as the greater of the significands fills its bits. -/
theorem lt_of_exponent_lt {m m' : Nat} {e e' : Int} (hlt : m < 2 ^ 53) (hlow : -1074 ≤ e)
    (hfull : 2 ^ 52 ≤ m' ∨ e' = -1074) (he : e < e') : (m * 2 ^ e : ℚ) < m' * 2 ^ e' := by
  have hm : (m : ℚ) < 2 ^ (53 : Int) := by exact_mod_cast hlt
  have hm' : (2 : ℚ) ^ (52 : Int) ≤ m' := by exact_mod_cast hfull.resolve_right (by omega)
  calc (m * 2 ^ e : ℚ) < 2 ^ (53 : Int) * 2 ^ e := by gcongr
    _ = 2 ^ (52 : Int) * 2 ^ (e + 1) := by
      rw [← zpow_add₀ two_ne_zero, ← zpow_add₀ two_ne_zero]
      congr 1
      omega
    _ ≤ m' * 2 ^ e' := by gcongr <;> norm_num; omega

theorem compare_finite {m m' : Nat} {e e' : Int} (hlt : m < 2 ^ 53) (hlt' : m' < 2 ^ 53)
    (hlow : -1074 ≤ e) (hlow' : -1074 ≤ e') (hfull : 2 ^ 52 ≤ m ∨ e = -1074)
    (hfull' : 2 ^ 52 ≤ m' ∨ e' = -1074) :
    (compare e e').then (compare m m') = cmp (m * 2 ^ e : ℚ) (m' * 2 ^ e') := by
  rcases lt_trichotomy e e' with he | rfl | he
  · rw [Int.compare_eq_lt.2 he, (cmp_eq_lt_iff _ _).2 (lt_of_exponent_lt hlt hlow hfull' he)]
    rfl
  · rw [cmp_mul_pos_right (by positivity), Nat.strictMono_cast.cmp_map_eq, cmp_eq_compare,
      (compare_eq_iff_eq (a := e)).2 rfl]
    rfl
  · rw [Int.compare_eq_gt.2 he, (cmp_eq_gt_iff _ _).2 (lt_of_exponent_lt hlt' hlow' hfull he)]
    rfl

theorem compare_eq_cmp {x y : Float} (hx : IsNonneg x.toModel.unpack)
    (hy : IsNonneg y.toModel.unpack) :
    UnpackedFloat.compare x.toModel.unpack y.toModel.unpack =
      some (cmp (amount x.toModel.unpack) (amount y.toModel.unpack)) := by
  generalize hxu : x.toModel.unpack = u at *
  generalize hyu : y.toModel.unpack = v at *
  rcases hx with s | @⟨_, hx⟩
  · rcases hy with s' | @⟨_, hy⟩
    · exact congrArg some (cmp_self_eq_eq (0 : WithTop ℚ)).symm
    · have horder := (cmp_eq_lt_iff _ _).2 (amount_pos hy)
      rw [show amount (.zero s) = 0 from rfl, horder]
      cases hy <;> rfl
  · rcases hy with s' | @⟨_, hy⟩
    · have horder := (cmp_eq_gt_iff _ _).2 (amount_pos hx)
      rw [show amount (.zero s') = 0 from rfl, horder]
      cases hx <;> rfl
    · cases hx with
      | infinity =>
        cases hy with
        | infinity => exact congrArg some (cmp_self_eq_eq (⊤ : WithTop ℚ)).symm
        | finite => exact congrArg some ((cmp_eq_gt_iff _ _).2 (WithTop.coe_lt_top _)).symm
      | finite =>
        obtain ⟨hlt, hlow, hfull⟩ := bounds_of_unpack hxu
        cases hy with
        | infinity => exact congrArg some ((cmp_eq_lt_iff _ _).2 (WithTop.coe_lt_top _)).symm
        | finite =>
          obtain ⟨hlt', hlow', hfull'⟩ := bounds_of_unpack hyu
          have horder := compare_finite hlt hlt' hlow hlow' hfull hfull'
          rw [← WithTop.coe_strictMono.cmp_map_eq] at horder
          exact congrArg some horder

theorem isPositive_of_parts? {x : Float} {p : Parts} (h : parts? x = some p)
    (hsign : p.negative = false) (hpos : 0 < p.significand) : IsPositive x.toModel.unpack := by
  rw [parts?_eq] at h
  generalize x.toModel.unpack = u at *
  cases u with
  | infinity => cases h
  | notANumber => cases h
  | zero =>
    cases h
    cases hpos
  | finite s m e hm =>
    cases h
    cases s with
    | negative => cases hsign
    | positive => exact .finite hm

theorem unit_le {num den : Nat} (hden : 0 < den) (h : den ≤ num) :
    (den : ℚ) * 2 ^ max (binaryOrder num den - 52) (-1074) ≤ num := by
  have hbounds := (binaryOrder_bounds (hden.trans_le h) hden).1
  have hden' : (0 : ℚ) ≤ den := Nat.cast_nonneg den
  rcases le_total (binaryOrder num den - 52) (-1074) with hless | hless
  · rw [max_eq_right hless]
    have hpow : (2 : ℚ) ^ (-1074 : Int) ≤ 2 ^ (0 : Int) :=
      zpow_le_zpow_right₀ one_le_two (by decide)
    calc den * (2 : ℚ) ^ (-1074 : Int) ≤ den * 2 ^ (0 : Int) := mul_le_mul_of_nonneg_left hpow hden'
      _ = den := by rw [zpow_zero, mul_one]
      _ ≤ num := by exact_mod_cast h
  · rw [max_eq_left hless]
    have hpow : (2 : ℚ) ^ (binaryOrder num den - 52) ≤ 2 ^ binaryOrder num den :=
      zpow_le_zpow_right₀ one_le_two (by omega)
    exact (mul_le_mul_of_nonneg_left hpow hden').trans hbounds

theorem exists_ofRatio_eq {num den : Nat} (hden : 0 < den) (h : den ≤ num) :
    ∃ bits, 0 < bits ∧ ofRatio num den =
      if 2047 * 2 ^ 52 ≤ bits then infinity else Float.ofBits bits.toUInt64 := by
  have hsignificand : 1 ≤ significandAt num den (max (binaryOrder num den - 52) (-1074)) :=
    le_significandAt hden (by rw [Nat.cast_one, one_mul]; exact unit_le hden h)
  refine ⟨_, ?_, ofRatio_eq (hden.trans_le h)⟩
  exact Nat.lt_of_lt_of_le hsignificand (Nat.le_add_left _ _)

theorem isPositive_ofRatio {num den : Nat} (hden : 0 < den) (h : den ≤ num)
    (hinf : (ofRatio num den).isInf = false) : IsPositive (ofRatio num den).toModel.unpack := by
  obtain ⟨bits, hbits, heq⟩ := exists_ofRatio_eq hden h
  rw [heq] at hinf ⊢
  split at hinf
  next =>
    have hinfinity : infinity.isInf = true := by decide +kernel
    rw [hinfinity] at hinf
    cases hinf
  next hfits =>
    obtain ⟨p, hp, hsign, hpos⟩ := parts?_ofBits (Nat.lt_of_not_le hfits)
    rw [if_neg hfits]
    exact isPositive_of_parts? hp hsign (hpos hbits)

end Skirmish.Binary

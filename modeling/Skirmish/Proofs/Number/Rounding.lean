import Skirmish.Proofs.Number.Limit

open Float.Model UnpackedFloat

namespace Skirmish.Binary

variable {m k n : Nat} {e t : Int} {v : ℚ}

/-- The significand and the exponent of a float, were there no greatest exponent. -/
structure Canonical (m : Nat) (e : Int) : Prop where
  lt : m < 2 ^ 53
  least : -1074 ≤ e
  full : 2 ^ 52 ≤ m ∨ e = -1074

theorem canonical_of_unpack {x : Float} {s : Sign} {hm : 0 < m}
    (h : x.toModel.unpack = .finite s m e hm) : Canonical m e := by
  obtain ⟨hlt, hleast, hfull⟩ := bounds_of_unpack h
  exact ⟨hlt, hleast, hfull⟩

theorem exponent_le_of_parts? {x : Float} {p : Parts} (h : parts? x = some p) :
    p.exponent ≤ 971 := by
  simp only [parts?, Nat.pow_eq] at h
  split at h
  next => cases h
  next hfinite =>
    split at h
    next =>
      cases h
      show (-1074 : Int) ≤ 971
      decide
    next =>
      cases h
      simp only [Int.ofNat_eq_natCast]
      omega

theorem exponent_le_of_unpack {x : Float} {s : Sign} {hm : 0 < m}
    (h : x.toModel.unpack = .finite s m e hm) : e ≤ 971 := by
  have hparts : parts? x = some ⟨isMinus s, m, e⟩ := by rw [parts?_eq, h, unpackedParts?]
  exact exponent_le_of_parts? hparts

theorem Canonical.exponent_le (hm : Canonical m e) (hk : Canonical k t)
    (h : (m * 2 ^ e : ℚ) ≤ k * 2 ^ t) : e ≤ t := by
  by_contra hlt
  exact h.not_gt (lt_of_exponent_lt hk.lt hk.least hm.full (by omega))

/-- What a number is rounded to: no float lies between the two. -/
structure Rounds (v : ℚ) (m : Nat) (e : Int) : Prop where
  canonical : Canonical m e
  above {k : Nat} {t : Int} (hk : Canonical k t) (h : (k * 2 ^ t : ℚ) ≤ v) :
    (k * 2 ^ t : ℚ) ≤ m * 2 ^ e
  below {k : Nat} {t : Int} (hk : Canonical k t) (h : v ≤ (k * 2 ^ t : ℚ)) :
    (m * 2 ^ e : ℚ) ≤ k * 2 ^ t

theorem exists_multiple (k : Nat) (h : e ≤ t) : ∃ j : Nat, (k * 2 ^ t : ℚ) = j * 2 ^ e := by
  refine ⟨k * 2 ^ (t - e).toNat, ?_⟩
  rw [Nat.cast_mul, zpow_of_nonneg (by omega), mul_assoc, ← zpow_add₀ two_ne_zero, sub_add_cancel]

/-- The neighbour `m` of a number on the scale `2 ^ e`, in the range where that is the scale of the
floats. -/
structure Neighbour (v : ℚ) (m : Nat) (e : Int) : Prop where
  least : -1074 ≤ e
  lt : v < 2 ^ 53 * 2 ^ e
  full : 2 ^ 52 * 2 ^ e ≤ v ∨ e = -1074
  above {k : Nat} (h : (k * 2 ^ e : ℚ) ≤ v) : k ≤ m
  below {k : Nat} (h : v ≤ (k * 2 ^ e : ℚ)) : m ≤ k

namespace Neighbour

variable (h : Neighbour v m e)

include h

theorem le : m ≤ 2 ^ 53 := h.below (by exact_mod_cast h.lt.le)

theorem full_or : 2 ^ 52 ≤ m ∨ e = -1074 :=
  h.full.imp_left fun hfull => h.above (by exact_mod_cast hfull)

theorem le_of_le (hk : Canonical k t) (hle : (k * 2 ^ t : ℚ) ≤ v) :
    (k * 2 ^ t : ℚ) ≤ m * 2 ^ e := by
  rcases lt_or_ge t e with hless | hmore
  · exact (lt_of_exponent_lt hk.lt hk.least h.full_or hless).le
  · obtain ⟨j, hj⟩ := exists_multiple k hmore
    have hjm : j ≤ m := h.above (hj ▸ hle)
    rw [hj]
    gcongr

theorem ge_of_ge (hk : Canonical k t) (hle : v ≤ (k * 2 ^ t : ℚ)) :
    (m * 2 ^ e : ℚ) ≤ k * 2 ^ t := by
  rcases lt_or_ge t e with hless | hmore
  · have hleast := hk.least
    have hfull := h.full.resolve_right (by omega)
    have hbelow : (k * 2 ^ t : ℚ) < (2 ^ 52 : Nat) * 2 ^ e :=
      lt_of_exponent_lt hk.lt hk.least (.inl le_rfl) hless
    push_cast at hbelow
    exact absurd hle (hbelow.trans_le hfull).not_ge
  · obtain ⟨j, hj⟩ := exists_multiple k hmore
    have hmj : m ≤ j := h.below (hj ▸ hle)
    rw [hj]
    gcongr

theorem rounds (hlt : m < 2 ^ 53) : Rounds v m e where
  canonical := ⟨hlt, h.least, h.full_or⟩
  above := h.le_of_le
  below := h.ge_of_ge

/-- A significand that has outgrown its bits is written with the next exponent. -/
theorem rounds_succ (hm : m = 2 ^ 53) : Rounds v (2 ^ 52) (e + 1) := by
  have hleast := h.least
  have hvalue : ((2 ^ 52 : Nat) * 2 ^ (e + 1) : ℚ) = m * 2 ^ e := by
    rw [hm, zpow_add_one₀ two_ne_zero]
    push_cast
    ring
  refine ⟨⟨by decide, by omega, .inl le_rfl⟩, fun hk hle => ?_, fun hk hle => ?_⟩
  · rw [hvalue]
    exact h.le_of_le hk hle
  · rw [hvalue]
    exact h.ge_of_ge hk hle

end Neighbour

theorem shiftRight_exact (q n : Nat) :
    ExtendedMantissa.ofMantissaAndAccuracy (q * 2 ^ n) .exact >>> n = ⟨q, false, false⟩ := by
  show n.repeat ExtendedMantissa.shiftRightOne _ = _
  induction n generalizing q with
  | zero => rw [Nat.repeat, pow_zero, Nat.mul_one, ExtendedMantissa.ofMantissaAndAccuracy]
  | succ n ih =>
      have hdouble := ih (q * 2)
      rw [Nat.mul_assoc, ← Nat.pow_succ'] at hdouble
      rw [Nat.repeat, hdouble, ExtendedMantissa.shiftRightOne, Nat.mul_div_cancel _ two_pos,
        Nat.mul_mod_left]
      rfl

theorem roundedMantissa_le (em : ExtendedMantissa) :
    em.roundedMantissa ≤ em.mantissa + 1 := by
  rw [ExtendedMantissa.roundedMantissa]
  rcases em.accuracy with _ | _ | _ | _
  all_goals simp only [Accuracy.roundToNearestEven]
  all_goals omega

def shifted (m n : Nat) : Nat :=
  (ExtendedMantissa.ofMantissaAndAccuracy m .exact >>> n).roundedMantissa

theorem le_shifted (h : k * 2 ^ n ≤ m) : k ≤ shifted m n := by
  have hfloor : k ≤ m / 2 ^ n := (Nat.le_div_iff_mul_le (Nat.two_pow_pos n)).2 h
  have hmantissa := shiftRight_mantissa (.ofMantissaAndAccuracy m .exact) n
  exact (hfloor.trans hmantissa.ge).trans (le_roundToNearestEven _ _)

theorem shifted_le (h : m ≤ k * 2 ^ n) : shifted m n ≤ k := by
  have hmantissa : (ExtendedMantissa.ofMantissaAndAccuracy m .exact >>> n).mantissa = m / 2 ^ n :=
    shiftRight_mantissa _ n
  have hdiv := Nat.div_add_mod m (2 ^ n)
  rcases Nat.eq_zero_or_pos (m % 2 ^ n) with hexact | hrest
  · obtain ⟨q, rfl⟩ : ∃ q, m = q * 2 ^ n := ⟨m / 2 ^ n, by rw [Nat.mul_comm]; omega⟩
    rw [shifted, shiftRight_exact]
    exact Nat.le_of_mul_le_mul_right h (Nat.two_pow_pos n)
  · refine (roundedMantissa_le _).trans ?_
    rw [hmantissa]
    refine Nat.lt_of_mul_lt_mul_left (a := 2 ^ n) ?_
    rw [Nat.mul_comm k] at h
    omega

theorem scaled (k : Nat) (h : t = e + n) : (k * 2 ^ t : ℚ) = (k * 2 ^ n : Nat) * 2 ^ e := by
  rw [h, zpow_add₀ two_ne_zero, zpow_natCast]
  push_cast
  ring

theorem neighbour_shifted (hm : 0 < m)
    (hshort : e ≤ Format.binary64.targetExponent (totalExponent m e)) :
    Neighbour (m * 2 ^ e)
      (shifted m (Format.binary64.targetExponent (totalExponent m e) - e).toNat)
      (Format.binary64.targetExponent (totalExponent m e)) := by
  have htarget := targetExponent_eq m e
  generalize Format.binary64.targetExponent (totalExponent m e) = t at *
  obtain ⟨n, hn⟩ := Int.eq_ofNat_of_zero_le (sub_nonneg.2 hshort)
  have hshift : t = e + n := by omega
  obtain ⟨hlow, hhigh⟩ := log2_bounds hm
  rw [hn, Int.toNat_natCast]
  refine ⟨by omega, ?_, ?_, fun h => le_shifted ?_, fun h => shifted_le ?_⟩
  · calc (m * 2 ^ e : ℚ) < 2 ^ (m.log2 + 1 : Int) * 2 ^ e := by gcongr
      _ = 2 ^ (m.log2 + 1 + e : Int) := (zpow_add₀ two_ne_zero _ _).symm
      _ ≤ 2 ^ (53 + t) := zpow_le_zpow_right₀ one_le_two (by omega)
      _ = 2 ^ 53 * 2 ^ t := zpow_add₀ two_ne_zero _ _
  · rcases eq_or_ne t (-1074) with hleast | hmore
    · exact .inr hleast
    · left
      calc (2 ^ 52 * 2 ^ t : ℚ) = 2 ^ (52 + t) := (zpow_add₀ two_ne_zero _ _).symm
        _ = 2 ^ (m.log2 + e : Int) := by congr 1; omega
        _ = 2 ^ (m.log2 : Int) * 2 ^ e := zpow_add₀ two_ne_zero _ _
        _ ≤ m * 2 ^ e := by gcongr
  · rw [scaled _ hshift] at h
    exact_mod_cast le_of_mul_le_mul_right h (by positivity)
  · rw [scaled _ hshift] at h
    exact_mod_cast le_of_mul_le_mul_right h (by positivity)

theorem log2_le (hlt : m < 2 ^ 53) : m.log2 ≤ 52 := by
  rcases Nat.eq_zero_or_pos m with rfl | hm
  · decide
  · have := (Nat.log2_lt hm.ne').2 hlt
    omega

theorem shiftToTargetExponent_of_lt (hlt : m < 2 ^ 53) (he : -1074 ≤ e) :
    shiftToTargetExponent .binary64 m e .exact = (⟨m, false, false⟩, e) := by
  have hlog := log2_le hlt
  have hshift : (Format.binary64.targetExponent (totalExponent m e) - e).toNat = 0 := by
    rw [targetExponent_eq]
    omega
  rw [shiftToTargetExponent, shiftToExponent, hshift, Nat.cast_zero, add_zero]
  rfl

theorem shiftToTargetExponent_full (he : -1074 ≤ e) :
    shiftToTargetExponent .binary64 (2 ^ 53) e .exact = (⟨2 ^ 52, false, false⟩, e + 1) := by
  have hlog : Nat.log2 (2 ^ 53) = 53 := Nat.log2_two_pow
  have hshift : (Format.binary64.targetExponent (totalExponent (2 ^ 53) e) - e).toNat = 1 := by
    rw [targetExponent_eq, hlog]
    omega
  rw [shiftToTargetExponent, shiftToExponent, hshift]
  exact congrArg (·, e + 1) (shiftRight_exact (2 ^ 52) 1)

theorem roundWithAccuracy_eq {s : Sign} {p : ExtendedMantissa × Int}
    (hn : n = (Format.binary64.targetExponent (totalExponent m e) - e).toNat)
    (h : shiftToTargetExponent .binary64 (shifted m n) (e + n) .exact = p)
    (hp : 0 < p.1.mantissa) :
    roundWithAccuracy .binary64 s m e .exact = .finite s p.1.mantissa p.2 hp := by
  subst hn h
  exact dif_neg hp.ne'

/-- The logic's rounding finds a float beside the number. -/
theorem roundWithAccuracy_rounds (hm : 0 < m) (he : -1074 ≤ e)
    (hshort : e ≤ Format.binary64.targetExponent (totalExponent m e)) :
    ∃ (k : Nat) (t : Int) (hk : 0 < k), Rounds (m * 2 ^ e) k t ∧
      ∀ s, roundWithAccuracy .binary64 s m e .exact = .finite s k t hk := by
  obtain ⟨n, hn⟩ : ∃ n, n = (Format.binary64.targetExponent (totalExponent m e) - e).toNat :=
    ⟨_, rfl⟩
  have hpos : 0 < shifted m n :=
    Nat.lt_of_lt_of_le (hn ▸ (shifted_bounds hm he).1) (le_shifted (Nat.div_mul_le_self m _))
  have hnear : Neighbour (m * 2 ^ e) (shifted m n) (e + n) := by
    have hnear := neighbour_shifted hm hshort
    rwa [← hn, show Format.binary64.targetExponent (totalExponent m e) = e + n by omega] at hnear
  rcases hnear.le.lt_or_eq with hlt | hfull
  · refine ⟨_, _, hpos, hnear.rounds hlt, fun s => ?_⟩
    exact roundWithAccuracy_eq hn (shiftToTargetExponent_of_lt hlt (by omega)) hpos
  · refine ⟨2 ^ 52, _, by decide, hnear.rounds_succ hfull, fun s => ?_⟩
    rw [roundWithAccuracy_eq hn (hfull ▸ shiftToTargetExponent_full (by omega))
      (Nat.two_pow_pos 52)]

theorem round_rounds (hm : 0 < m) (he : -1074 ≤ e) :
    ∃ (k : Nat) (t : Int) (hk : 0 < k), Rounds (m * 2 ^ e) k t ∧
      ∀ s, UnpackedFloat.round .binary64 s m e = .finite s k t hk := by
  obtain ⟨n, hn⟩ : ∃ n, n = (e - Format.binary64.targetExponent (totalExponent m e)).toNat :=
    ⟨_, rfl⟩
  have htarget := targetExponent_eq m e
  have hpos : 0 < m * 2 ^ n := Nat.mul_pos hm (Nat.two_pow_pos n)
  have hlog : m.log2 + n ≤ (m * 2 ^ n).log2 := by
    rw [Nat.le_log2 hpos.ne', Nat.pow_add]
    exact Nat.mul_le_mul_right _ (Nat.log2_self_le hm.ne')
  have hshort := targetExponent_eq (m * 2 ^ n) (e - n)
  obtain ⟨k, t, hk, hrounds, heq⟩ :=
    roundWithAccuracy_rounds (m := m * 2 ^ n) (e := e - n) hpos (by omega) (by omega)
  refine ⟨k, t, hk, ?_, fun s => ?_⟩
  · rwa [← scaled m (show e = e - n + n by omega)] at hrounds
  · rw [← heq s, UnpackedFloat.round, decreaseExponent, ← hn, Nat.shiftLeft_eq]

theorem ofBitVec_toBitVec (s : Sign) : Sign.ofBitVec s.toBitVec = s := by
  cases s <;> rfl

theorem finite_congr {s : Sign} {m m' : Nat} {e e' : Int} {h : 0 < m} {h' : 0 < m'} (hm : m = m')
    (he : e = e') : UnpackedFloat.finite s m e h = .finite s m' e' h' := by
  subst hm he
  rfl

theorem unpack_packedInfinity (s : Sign) :
    UnpackedFloat.unpack .binary64 (packedInfinity .binary64 s) = .infinity s := by
  simp only [packedInfinity, UnpackedFloat.unpack, unpackExponent_packComponents,
    unpackMantissa_packComponents, unpackSign_packComponents, ofBitVec_toBitVec]
  rfl

theorem unpack_normal (s : Sign) (hm : 0 < m) (hlow : 2 ^ 52 ≤ m) (hlt : m < 2 ^ 53)
    (hleast : -1074 ≤ e) (hfits : e < 972) :
    UnpackedFloat.unpack .binary64
      (packComponents .binary64 s (BitVec.ofNat 11 (e + 1075).toNat) (BitVec.ofNat 52 m)) =
        .finite s m e hm := by
  have hexponent : (BitVec.ofNat 11 (e + 1075).toNat).toNat = (e + 1075).toNat := by
    rw [BitVec.toNat_ofNat, Nat.mod_eq_of_lt (by omega)]
  have hinfinite : BitVec.ofNat 11 (e + 1075).toNat ≠ -1#11 := fun heq => by
    rw [heq] at hexponent
    have : (-1#11).toNat = 2047 := by decide
    omega
  have hsmall : BitVec.ofNat 11 (e + 1075).toNat ≠ 0#11 := fun heq => by
    rw [heq] at hexponent
    have : (0#11).toNat = 0 := by decide
    omega
  simp only [UnpackedFloat.unpack, unpackExponent_packComponents, unpackMantissa_packComponents,
    unpackSign_packComponents, ofBitVec_toBitVec]
  rw [if_neg hinfinite, if_neg hsmall]
  refine finite_congr ?_ ?_
  · rw [implicit_append, BitVec.toNat_ofNat]
    omega
  · rw [hexponent]
    show ((e + 1075).toNat : Int) - (1023 + 52) = e
    omega

theorem unpack_subnormal (s : Sign) (hm : 0 < m) (hlt : m < 2 ^ 52) :
    UnpackedFloat.unpack .binary64 (packComponents .binary64 s 0#11 (BitVec.ofNat 52 m)) =
      .finite s m (-1074) hm := by
  have hmantissa : (BitVec.ofNat 52 m).toNat = m := by
    rw [BitVec.toNat_ofNat, Nat.mod_eq_of_lt hlt]
  have hsome : BitVec.ofNat 52 m ≠ 0#52 := fun heq => by
    rw [heq] at hmantissa
    have : (0#52).toNat = 0 := by decide
    omega
  simp only [UnpackedFloat.unpack, unpackExponent_packComponents, unpackMantissa_packComponents,
    unpackSign_packComponents, ofBitVec_toBitVec]
  rw [if_neg (by decide), if_pos trivial, dif_neg hsome]
  exact finite_congr hmantissa rfl

/-- A float that was packed is read as it was, but that the greatest ones become infinite. -/
theorem unpack_pack (h : Canonical m e) (hm : 0 < m) (s : Sign) :
    (Float.Model.pack (.finite s m e hm)).unpack =
      if 972 ≤ e then .infinity s else .finite s m e hm := by
  show UnpackedFloat.unpack .binary64 (UnpackedFloat.pack .binary64 _) = _
  obtain ⟨hlt, hleast, hfull⟩ := h
  have hbiased : (e + (Format.exponentBias .binary64 : Int) +
      (Format.mantissaBitsWithoutImplicit .binary64 : Int)).toNat = (e + 1075).toNat := by
    show (e + (1023 : Int) + 52).toNat = _
    omega
  have hoverflow : 2 ^ Format.exponentBits .binary64 ≤ (e + 1075).toNat + 1 ↔ 972 ≤ e := by
    show 2 ^ 11 ≤ (e + 1075).toNat + 1 ↔ _
    omega
  have hfills : m.log2 + 1 = Format.mantissaBits .binary64 ↔ 2 ^ 52 ≤ m := log2_eq_iff hm hlt
  simp only [UnpackedFloat.pack, hbiased, hoverflow, hfills]
  split
  next => exact unpack_packedInfinity s
  next hfits =>
    split
    next hnormal => exact unpack_normal s hm hnormal hlt hleast (by omega)
    next hsubnormal =>
      obtain rfl : e = -1074 := hfull.resolve_left hsubnormal
      exact unpack_subnormal s hm (by omega)

theorem neighbour_significandAt (hn : 0 < n) :
    Neighbour n (significandAt n 1 (binaryOrder n 1 - 52)) (binaryOrder n 1 - 52) := by
  obtain ⟨hlow, hhigh⟩ := binaryOrder_bounds hn Nat.one_pos
  have horder := binaryOrder_nonneg hn
  rw [Nat.cast_one, one_mul] at hlow hhigh
  refine ⟨by omega, ?_, .inl ?_, fun h => le_significandAt Nat.one_pos ?_,
    fun h => significandAt_le Nat.one_pos ?_⟩
  · calc (n : ℚ) < 2 ^ (binaryOrder n 1 + 1) := hhigh
      _ = 2 ^ (53 + (binaryOrder n 1 - 52)) := by congr 1; omega
      _ = 2 ^ 53 * 2 ^ (binaryOrder n 1 - 52) := zpow_add₀ two_ne_zero _ _
  · calc (2 ^ 52 * 2 ^ (binaryOrder n 1 - 52) : ℚ) = 2 ^ (52 + (binaryOrder n 1 - 52)) :=
          (zpow_add₀ two_ne_zero _ _).symm
      _ = 2 ^ binaryOrder n 1 := by congr 1; omega
      _ ≤ n := hlow
  · rwa [Nat.cast_one, one_mul]
  · rwa [Nat.cast_one, one_mul]

theorem unpack_of_parts? {x : Float} (h : parts? x = some ⟨false, m, e⟩) (hm : 0 < m) :
    x.toModel.unpack = .finite .positive m e hm := by
  rw [parts?_eq] at h
  generalize x.toModel.unpack = u at *
  cases u with
  | notANumber => cases h
  | infinity => cases h
  | zero s =>
    cases s <;> cases h
    cases hm
  | finite s =>
    cases s <;> cases h
    rfl

/-- The float nearest to a natural number, unless that is too large for one. -/
theorem parts?_ofNat_rounds (hn : 0 < n) (hinf : (ofNat n).isInf = false) :
    ∃ k t, parts? (ofNat n) = some ⟨false, k, t⟩ ∧ 0 < k ∧ Rounds n k t := by
  have hnear := neighbour_significandAt hn
  have hleast := hnear.least
  have hfull := le_significandAt_of_order hn Nat.one_pos
  have heq := @ofRatio_eq n 1 hn
  rw [ofNat] at hinf ⊢
  have hscale : max (binaryOrder n 1 - 52) (-1074) = binaryOrder n 1 - 52 := by omega
  simp only [hscale] at heq
  generalize significandAt n 1 (binaryOrder n 1 - 52) = m at *
  obtain ⟨k, hk⟩ := Int.eq_ofNat_of_zero_le (by omega : 0 ≤ binaryOrder n 1 - 52 + 1074)
  have hexponent : binaryOrder n 1 - 52 = k - 1074 := by omega
  rw [hk, Int.toNat_natCast] at heq
  rw [hexponent] at hnear
  have hfits : k * 2 ^ 52 + m < 2047 * 2 ^ 52 := by
    by_contra hover
    rw [heq, if_pos (by omega)] at hinf
    have : infinity.isInf = true := by decide +kernel
    rw [this] at hinf
    cases hinf
  rw [heq, if_neg (by omega)]
  rcases hnear.le.lt_or_eq with hlt | hcarry
  · exact ⟨m, _, parts?_ofBits_full (by omega) hfull hlt, by omega, hnear.rounds hlt⟩
  · have hbits : k * 2 ^ 52 + m = (k + 1) * 2 ^ 52 + 2 ^ 52 := by omega
    rw [hbits, parts?_ofBits_full (by omega) le_rfl (by decide)]
    refine ⟨_, _, rfl, by decide, ?_⟩
    have hsucc := hnear.rounds_succ hcarry
    rwa [show (k : Int) - 1074 + 1 = (k + 1 : Nat) - 1074 by omega] at hsucc

end Skirmish.Binary

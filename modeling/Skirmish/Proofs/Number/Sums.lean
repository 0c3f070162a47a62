import Skirmish.Proofs.Number.Level
import Skirmish.Proofs.Number.Rounding

open Float.Model UnpackedFloat

namespace Skirmish.Binary

variable {m k n : Nat} {e t : Int} {v : ℚ}

/-- What becomes of a rounded number is a float beside the number. -/
structure Rounded (v : ℚ) (a : EReal) : Prop where
  above {x : Float} {b : EReal} (hb : b ∈ level x.toModel.unpack) (h : b ≤ ((v : ℝ) : EReal)) :
    b ≤ a
  below {x : Float} {b : EReal} (hb : b ∈ level x.toModel.unpack) (h : ((v : ℝ) : EReal) ≤ b) :
    a ≤ b

theorem rounded_self (v : ℚ) : Rounded v (v : ℝ) := ⟨fun _ h => h, fun _ h => h⟩

theorem rounded_zero : Rounded 0 0 := by
  have h := rounded_self 0
  rwa [coe_zero] at h

theorem level_cases {x : Float} {b : EReal} (hb : b ∈ level x.toModel.unpack) :
    b ≤ 0 ∨ b = ⊤ ∨ ∃ (k : Nat) (t : Int), Canonical k t ∧ t ≤ 971 ∧
      b = (((k * 2 ^ t : ℚ) : ℝ) : EReal) := by
  generalize hx : x.toModel.unpack = u at hb
  cases u with
  | notANumber => cases hb
  | infinity s =>
    cases s <;> cases hb
    · exact .inl bot_le
    · exact .inr (.inl rfl)
  | zero =>
    cases hb
    exact .inl le_rfl
  | finite s m e hm =>
    obtain rfl := Option.some.inj hb
    cases s with
    | negative => exact .inl (coe_lt_zero.2 (apply_negative_neg hm)).le
    | positive =>
      refine .inr (.inr ⟨m, e, canonical_of_unpack hx, exponent_le_of_unpack hx, ?_⟩)
      rw [apply_positive]

namespace Rounds

variable (h : Rounds v k t) (hv : 0 < v)

include h hv

theorem rounded : Rounded v ((k * 2 ^ t : ℚ) : ℝ) where
  above hb hle := by
    rcases level_cases hb with hneg | rfl | ⟨j, i, hj, -, rfl⟩
    · refine hneg.trans ?_
      rw [← coe_zero]
      exact coe_strictMono.monotone (by positivity)
    · exact absurd (top_le_iff.1 hle) (EReal.coe_ne_top _)
    · exact coe_strictMono.monotone (h.above hj (coe_strictMono.le_iff_le.1 hle))
  below hb hle := by
    rcases level_cases hb with hneg | rfl | ⟨j, i, hj, -, rfl⟩
    · exact absurd (hle.trans hneg) (zero_lt_coe.2 hv).not_ge
    · exact le_top
    · exact coe_strictMono.monotone (h.below hj (coe_strictMono.le_iff_le.1 hle))

theorem rounded_top (ht : 972 ≤ t) : Rounded v ⊤ where
  above _ _ := le_top
  below hb hle := by
    rcases level_cases hb with hneg | rfl | ⟨j, i, hj, hi, rfl⟩
    · exact absurd (hle.trans hneg) (zero_lt_coe.2 hv).not_ge
    · exact le_rfl
    · have := h.canonical.exponent_le hj (h.below hj (coe_strictMono.le_iff_le.1 hle))
      omega

theorem rounded_pack (hk : 0 < k) :
    ∃ a, a ∈ level (Float.Model.pack (.finite .positive k t hk)).unpack ∧
      -a ∈ level (Float.Model.pack (.finite .negative k t hk)).unpack ∧ Rounded v a := by
  rw [unpack_pack h.canonical, unpack_pack h.canonical]
  split
  next htop => exact ⟨⊤, rfl, rfl, h.rounded_top hv htop⟩
  next =>
    refine ⟨((k * 2 ^ t : ℚ) : ℝ), ?_, ?_, h.rounded hv⟩
    · rw [level, apply_positive]
      rfl
    · rw [level, apply_negative, Rat.cast_neg, EReal.coe_neg]
      rfl

end Rounds

theorem level_neg (u : UnpackedFloat) : level u.neg = (level u).map Neg.neg := by
  cases u with
  | notANumber => rfl
  | infinity s => cases s <;> rfl
  | zero s =>
    show some (0 : EReal) = some (-0)
    rw [neg_zero]
  | finite s m e hm =>
    cases s with
    | negative =>
      show level (.finite .positive m e hm) = some _
      rw [level, apply_positive, apply_negative, Rat.cast_neg, EReal.coe_neg, neg_neg]
    | positive =>
      show level (.finite .negative m e hm) = some _
      rw [level, apply_positive, apply_negative, Rat.cast_neg, EReal.coe_neg]

theorem unpack_pack_of_unpack {x : Float} {s : Sign} {hm : 0 < m}
    (h : x.toModel.unpack = .finite s m e hm) (s' : Sign) :
    (Float.Model.pack (.finite s' m e hm)).unpack = .finite s' m e hm := by
  have htop := exponent_le_of_unpack h
  rw [unpack_pack (canonical_of_unpack h), if_neg (by omega)]

theorem unpack_neg (x : Float) : (-x).toModel.unpack = x.toModel.unpack.neg := by
  show (Float.Model.pack x.toModel.unpack.neg).unpack = _
  generalize hx : x.toModel.unpack = u
  cases u with
  | notANumber => rfl
  | infinity s => cases s <;> rfl
  | zero s => cases s <;> rfl
  | finite s m e hm => exact unpack_pack_of_unpack hx _

theorem neg_mem_level {x : Float} {b : EReal} (hb : b ∈ level x.toModel.unpack) :
    -b ∈ level (-x).toModel.unpack := by
  rw [unpack_neg, level_neg]
  exact Option.mem_map_of_mem _ hb

theorem Rounded.neg {a : EReal} (h : Rounded v a) : Rounded (-v) (-a) where
  above hb hle := by
    rw [Rat.cast_neg, EReal.coe_neg] at hle
    exact EReal.le_neg_of_le_neg (h.below (neg_mem_level hb) (EReal.le_neg_of_le_neg hle))
  below hb hle := by
    rw [Rat.cast_neg, EReal.coe_neg] at hle
    exact EReal.neg_le_of_neg_le (h.above (neg_mem_level hb) (EReal.neg_le_of_neg_le hle))

theorem rounded_normalize (n : Int) (he : -1074 ≤ e) :
    ∃ a ∈ level (Float.Model.pack (normalize .binary64 n e .positive)).unpack,
      Rounded (n * 2 ^ e) a := by
  rw [UnpackedFloat.normalize]
  rcases lt_trichotomy n 0 with hneg | rfl | hpos
  · obtain ⟨m, rfl⟩ : ∃ m : Nat, n = -m := ⟨n.natAbs, by omega⟩
    have hm : 0 < m := by omega
    obtain ⟨k, t, hk, hrounds, heq⟩ := round_rounds hm he
    obtain ⟨a, -, ha, hround⟩ := hrounds.rounded_pack (by positivity) hk
    rw [Int.compare_eq_lt.2 hneg, neg_neg, Int.toNat_natCast, Int.cast_neg, Int.cast_natCast,
      neg_mul]
    exact ⟨-a, by rwa [heq], hround.neg⟩
  · rw [(compare_eq_iff_eq (a := (0 : Int))).2 rfl, Int.cast_zero, zero_mul]
    have hzero : (Float.Model.pack (.zero .positive)).unpack = .zero .positive := rfl
    exact ⟨0, by rw [hzero, level, Option.mem_def], rounded_zero⟩
  · obtain ⟨m, rfl⟩ := Int.eq_ofNat_of_zero_le hpos.le
    have hm : 0 < m := by omega
    obtain ⟨k, t, hk, hrounds, heq⟩ := round_rounds hm he
    obtain ⟨a, ha, -, hround⟩ := hrounds.rounded_pack (by positivity) hk
    rw [Int.compare_eq_gt.2 hpos, Int.toNat_natCast, Int.cast_natCast]
    exact ⟨a, by rwa [heq], hround⟩

theorem rounded_ofNat (hinf : (ofNat n).isInf = false) :
    ∃ a ∈ level (ofNat n).toModel.unpack, Rounded n a := by
  rcases Nat.eq_zero_or_pos n with rfl | hn
  · refine ⟨0, ?_, by rw [Nat.cast_zero]; exact rounded_zero⟩
    rw [ofNat, ofRatio, if_pos rfl]
    rfl
  · obtain ⟨k, t, hparts, hk, hrounds⟩ := parts?_ofNat_rounds hn hinf
    refine ⟨((k * 2 ^ t : ℚ) : ℝ), ?_, hrounds.rounded (by positivity)⟩
    rw [unpack_of_parts? hparts hk, level, apply_positive]
    rfl

theorem rounded_ofInt {n : Int} (hinf : (ofInt n).isInf = false) :
    ∃ a ∈ level (ofInt n).toModel.unpack, Rounded n a := by
  rcases lt_or_ge n 0 with hneg | hnonneg
  · obtain ⟨m, rfl⟩ : ∃ m : Nat, n = -m := ⟨n.natAbs, by omega⟩
    rw [ofInt, if_pos hneg, Int.natAbs_neg, Int.natAbs_natCast] at hinf ⊢
    rw [isInf_neg] at hinf
    obtain ⟨a, ha, hround⟩ := rounded_ofNat hinf
    exact ⟨-a, neg_mem_level ha, by rw [Int.cast_neg, Int.cast_natCast]; exact hround.neg⟩
  · obtain ⟨m, rfl⟩ := Int.eq_ofNat_of_zero_le hnonneg
    rw [ofInt, if_neg (by omega), Int.natAbs_natCast] at hinf ⊢
    obtain ⟨a, ha, hround⟩ := rounded_ofNat hinf
    exact ⟨a, ha, by rwa [Int.cast_natCast]⟩

variable {u : UnpackedFloat} {x y : Float} {a b c : EReal}

theorem level_nonneg (hu : IsNonneg u) (ha : a ∈ level u) : 0 ≤ a := by
  rcases hu with s | (_ | hm)
  · cases ha
    exact le_rfl
  · cases ha
    exact le_top
  · obtain rfl := Option.some.inj ha
    exact (zero_lt_coe.2 (apply_positive_pos hm)).le

theorem apply_aligned (s : Sign) (m : Nat) {low : Int} (h : low ≤ e) :
    ((s.apply (m <<< (e - low).toNat : Nat) : Int) : ℚ) * 2 ^ low = s.apply m * 2 ^ e := by
  cases s with
  | positive => rw [apply_positive, apply_positive, aligned m h]
  | negative => rw [apply_negative, apply_negative, aligned m h]

theorem unpack_add (x y : Float) : (x + y).toModel.unpack = (Float.Model.pack
    (UnpackedFloat.add .binary64 x.toModel.unpack y.toModel.unpack)).unpack := rfl

theorem level_eq_coe (h : ((v : ℝ) : EReal) ∈ level u) :
    (∃ s, u = .zero s ∧ v = 0) ∨ ∃ (s : Sign) (m : Nat) (e : Int) (hm : 0 < m),
      u = .finite s m e hm ∧ v = s.apply m * 2 ^ e := by
  cases u with
  | notANumber => cases h
  | infinity s =>
    cases s with
    | negative => exact absurd (Option.some.inj h).symm (EReal.coe_ne_bot _)
    | positive => exact absurd (Option.some.inj h).symm (EReal.coe_ne_top _)
  | zero s =>
    have hzero : (0 : EReal) = ((v : ℝ) : EReal) := Option.some.inj h
    rw [← coe_zero] at hzero
    exact .inl ⟨s, rfl, (coe_strictMono.injective hzero).symm⟩
  | finite s m e hm =>
    exact .inr ⟨s, m, e, hm, rfl, (coe_strictMono.injective (Option.some.inj h)).symm⟩

/-- A finite sum is the exact one, rounded. -/
theorem rounded_add {w : ℚ} (hv : ((v : ℝ) : EReal) ∈ level x.toModel.unpack)
    (hw : ((w : ℝ) : EReal) ∈ level y.toModel.unpack) :
    ∃ c ∈ level (x + y).toModel.unpack, Rounded (v + w) c := by
  rw [unpack_add]
  rcases level_eq_coe hv with ⟨s, hx, rfl⟩ | ⟨s, m, e, hm, hx, rfl⟩
  · rcases level_eq_coe hw with ⟨s', hy, rfl⟩ | ⟨s', m', e', hm', hy, rfl⟩
    · refine ⟨0, ?_, by rw [add_zero]; exact rounded_zero⟩
      rw [hx, hy]
      cases s <;> cases s' <;> rfl
    · refine ⟨_, ?_, by rw [zero_add]; exact rounded_self _⟩
      rwa [hx, hy, show UnpackedFloat.add .binary64 (.zero s) (.finite s' m' e' hm') =
        .finite s' m' e' hm' from rfl, unpack_pack_of_unpack hy, ← hy]
  · rcases level_eq_coe hw with ⟨s', hy, rfl⟩ | ⟨s', m', e', hm', hy, rfl⟩
    · refine ⟨_, ?_, by rw [add_zero]; exact rounded_self _⟩
      rwa [hx, hy, show UnpackedFloat.add .binary64 (.finite s m e hm) (.zero s') =
        .finite s m e hm from rfl, unpack_pack_of_unpack hx, ← hx]
    · obtain ⟨-, he, -⟩ := bounds_of_unpack hx
      obtain ⟨-, he', -⟩ := bounds_of_unpack hy
      have hround := rounded_normalize (s.apply (m <<< (e - min e e').toNat : Nat) +
        s'.apply (m' <<< (e' - min e e').toNat : Nat)) (e := min e e') (by omega)
      rw [Int.cast_add, add_mul, apply_aligned s m (min_le_left e e'),
        apply_aligned s' m' (min_le_right e e')] at hround
      rw [hx, hy]
      exact hround

theorem add_infinity (s : Sign) (u : UnpackedFloat) :
    UnpackedFloat.add .binary64 u (.infinity s) = UnpackedFloat.add .binary64 (.infinity s) u := by
  cases u with
  | infinity s' => cases s <;> cases s' <;> rfl
  | _ => rfl

/-- Infinity swallows whatever does not face it. -/
theorem eq_top_of_add (h : x.toModel.unpack = .infinity .positive ∨
    y.toModel.unpack = .infinity .positive) (hc : c ∈ level (x + y).toModel.unpack) : c = ⊤ := by
  have hnan : level (Float.Model.pack .notANumber).unpack = none := rfl
  have htop : level (Float.Model.pack (.infinity .positive)).unpack = some ⊤ := rfl
  have hswallows (u : UnpackedFloat) (hu : c ∈ level (Float.Model.pack
      (UnpackedFloat.add .binary64 (.infinity .positive) u)).unpack) : c = ⊤ := by
    cases u with
    | notANumber => cases hnan.symm.trans hu
    | infinity s =>
      cases s with
      | negative => cases hnan.symm.trans hu
      | positive => exact Option.some.inj (hu.symm.trans htop)
    | _ => exact Option.some.inj (hu.symm.trans htop)
  rw [unpack_add] at hc
  rcases h with hx | hy
  · rw [hx] at hc
    exact hswallows _ hc
  · rw [hy, add_infinity] at hc
    exact hswallows _ hc

theorem unpack_cases (ha : a ∈ level u) :
    u = .infinity .negative ∧ a = ⊥ ∨ u = .infinity .positive ∧ a = ⊤ ∨
      ∃ v : ℚ, a = ((v : ℝ) : EReal) := by
  cases u with
  | notANumber => cases ha
  | infinity s =>
    cases s with
    | negative => exact .inl ⟨rfl, (Option.some.inj ha).symm⟩
    | positive => exact .inr (.inl ⟨rfl, (Option.some.inj ha).symm⟩)
  | zero s => exact .inr (.inr ⟨0, by rw [coe_zero]; exact (Option.some.inj ha).symm⟩)
  | finite s m e hm => exact .inr (.inr ⟨_, (Option.some.inj ha).symm⟩)

theorem le_of_add (ha : a ∈ level x.toModel.unpack) (hb : b ∈ level y.toModel.unpack)
    (hc : c ∈ level (x + y).toModel.unpack) (hnonneg : 0 ≤ b) : a ≤ c := by
  rcases unpack_cases ha with ⟨-, rfl⟩ | ⟨hx, rfl⟩ | ⟨v, rfl⟩
  · exact bot_le
  · exact (eq_top_of_add (.inl hx) hc).ge
  · rcases unpack_cases hb with ⟨-, rfl⟩ | ⟨hy, rfl⟩ | ⟨w, rfl⟩
    · exact absurd hnonneg EReal.bot_lt_zero.not_ge
    · rw [eq_top_of_add (.inr hy) hc]
      exact le_top
    · obtain ⟨c', hc', hround⟩ := rounded_add ha hb
      obtain rfl : c' = c := Option.some.inj (hc'.symm.trans hc)
      rw [← coe_zero] at hnonneg
      have hw := coe_strictMono.le_iff_le.1 hnonneg
      exact hround.above ha (coe_strictMono.monotone (le_add_of_nonneg_right hw))

theorem exists_level (h : u ≠ .notANumber) : ∃ a, a ∈ level u := by
  cases u with
  | notANumber => exact absurd rfl h
  | infinity s => cases s <;> exact ⟨_, rfl⟩
  | _ => exact ⟨_, rfl⟩

theorem numbers_of_add (hc : c ∈ level (x + y).toModel.unpack) :
    (∃ a, a ∈ level x.toModel.unpack) ∧ ∃ b, b ∈ level y.toModel.unpack := by
  have hnan : level (Float.Model.pack .notANumber).unpack = none := rfl
  rw [unpack_add] at hc
  generalize x.toModel.unpack = u at *
  generalize y.toModel.unpack = v at *
  constructor
  · refine exists_level ?_
    rintro rfl
    cases hnan.symm.trans hc
  · refine exists_level ?_
    rintro rfl
    cases u <;> cases hnan.symm.trans hc

theorem lt_neg_of_add (ha : a ∈ level x.toModel.unpack) (hb : b ∈ level y.toModel.unpack)
    (hc : c ∈ level (x + y).toModel.unpack) (hneg : c < 0) : a < -b := by
  have hfinite (hx : x.toModel.unpack = .infinity .positive ∨
      y.toModel.unpack = .infinity .positive) : False := by
    rw [eq_top_of_add hx hc] at hneg
    exact not_top_lt hneg
  rcases unpack_cases ha with ⟨-, rfl⟩ | ⟨hx, rfl⟩ | ⟨v, rfl⟩
  · rcases unpack_cases hb with ⟨-, rfl⟩ | ⟨hy, rfl⟩ | ⟨w, rfl⟩
    · exact bot_lt_top
    · exact (hfinite (.inr hy)).elim
    · exact EReal.bot_lt_coe _
  · exact (hfinite (.inl hx)).elim
  · rcases unpack_cases hb with ⟨-, rfl⟩ | ⟨hy, rfl⟩ | ⟨w, rfl⟩
    · exact EReal.coe_lt_top _
    · exact (hfinite (.inr hy)).elim
    · obtain ⟨c', hc', hround⟩ := rounded_add ha hb
      obtain rfl : c' = c := Option.some.inj (hc'.symm.trans hc)
      have hless : v + w < 0 := by
        by_contra hnonneg
        refine hneg.not_ge (hround.above (x := 0) rfl ?_)
        rw [← coe_zero]
        exact coe_strictMono.monotone (not_lt.1 hnonneg)
      rw [← EReal.coe_neg, ← Rat.cast_neg]
      exact coe_strictMono (by linarith)

theorem neg_apply (s : Sign) (n : Int) : (-s).apply n = -s.apply n := by
  cases s with
  | negative => exact (neg_neg n).symm
  | positive => rfl

theorem unpack_sub (x y : Float) : (x - y).toModel.unpack = (x + -y).toModel.unpack := by
  rw [unpack_add, unpack_neg]
  show (Float.Model.pack (UnpackedFloat.sub .binary64 _ _)).unpack = _
  congr 2
  generalize x.toModel.unpack = u
  generalize y.toModel.unpack = v
  cases u with
  | notANumber => rfl
  | infinity s => cases v <;> rfl
  | zero s => cases v <;> rfl
  | finite s m e hm =>
    cases v with
    | finite s' m' e' hm' =>
      simp only [UnpackedFloat.sub, UnpackedFloat.add, UnpackedFloat.neg, neg_apply,
        Int.sub_eq_add_neg]
    | _ => rfl

theorem lt_of_sub (hc : c ∈ level (x - y).toModel.unpack) (hneg : c < 0) :
    ∃ a b, a ∈ level x.toModel.unpack ∧ b ∈ level y.toModel.unpack ∧ a < b := by
  rw [unpack_sub] at hc
  obtain ⟨⟨a, ha⟩, b, hb⟩ := numbers_of_add hc
  have hless := lt_neg_of_add ha hb hc hneg
  refine ⟨a, -b, ha, ?_, hless⟩
  rw [unpack_neg, level_neg] at hb
  obtain ⟨b', hb', rfl⟩ := Option.mem_map.1 hb
  rwa [neg_neg]

end Skirmish.Binary

namespace Skirmish.Quantity

open Binary

variable {q r s : Quantity} {n : Int} {x y : Float} {a : EReal}

theorem floatOfInt_eq_ok :
    floatOfInt n = .ok x ↔ (Binary.ofInt n).isInf = false ∧ Binary.ofInt n = x := by
  rw [floatOfInt]
  cases (Binary.ofInt n).isInf with
  | false => simp
  | true => simp

theorem rounded_floatOfInt (h : floatOfInt n = .ok x) (ha : a ∈ level x.toModel.unpack) :
    Rounded n a := by
  obtain ⟨hinf, rfl⟩ := floatOfInt_eq_ok.1 h
  obtain ⟨b, hb, hround⟩ := rounded_ofInt hinf
  obtain rfl : a = b := Option.some.inj (ha.symm.trans hb)
  exact hround

theorem mem_level_of_faithful (hq : q.Faithful) (hx : q.toFloat = .ok x) (ha : a ∈ q.height) :
    a ∈ level x.toModel.unpack := by
  cases q with
  | real y =>
    cases hx
    exact ha
  | whole n =>
    obtain ⟨y, hy, heq⟩ := hq
    obtain rfl : y = x := Except.ok.inj (hy.symm.trans hx)
    obtain ⟨b, c, hb, hc, rfl⟩ := eq_iff.1 heq
    obtain rfl : a = b := Option.some.inj (ha.symm.trans hb)
    exact hc

/-- What is added to does not become less, if a float holds it. -/
theorem not_lt_of_add (hr : le 0 r = true) (hq : q.Faithful) (h : q.add r = .ok s) :
    s.lt q = false := by
  rw [Bool.eq_false_iff]
  intro hless
  rcases combine_cases h with ⟨m, n, rfl, rfl, rfl⟩ | ⟨x, y, hx, hy, rfl⟩
  · have hn := whole_nonneg.1 hr
    have hsum := whole_lt.1 hless
    omega
  · obtain ⟨c, a, hc, ha, hca⟩ := lt_iff.1 hless
    obtain ⟨-, b, hb⟩ := numbers_of_add hc
    have hnonneg := level_nonneg (toFloat_nonneg hr hy) hb
    exact hca.not_ge (le_of_add (mem_level_of_faithful hq hx ha) hb hc hnonneg)

theorem lt_of_real_sub (h : (real (x - y)).lt 0 = true) :
    ∃ a b, a ∈ level x.toModel.unpack ∧ b ∈ level y.toModel.unpack ∧ a < b := by
  obtain ⟨c, z, hc, hz, hcz⟩ := lt_iff.1 h
  obtain rfl : 0 = z := Option.some.inj (height_zero.symm.trans hz)
  exact lt_of_sub hc hcz

theorem lt_of_sub_lt_zero (h : q.sub r = .ok s) (hneg : s.lt 0 = true) : q.lt r = true := by
  cases q with
  | whole m =>
    cases r with
    | whole n =>
      cases h
      have hless : m - n < 0 := whole_lt.1 hneg
      exact whole_lt.2 (by omega)
    | real y =>
      obtain ⟨x, hx, h⟩ := Fallible.bind_eq_ok.1 ((combine_real_right _ _).symm.trans h)
      cases h
      obtain ⟨a, b, ha, hb, hab⟩ := lt_of_real_sub hneg
      refine lt_iff.2 ⟨_, b, rfl, hb, ?_⟩
      by_contra hle
      exact hab.not_ge ((rounded_floatOfInt hx ha).above hb (not_lt.1 hle))
  | real x =>
    obtain ⟨y, hy, h⟩ := Fallible.bind_eq_ok.1 ((combine_real_left _ _).symm.trans h)
    cases h
    obtain ⟨a, b, ha, hb, hab⟩ := lt_of_real_sub hneg
    cases r with
    | real y =>
      cases hy
      exact lt_iff.2 ⟨a, b, ha, hb, hab⟩
    | whole n =>
      refine lt_iff.2 ⟨a, _, ha, rfl, ?_⟩
      by_contra hle
      exact hab.not_ge ((rounded_floatOfInt hy hb).below ha (not_lt.1 hle))

end Skirmish.Quantity

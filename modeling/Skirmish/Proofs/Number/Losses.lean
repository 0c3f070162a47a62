import Skirmish.Proofs.Number.Sums

open Float.Model UnpackedFloat

namespace Skirmish.Binary

variable {n k : Nat} {e t : Int} {x y : Float} {a b c : EReal} {v : ℚ}

theorem two_pow_mul_two_pow (n : Nat) (e : Int) : (2 ^ n : ℚ) * 2 ^ (e - n) = 2 ^ e := by
  rw [← zpow_natCast, ← zpow_add₀ two_ne_zero, add_sub_cancel]

theorem exists_canonical (hn : 0 < n) (hlt : n < 2 ^ 53) (he : -1074 ≤ e) :
    ∃ m i, 0 < m ∧ Canonical m i ∧ i ≤ e ∧ (n * 2 ^ e : ℚ) = m * 2 ^ i := by
  obtain ⟨d, hd⟩ : ∃ d : Nat, d = min (52 - n.log2) (e + 1074).toNat := ⟨_, rfl⟩
  have hlog : n.log2 ≤ 52 := log2_le hlt
  refine ⟨n * 2 ^ d, e - d, by positivity, ⟨?_, by omega, ?_⟩, by omega, ?_⟩
  · calc n * 2 ^ d < 2 ^ (n.log2 + 1) * 2 ^ d :=
          Nat.mul_lt_mul_of_pos_right Nat.lt_log2_self (Nat.two_pow_pos d)
      _ = 2 ^ (n.log2 + 1 + d) := (Nat.pow_add 2 _ _).symm
      _ ≤ 2 ^ 53 := Nat.pow_le_pow_right two_pos (by omega)
  · rcases Nat.lt_or_ge (e + 1074).toNat (52 - n.log2) with hleast | hfull
    · right
      omega
    · left
      calc 2 ^ 52 ≤ 2 ^ (n.log2 + d) := Nat.pow_le_pow_right two_pos (by omega)
        _ = 2 ^ n.log2 * 2 ^ d := Nat.pow_add 2 _ _
        _ ≤ n * 2 ^ d := Nat.mul_le_mul_right _ (Nat.log2_self_le hn.ne')
  · rw [Nat.cast_mul, Nat.cast_pow, Nat.cast_ofNat, mul_assoc, two_pow_mul_two_pow]

theorem exists_float (hlt : n < 2 ^ 53) (he : -1074 ≤ e) (htop : e ≤ 971) :
    ∃ x : Float, (((n * 2 ^ e : ℚ) : ℝ) : EReal) ∈ level x.toModel.unpack := by
  rcases Nat.eq_zero_or_pos n with rfl | hn
  · refine ⟨0, ?_⟩
    rw [Nat.cast_zero, zero_mul, coe_zero]
    rfl
  · obtain ⟨m, i, hm, hcanonical, hi, hv⟩ := exists_canonical hn hlt he
    refine ⟨.ofModel (.pack (.finite .positive m i hm)), ?_⟩
    show _ ∈ level (Float.Model.pack (.finite .positive m i hm)).unpack
    rw [unpack_pack hcanonical, if_neg (by omega), level, apply_positive, ← hv]
    rfl

/-- A positive float above `2 ^ 53` is a whole number. -/
theorem Canonical.exists_nat (h : Canonical k t) (hlt : (2 ^ 53 : ℚ) < k * 2 ^ t) :
    ∃ n : Nat, (k * 2 ^ t : ℚ) = n := by
  have ht : 0 ≤ t := by
    by_contra hneg
    have hk : (k : ℚ) ≤ 2 ^ 53 := by exact_mod_cast h.lt.le
    have hpow : (2 : ℚ) ^ t ≤ 1 := zpow_le_one_of_nonpos₀ one_le_two (by omega)
    have := mul_le_mul hk hpow (by positivity) (by positivity)
    linarith
  exact ⟨k * 2 ^ t.toNat, by rw [Nat.cast_mul, zpow_of_nonneg ht]⟩

/-- One less than a float up to `2 ^ 53` is a float. -/
theorem Canonical.exists_pred (h : Canonical k t) (hlow : (1 : ℚ) ≤ k * 2 ^ t)
    (hhigh : (k * 2 ^ t : ℚ) ≤ 2 ^ 53) :
    ∃ x : Float, (((k * 2 ^ t - 1 : ℚ) : ℝ) : EReal) ∈ level x.toModel.unpack := by
  rcases le_or_gt t 0 with ht | ht
  · have hunit : ((2 ^ (-t).toNat : Nat) * 2 ^ t : ℚ) = 1 := by
      rw [zpow_of_nonneg (by omega), zpow_neg_mul]
    have hle : 2 ^ (-t).toNat ≤ k := by
      rw [← hunit, mul_le_mul_iff_left₀ (by positivity)] at hlow
      exact_mod_cast hlow
    obtain ⟨x, hx⟩ := exists_float (n := k - 2 ^ (-t).toNat) (e := t)
      ((Nat.sub_le _ _).trans_lt h.lt) h.least (by omega)
    rw [Nat.cast_sub hle, sub_mul, hunit] at hx
    exact ⟨x, hx⟩
  · have hk : (2 ^ 52 : ℚ) ≤ k := by exact_mod_cast h.full.resolve_right (by omega)
    have htwo : (2 : ℚ) ≤ 2 ^ t := by
      calc (2 : ℚ) = 2 ^ (1 : Int) := (zpow_one 2).symm
        _ ≤ 2 ^ t := zpow_le_zpow_right₀ one_le_two ht
    have hvalue : (k * 2 ^ t : ℚ) = 2 ^ 53 := by
      have := mul_le_mul hk htwo (by positivity) (by positivity)
      linarith
    obtain ⟨x, hx⟩ := exists_float (n := 2 ^ 53 - 1) (e := 0) (by norm_num) (by norm_num)
      (by norm_num)
    refine ⟨x, ?_⟩
    rw [hvalue]
    norm_num at hx ⊢
    exact hx

theorem exists_float_one : ∃ x : Float, (((1 : ℚ) : ℝ) : EReal) ∈ level x.toModel.unpack := by
  have h := exists_float (n := 1) (e := 0) (by norm_num) (by norm_num) (by norm_num)
  norm_num at h ⊢
  exact h

theorem Rounded.one_le {n : Int} (h : Rounded n b) (hn : 1 ≤ n) : ((1 : ℚ) : ℝ) ≤ b := by
  obtain ⟨x, hx⟩ := exists_float_one
  exact h.above hx (coe_strictMono.monotone (by exact_mod_cast hn))

theorem add_one_le (h : c ≤ (((v - 1 : ℚ) : ℝ) : EReal)) : c + 1 ≤ ((v : ℝ) : EReal) := by
  calc c + 1 ≤ (((v - 1 : ℚ) : ℝ) : EReal) + 1 := by gcongr
    _ = ((v : ℝ) : EReal) := by
      rw [← EReal.coe_one, ← EReal.coe_add, Rat.cast_sub, Rat.cast_one, sub_add_cancel]

/-- Above `2 ^ 53` the next float is lower by one at least. -/
theorem le_pred_of_lt {j : Nat} {i : Int} (hk : Canonical k t) (hj : Canonical j i)
    (hlt : (2 ^ 53 : ℚ) < k * 2 ^ t) (h : (j * 2 ^ i : ℚ) < k * 2 ^ t) :
    (j * 2 ^ i : ℚ) ≤ k * 2 ^ t - 1 := by
  obtain ⟨n, hn⟩ := hk.exists_nat hlt
  rw [hn] at hlt h ⊢
  have hlt : 2 ^ 53 < n := by exact_mod_cast hlt
  rcases le_or_gt (j * 2 ^ i : ℚ) (2 ^ 53) with hle | hgt
  · have hn : ((2 ^ 53 + 1 : Nat) : ℚ) ≤ n := by exact_mod_cast hlt
    push_cast at hn
    linarith
  · obtain ⟨m, hm⟩ := hj.exists_nat hgt
    rw [hm] at h ⊢
    have h : ((m + 1 : Nat) : ℚ) ≤ n := by exact_mod_cast h
    push_cast at h
    linarith

/-- Where `w` is subtracted from a positive float and `w` is one or more, the float loses a whole
one or all that it has, unless it is above `2 ^ 53` and rounding gives it back. -/
theorem Rounded.loses {w : ℚ} (h : Rounded (v - w) c) (hw : 1 ≤ w) (hpos : 0 < v)
    (hv : ((v : ℝ) : EReal) ∈ level x.toModel.unpack) (hc : c ∈ level y.toModel.unpack) :
    c ≤ 0 ∨ c + 1 ≤ ((v : ℝ) : EReal) ∨ 2 ^ 53 < v ∧ c = ((v : ℝ) : EReal) := by
  obtain ⟨k, t, hk, rfl⟩ : ∃ k t, Canonical k t ∧ v = k * 2 ^ t := by
    rcases level_cases hv with hneg | htop | ⟨k, t, hk, -, heq⟩
    · exact absurd (zero_lt_coe.2 hpos) hneg.not_gt
    · exact absurd htop (EReal.coe_ne_top _)
    · exact ⟨k, t, hk, coe_strictMono.injective heq⟩
  rcases lt_or_ge (k * 2 ^ t : ℚ) 1 with hless | hone
  · left
    refine h.below (x := 0) rfl ?_
    rw [← coe_zero]
    exact coe_strictMono.monotone (by linarith)
  · rcases le_or_gt (k * 2 ^ t : ℚ) (2 ^ 53) with hsmall | hlarge
    · obtain ⟨z, hz⟩ := hk.exists_pred hone hsmall
      exact .inr (.inl (add_one_le (h.below hz (coe_strictMono.monotone (by linarith)))))
    · have hle : c ≤ (((k * 2 ^ t : ℚ) : ℝ) : EReal) :=
        h.below hv (coe_strictMono.monotone (by linarith))
      rcases hle.lt_or_eq with hlt | heq
      · rcases level_cases hc with hneg | rfl | ⟨j, i, hj, -, rfl⟩
        · exact .inl hneg
        · exact absurd hlt not_top_lt
        · exact .inr (.inl (add_one_le (coe_strictMono.monotone
            (le_pred_of_lt hk hj hlarge (coe_strictMono.lt_iff_lt.1 hlt)))))
      · exact .inr (.inr ⟨hlarge, heq⟩)

def Drops (a c : EReal) : Prop := c < a ∧ (c ≤ 0 ∨ c + 1 ≤ a)

theorem drops_of_add_one_le (h : c + 1 ≤ ((v : ℝ) : EReal)) : Drops (v : ℝ) c := by
  refine ⟨?_, .inr h⟩
  induction c with
  | bot => exact EReal.bot_lt_coe _
  | top => exact absurd h (EReal.coe_lt_top _).not_ge
  | coe u =>
    rw [← EReal.coe_one, ← EReal.coe_add, EReal.coe_le_coe_iff] at h
    exact EReal.coe_lt_coe_iff.2 (by linarith)

theorem level_sub {w : ℚ} (ha : a ∈ level x.toModel.unpack) (hpos : 0 < a)
    (hw : ((w : ℝ) : EReal) ∈ level y.toModel.unpack) :
    ∃ c ∈ level (x - y).toModel.unpack, a = ⊤ ∧ c = ⊤ ∨
      ∃ v : ℚ, a = ((v : ℝ) : EReal) ∧ Rounded (v - w) c := by
  have hneg := neg_mem_level hw
  rw [← EReal.coe_neg, ← Rat.cast_neg] at hneg
  rw [unpack_sub]
  rcases unpack_cases ha with ⟨-, rfl⟩ | ⟨hx, rfl⟩ | ⟨v, rfl⟩
  · exact absurd hpos not_lt_bot
  · have htop : level (Float.Model.pack (.infinity .positive)).unpack = some ⊤ := rfl
    refine ⟨⊤, ?_, .inl ⟨rfl, rfl⟩⟩
    rw [unpack_add, hx]
    rcases level_eq_coe hneg with ⟨s, hy, -⟩ | ⟨s, m, e, hm, hy, -⟩
    · rw [hy]
      exact htop
    · rw [hy]
      exact htop
  · obtain ⟨c, hc, hround⟩ := rounded_add ha hneg
    rw [← sub_eq_add_neg] at hround
    exact ⟨c, hc, .inr ⟨v, rfl, hround⟩⟩

end Skirmish.Binary

namespace Skirmish.Quantity

open Binary

variable {q r : Quantity} {n : Int} {y : Float} {a c : EReal}

/-- All of it is gone, or a whole one at least. -/
def Loses (q r : Quantity) : Prop :=
  ∃ a c, a ∈ q.height ∧ c ∈ r.height ∧ c < a ∧ (c = 0 ∨ c + 1 ≤ a)

/-- Above `2 ^ 53` it may be that rounding gives it back. -/
def Swallows (q : Quantity) (n : Int) : Prop :=
  lt (whole (2 ^ 53)) q = true ∧ ∃ r, q.sub (whole n) = .ok r ∧ r.eq q = true

theorem floatOfInt_level (h : floatOfInt n = .ok y) :
    ∃ w : ℚ, ((w : ℝ) : EReal) ∈ level y.toModel.unpack ∧ Rounded n ((w : ℝ) : EReal) := by
  obtain ⟨hinf, rfl⟩ := floatOfInt_eq_ok.1 h
  obtain ⟨b, hb, hround⟩ := rounded_ofInt hinf
  rcases unpack_cases hb with ⟨hy, -⟩ | ⟨hy, -⟩ | ⟨w, rfl⟩
  · rw [Float.isInf, Float.Model.isInf, hy] at hinf
    cases hinf
  · rw [Float.isInf, Float.Model.isInf, hy] at hinf
    cases hinf
  · exact ⟨w, hb, hround⟩

theorem lt_of_loses (h : q.Loses r) : r.lt q = true := by
  obtain ⟨a, c, ha, hc, hless, -⟩ := h
  exact (lt_iff_of_mem hc ha).2 hless

theorem height_max_zero (hc : c ∈ r.height) : c ⊔ 0 ∈ (max 0 r).height := by
  have hlt : lt 0 r = true ↔ 0 < c := lt_iff_of_mem height_zero hc
  rw [max]
  split
  next hpos => rwa [sup_of_le_left (hlt.1 hpos).le]
  next hpos => rw [sup_of_le_right (not_lt.1 (mt hlt.2 hpos)), height_zero, Option.mem_def]

theorem drops_of_sub (hpos : lt 0 q = true) (h : q.sub (whole n) = .ok r) :
    ∃ a c, a ∈ q.height ∧ c ∈ r.height ∧ 0 < a ∧
      (1 ≤ n → Drops a c ∨ ((2 ^ 53 : ℚ) : ℝ) < a ∧ c = a) ∧ (n ≤ 0 → a ≤ c) := by
  obtain ⟨z, a, hz, ha, hless⟩ := lt_iff.1 hpos
  obtain rfl : 0 = z := Option.mem_unique height_zero hz
  cases q with
  | whole m =>
    cases h
    obtain rfl := Option.some.inj ha
    refine ⟨_, _, rfl, rfl, hless, fun hn => .inl (drops_of_add_one_le (add_one_le ?_)),
      fun hn => ?_⟩
    · refine coe_strictMono.monotone ?_
      have hn : (1 : ℚ) ≤ n := by exact_mod_cast hn
      rw [Int.cast_sub]
      linarith
    · exact coe_strictMono.monotone (by exact_mod_cast (by omega : m ≤ m - n))
  | real x =>
    obtain ⟨y, hy, h⟩ := Fallible.bind_eq_ok.1 ((combine_real_left _ _).symm.trans h)
    cases h
    obtain ⟨w, hw, hround⟩ := floatOfInt_level hy
    obtain ⟨c, hc, hcases⟩ := level_sub ha hless hw
    refine ⟨a, c, ha, hc, hless, fun hn => ?_, fun hn => ?_⟩
    · rcases hcases with ⟨rfl, rfl⟩ | ⟨v, rfl, hdifference⟩
      · exact .inr ⟨EReal.coe_lt_top _, rfl⟩
      · have hw : 1 ≤ w := coe_strictMono.le_iff_le.1 (hround.one_le hn)
        rcases hdifference.loses hw (zero_lt_coe.1 hless) ha hc with hgone | hlost | ⟨hv, rfl⟩
        · exact .inl ⟨hgone.trans_lt hless, .inl hgone⟩
        · exact .inl (drops_of_add_one_le hlost)
        · exact .inr ⟨coe_strictMono hv, rfl⟩
    · rcases hcases with ⟨rfl, rfl⟩ | ⟨v, rfl, hdifference⟩
      · exact le_rfl
      · have hw : w ≤ 0 := by
          have hzero := hround.below (x := 0) (b := 0) rfl (by
            rw [← coe_zero]
            exact coe_strictMono.monotone (by exact_mod_cast hn))
          rw [← coe_zero] at hzero
          exact coe_strictMono.le_iff_le.1 hzero
        exact hdifference.above ha (coe_strictMono.monotone (by linarith))

theorem loses_iff_drops (ha : a ∈ q.height) (hpos : 0 < a) (hc : c ∈ r.height) :
    q.Loses (max 0 r) ↔ Drops a c := by
  constructor
  · rintro ⟨a', c', ha', hc', hless, hrest⟩
    obtain rfl : a = a' := Option.mem_unique ha ha'
    obtain rfl : c ⊔ 0 = c' := Option.mem_unique (height_max_zero hc) hc'
    refine ⟨le_sup_left.trans_lt hless, hrest.imp sup_eq_right.1 fun hlost => ?_⟩
    calc c + 1 ≤ c ⊔ 0 + 1 := by gcongr; exact le_sup_left
      _ ≤ a := hlost
  · rintro ⟨hless, hrest⟩
    refine ⟨a, c ⊔ 0, ha, height_max_zero hc, sup_lt_iff.2 ⟨hless, hpos⟩, ?_⟩
    rcases le_total c 0 with hgone | hleft
    · exact .inl (sup_of_le_right hgone)
    · rw [sup_of_le_left hleft]
      exact hrest.imp (le_antisymm · hleft) id

/-- Of a positive quantity a whole number is lost exactly if it is positive and not swallowed. -/
theorem loses_iff (hpos : lt 0 q = true) (h : q.sub (whole n) = .ok r) :
    q.Loses (max 0 r) ↔ 1 ≤ n ∧ ¬q.Swallows n := by
  obtain ⟨a, c, ha, hc, hpositive, hdrops, hkeeps⟩ := drops_of_sub hpos h
  have hloses : q.Loses (max 0 r) ↔ Drops a c := loses_iff_drops ha hpositive hc
  have hswallows : q.Swallows n ↔ ((2 ^ 53 : ℚ) : ℝ) < a ∧ c = a := by
    have hwhole : (whole (2 ^ 53)).lt q = true ↔ (((2 ^ 53 : Int) : ℚ) : ℝ) < a :=
      lt_iff_of_mem rfl ha
    rw [Swallows, hwhole, h, Int.cast_pow, Int.cast_ofNat, ← eq_iff_of_mem hc ha]
    simp only [Except.ok.injEq, exists_eq_left']
  rw [hloses, hswallows]
  constructor
  · intro hdrop
    refine ⟨?_, fun hsame => hdrop.1.ne hsame.2⟩
    by_contra hn
    exact hdrop.1.not_ge (hkeeps (by omega))
  · rintro ⟨hn, hnot⟩
    exact (hdrops hn).resolve_right hnot

theorem one_le_wholePart {f : Parts → Int}
    (hf : ∀ p, 1 ≤ f p ↔ (p.ratio.2 : Int) ≤ p.signed p.ratio.1) (h : wholePart f q = .ok n) :
    1 ≤ n ↔ q.lt 1 = false := by
  cases q with
  | whole m =>
    cases h
    rw [← Bool.not_eq_true, show (1 : Quantity) = whole 1 from rfl, whole_lt, not_lt]
  | real x =>
    rw [wholePart] at h
    split at h
    next p hp =>
      cases h
      have hlt : (real x).lt 1 = true ↔ p.signed p.ratio.1 < p.ratio.2 := by
        show ((compareWhole 1 x).map Ordering.swap == some .lt) = true ↔ _
        rw [compareWhole, hp]
        show ((some (compare (1 * p.ratio.2 : Int) (p.signed p.ratio.1))).map Ordering.swap ==
          some .lt) = true ↔ _
        rw [one_mul, beq_iff_eq, Option.map_some, Option.some.injEq,
          Ordering.swap_eq_iff_eq_swap]
        exact Int.compare_eq_gt
      rw [hf, ← Bool.not_eq_true, hlt, not_lt]
    next => cases h

theorem ratio_snd_pos (p : Parts) : 0 < p.ratio.2 := by
  rw [Parts.ratio]
  split
  · exact Nat.one_pos
  · exact Nat.two_pow_pos _

theorem one_le_floor (p : Parts) : 1 ≤ p.floor ↔ (p.ratio.2 : Int) ≤ p.signed p.ratio.1 := by
  have hpos : (0 : Int) < p.ratio.2 := by exact_mod_cast ratio_snd_pos p
  rw [Parts.floor, Int.fdiv_eq_ediv_of_nonneg _ hpos.le, Int.le_ediv_iff_mul_le hpos, one_mul]

theorem one_le_truncate (p : Parts) : 1 ≤ p.truncate ↔ (p.ratio.2 : Int) ≤ p.signed p.ratio.1 := by
  have hpos := ratio_snd_pos p
  have hdiv : 1 ≤ p.ratio.1 / p.ratio.2 ↔ p.ratio.2 ≤ p.ratio.1 := by
    rw [Nat.le_div_iff_mul_le hpos, one_mul]
  rw [Parts.truncate, Parts.signed, Parts.signed]
  generalize p.ratio.1 / p.ratio.2 = quotient at *
  split
  · omega
  · omega

end Skirmish.Quantity

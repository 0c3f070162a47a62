import Skirmish.Proofs.Number.Order

open Float.Model UnpackedFloat

namespace Skirmish.Binary

noncomputable def level : UnpackedFloat → Option EReal
  | .notANumber => none
  | .infinity .positive => some ⊤
  | .infinity .negative => some ⊥
  | .zero _ => some 0
  | .finite s m e _ => some ((s.apply m * 2 ^ e : ℚ) : ℝ)

theorem coe_strictMono : StrictMono fun q : ℚ => ((q : ℝ) : EReal) :=
  EReal.coe_strictMono.comp Rat.cast_strictMono

theorem coe_zero : (((0 : ℚ) : ℝ) : EReal) = 0 := by
  rw [Rat.cast_zero, EReal.coe_zero]

theorem zero_lt_coe {q : ℚ} : 0 < ((q : ℝ) : EReal) ↔ 0 < q := by
  rw [← coe_zero]
  exact coe_strictMono.lt_iff_lt

theorem coe_lt_zero {q : ℚ} : ((q : ℝ) : EReal) < 0 ↔ q < 0 := by
  rw [← coe_zero]
  exact coe_strictMono.lt_iff_lt

section

variable {m : Nat} {e : Int}

theorem apply_positive (m : Nat) (e : Int) :
    (Sign.apply .positive m * 2 ^ e : ℚ) = m * 2 ^ e := by
  rw [Sign.apply, Int.cast_natCast]

theorem apply_negative (m : Nat) (e : Int) :
    (Sign.apply .negative m * 2 ^ e : ℚ) = -(m * 2 ^ e) := by
  rw [Sign.apply, Int.cast_neg, Int.cast_natCast, neg_mul]

theorem apply_positive_pos (hm : 0 < m) : (0 : ℚ) < Sign.apply .positive m * 2 ^ e := by
  rw [apply_positive]
  positivity

theorem apply_negative_neg (hm : 0 < m) : (Sign.apply .negative m * 2 ^ e : ℚ) < 0 := by
  rw [apply_negative, neg_lt_zero]
  positivity

end

section

variable {α : Type} [LinearOrder α] {a b : α}

theorem some_cmp_of_lt (h : a < b) : some .lt = some (cmp a b) :=
  congrArg some ((cmp_eq_lt_iff _ _).2 h).symm

theorem some_cmp_of_gt (h : b < a) : some .gt = some (cmp a b) :=
  congrArg some ((cmp_eq_gt_iff _ _).2 h).symm

theorem some_cmp_self (a : α) : some .eq = some (cmp a a) :=
  congrArg some (cmp_self_eq_eq a).symm

end

theorem cmp_neg_neg {α : Type} [AddCommGroup α] [LinearOrder α] [IsOrderedAddMonoid α] (a b : α) :
    cmp (-a) (-b) = cmp b a := by
  have hanti : StrictAnti fun c : α => -c := fun _ _ => neg_lt_neg
  exact hanti.cmp_map_eq a b

theorem cmp_finite {s s' : Sign} {m m' : Nat} {e e' : Int} (hm : 0 < m) (hm' : 0 < m')
    (h : (compare e e').then (compare m m') = cmp (m * 2 ^ e : ℚ) (m' * 2 ^ e')) :
    UnpackedFloat.compare (.finite s m e hm) (.finite s' m' e' hm') =
      some (cmp (s.apply m * 2 ^ e : ℚ) (s'.apply m' * 2 ^ e')) := by
  cases s with
  | positive =>
    cases s' with
    | positive => exact congrArg some h
    | negative => exact some_cmp_of_gt ((apply_negative_neg hm').trans (apply_positive_pos hm))
  | negative =>
    cases s' with
    | positive => exact some_cmp_of_lt ((apply_negative_neg hm).trans (apply_positive_pos hm'))
    | negative =>
      rw [apply_negative, apply_negative, cmp_neg_neg, ← cmp_swap, ← h]
      rfl

theorem level_zero : level (0 : Float).toModel.unpack = some 0 := rfl

theorem compare_eq_map₂ (x y : Float) :
    UnpackedFloat.compare x.toModel.unpack y.toModel.unpack =
      Option.map₂ cmp (level x.toModel.unpack) (level y.toModel.unpack) := by
  generalize hx : x.toModel.unpack = u
  generalize hy : y.toModel.unpack = v
  cases u with
  | notANumber => rfl
  | infinity s =>
    cases v with
    | notANumber => cases s <;> rfl
    | infinity s' =>
      cases s <;> cases s'
      · exact some_cmp_self ⊥
      · exact some_cmp_of_lt bot_lt_top
      · exact some_cmp_of_gt bot_lt_top
      · exact some_cmp_self ⊤
    | zero =>
      cases s
      · exact some_cmp_of_lt EReal.bot_lt_zero
      · exact some_cmp_of_gt EReal.zero_lt_top
    | finite =>
      cases s
      · exact some_cmp_of_lt (EReal.bot_lt_coe _)
      · exact some_cmp_of_gt (EReal.coe_lt_top _)
  | zero s =>
    cases v with
    | notANumber => rfl
    | infinity s' =>
      cases s'
      · exact some_cmp_of_gt EReal.bot_lt_zero
      · exact some_cmp_of_lt EReal.zero_lt_top
    | zero => exact some_cmp_self 0
    | finite s' _ _ hm' =>
      cases s'
      · exact some_cmp_of_gt (coe_lt_zero.2 (apply_negative_neg hm'))
      · exact some_cmp_of_lt (zero_lt_coe.2 (apply_positive_pos hm'))
  | finite s m e hm =>
    cases v with
    | notANumber => rfl
    | infinity s' =>
      cases s'
      · exact some_cmp_of_gt (EReal.bot_lt_coe _)
      · exact some_cmp_of_lt (EReal.coe_lt_top _)
    | zero =>
      cases s
      · exact some_cmp_of_lt (coe_lt_zero.2 (apply_negative_neg hm))
      · exact some_cmp_of_gt (zero_lt_coe.2 (apply_positive_pos hm))
    | finite s' m' e' hm' =>
      obtain ⟨hlt, hlow, hfull⟩ := bounds_of_unpack hx
      obtain ⟨hlt', hlow', hfull'⟩ := bounds_of_unpack hy
      rw [cmp_finite hm hm' (compare_finite hlt hlt' hlow hlow' hfull hfull')]
      exact congrArg some (coe_strictMono.cmp_map_eq _ _).symm

end Skirmish.Binary

namespace Skirmish.Quantity

open Binary

variable {q r s : Quantity} {a c : EReal}

noncomputable def height : Quantity → Option EReal
  | whole n => some ((n : ℚ) : ℝ)
  | real x => level x.toModel.unpack

theorem compare_signed (n : Int) (s : Sign) (m : Nat) (e : Int) :
    compare (n * ((⟨isMinus s, m, e⟩ : Parts).ratio.2 : Int))
        ((⟨isMinus s, m, e⟩ : Parts).signed (⟨isMinus s, m, e⟩ : Parts).ratio.1) =
      cmp (n : ℚ) (s.apply m * 2 ^ e) := by
  cases s with
  | positive =>
    rw [apply_positive]
    exact compare_ratio n m e
  | negative =>
    have hratio := compare_ratio (-n) m e
    rw [Int.cast_neg] at hratio
    rw [apply_negative]
    show compare (n * ((⟨false, m, e⟩ : Parts).ratio.2 : Int))
      (-((⟨false, m, e⟩ : Parts).ratio.1 : Int)) = _
    generalize ((⟨false, m, e⟩ : Parts).ratio.1 : Int) = num at *
    generalize ((⟨false, m, e⟩ : Parts).ratio.2 : Int) = den at *
    calc compare (n * den) (-num) = cmp num (-n * den) := by
          rw [← cmp_eq_compare, ← cmp_neg_neg, neg_neg, neg_mul]
      _ = (cmp (-(n : ℚ)) (m * 2 ^ e)).swap := by rw [← cmp_swap, cmp_eq_compare, hratio]
      _ = cmp (n : ℚ) (-(m * 2 ^ e)) := by rw [cmp_swap, ← cmp_neg_neg, neg_neg]

theorem compareWhole_eq_map₂ (n : Int) (x : Float) :
    compareWhole n x = Option.map₂ cmp (height (whole n)) (height (real x)) := by
  rw [height, height, compareWhole, parts?_eq, isNaN_eq]
  generalize hu : x.toModel.unpack = u
  cases u with
  | notANumber => rfl
  | infinity s =>
    simp only [unpackedParts?, UnpackedFloat.isNaN, isMinus_eq_isNegative hu]
    cases s
    · exact some_cmp_of_gt (EReal.bot_lt_coe _)
    · exact some_cmp_of_lt (EReal.coe_lt_top _)
  | zero s =>
    have hzero : cmp (((n : ℚ) : ℝ) : EReal) 0 = compare n 0 := by
      rw [← coe_zero, coe_strictMono.cmp_map_eq, ← Int.cast_zero,
        Int.cast_strictMono.cmp_map_eq, cmp_eq_compare]
    rw [level, Option.map₂_some_some, hzero]
    exact congrArg some (compare_nothing rfl)
  | finite s m e hm =>
    rw [level, Option.map₂_some_some, coe_strictMono.cmp_map_eq]
    exact congrArg some (compare_signed n s m e)

theorem swap_map₂ (a b : Option EReal) :
    (Option.map₂ cmp a b).map Ordering.swap = Option.map₂ cmp b a := by
  rw [Option.map_map₂, Option.map₂_swap]
  simp only [cmp_swap]

theorem order?_eq_map₂ (q r : Quantity) : q.order? r = Option.map₂ cmp q.height r.height := by
  cases q with
  | whole m =>
    cases r with
    | whole n =>
      rw [height, height, Option.map₂_some_some, coe_strictMono.cmp_map_eq,
        Int.cast_strictMono.cmp_map_eq, cmp_eq_compare]
      rfl
    | real y => exact compareWhole_eq_map₂ m y
  | real x =>
    cases r with
    | whole n => rw [order?, compareWhole_eq_map₂, swap_map₂]
    | real y =>
      have hcompare := compare_eq_map₂ x y
      have hswapped := compare_eq_map₂ y x
      rw [← swap_map₂] at hswapped
      simp only [order?, gt_iff_lt, lt_iff_compare, beq_iff_compare, hcompare, hswapped, height]
      cases Option.map₂ cmp (level x.toModel.unpack) (level y.toModel.unpack) with
      | none => rfl
      | some o => cases o <;> rfl

theorem whole_lt {m n : Int} : (whole m).lt (whole n) = true ↔ m < n := by
  show (some (compare m n) == some .lt) = true ↔ _
  rw [beq_iff_eq, Option.some.injEq, Int.compare_eq_lt]

theorem height_zero : height 0 = some 0 := by
  show some ((((0 : Int) : ℚ) : ℝ) : EReal) = some 0
  rw [Int.cast_zero, coe_zero]

theorem isZero_real {x : Float} : (real x).isZero = (x == 0) := by
  rw [Bool.eq_iff_iff, beq_iff_compare, compare_eq_map₂, level_zero, isZero, eq, order?_eq_map₂,
    height_zero, beq_iff_eq]
  rfl

theorem lt_iff : q.lt r = true ↔ ∃ a b, a ∈ q.height ∧ b ∈ r.height ∧ a < b := by
  rw [lt, order?_eq_map₂, beq_iff_eq, Option.map₂_eq_some_iff]
  simp only [cmp_eq_lt_iff]

theorem eq_iff : q.eq r = true ↔ ∃ a b, a ∈ q.height ∧ b ∈ r.height ∧ a = b := by
  rw [eq, order?_eq_map₂, beq_iff_eq, Option.map₂_eq_some_iff]
  simp only [cmp_eq_eq_iff]

theorem lt_iff_of_mem (ha : a ∈ q.height) (hc : c ∈ r.height) : q.lt r = true ↔ a < c := by
  rw [lt_iff]
  constructor
  · rintro ⟨a', c', ha', hc', hless⟩
    obtain rfl : a = a' := Option.mem_unique ha ha'
    obtain rfl : c = c' := Option.mem_unique hc hc'
    exact hless
  · exact fun hless => ⟨a, c, ha, hc, hless⟩

theorem eq_iff_of_mem (ha : a ∈ q.height) (hc : c ∈ r.height) : q.eq r = true ↔ a = c := by
  rw [eq_iff]
  constructor
  · rintro ⟨a', c', ha', hc', hsame⟩
    obtain rfl : a = a' := Option.mem_unique ha ha'
    obtain rfl : c = c' := Option.mem_unique hc hc'
    exact hsame
  · exact fun hsame => ⟨a, c, ha, hc, hsame⟩

theorem exists_height (h : q.isNaN = false) : ∃ a, a ∈ q.height := by
  cases q with
  | whole n => exact ⟨_, rfl⟩
  | real x =>
    rw [isNaN, isNaN_eq] at h
    rw [height]
    cases hx : x.toModel.unpack with
    | notANumber =>
      rw [hx] at h
      cases h
    | infinity s => cases s <;> exact ⟨_, rfl⟩
    | zero s => exact ⟨_, rfl⟩
    | finite s m e hm => exact ⟨_, rfl⟩

theorem le_iff : q.le r = true ↔ ∃ a b, a ∈ q.height ∧ b ∈ r.height ∧ a ≤ b := by
  rw [le, order?_eq_map₂, Bool.or_eq_true, beq_iff_eq, beq_iff_eq, Option.map₂_eq_some_iff,
    Option.map₂_eq_some_iff]
  simp only [cmp_eq_lt_iff, cmp_eq_eq_iff, le_iff_lt_or_eq]
  constructor
  · rintro (⟨a, b, ha, hb, hless⟩ | ⟨a, b, ha, hb, hsame⟩)
    · exact ⟨a, b, ha, hb, .inl hless⟩
    · exact ⟨a, b, ha, hb, .inr hsame⟩
  · rintro ⟨a, b, ha, hb, hless | hsame⟩
    · exact .inl ⟨a, b, ha, hb, hless⟩
    · exact .inr ⟨a, b, ha, hb, hsame⟩

theorem lt_of_le_of_lt (hqr : q.le r = true) (hrs : r.lt s = true) : q.lt s = true := by
  obtain ⟨a, b, ha, hb, hab⟩ := le_iff.1 hqr
  obtain ⟨b', c, hb', hc, hbc⟩ := lt_iff.1 hrs
  obtain rfl : b = b' := Option.mem_unique hb hb'
  exact lt_iff.2 ⟨a, c, ha, hc, hab.trans_lt hbc⟩

theorem not_eq_of_lt (h : q.lt r = true) : r.eq q = false := by
  rw [Bool.eq_false_iff]
  intro heq
  obtain ⟨a, b, ha, hb, hab⟩ := lt_iff.1 h
  exact hab.ne' ((eq_iff_of_mem hb ha).1 heq)

theorem le_of_not_lt (h : q.lt r = false) (hq : q.isNaN = false) (hr : r.isNaN = false) :
    r.le q = true := by
  obtain ⟨a, ha⟩ := exists_height hq
  obtain ⟨c, hc⟩ := exists_height hr
  rw [Bool.eq_false_iff, ne_eq, lt_iff_of_mem ha hc, not_lt] at h
  exact le_iff.2 ⟨c, a, hc, ha, h⟩

theorem lt_trans (hqr : q.lt r = true) (hrs : r.lt s = true) : q.lt s = true := by
  obtain ⟨a, b, ha, hb, hab⟩ := lt_iff.1 hqr
  obtain ⟨b', c, hb', hc, hbc⟩ := lt_iff.1 hrs
  obtain rfl : b = b' := Option.some.inj (hb.symm.trans hb')
  exact lt_iff.2 ⟨a, c, ha, hc, hab.trans hbc⟩

end Skirmish.Quantity

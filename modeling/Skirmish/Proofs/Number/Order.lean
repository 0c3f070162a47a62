import Skirmish.Proofs.Number.Quantity
import Skirmish.Proofs.Number.Sign

open Float.Model (UnpackedFloat)

namespace Skirmish.Quantity

open Binary

theorem compare_ratio (n : Int) (m : Nat) (e : Int) :
    compare (n * ((⟨false, m, e⟩ : Parts).ratio.2 : Int)) ((⟨false, m, e⟩ : Parts).ratio.1 : Int) =
      cmp (n : ℚ) (m * 2 ^ e) := by
  rw [← cmp_eq_compare, ← Int.cast_strictMono (R := ℚ).cmp_map_eq]
  simp only [Parts.ratio, Nat.pow_eq]
  split
  next he =>
    rw [← zpow_of_nonneg he]
    push_cast
    rw [mul_one]
  next he =>
    have hscale : (m : ℚ) = m * 2 ^ e * 2 ^ (-e) := by
      rw [mul_assoc, ← zpow_add₀ two_ne_zero, add_neg_cancel, zpow_zero, mul_one]
    rw [Int.cast_mul, Int.cast_natCast, zpow_of_nonneg (by omega), Int.cast_natCast]
    nth_rewrite 1 [hscale]
    exact cmp_mul_pos_right (by positivity) _ _

theorem ratio_pos {p : Parts} (h : 0 < p.significand) : 0 < p.ratio.1 := by
  rw [Parts.ratio, Nat.pow_eq]
  split
  · exact Nat.mul_pos h (Nat.two_pow_pos _)
  · exact h

theorem compare_nothing {n : Int} {p : Parts} (hp : p.significand = 0) :
    compare (n * (p.ratio.2 : Int)) (p.signed p.ratio.1) = compare n 0 := by
  have hnum : p.ratio.1 = 0 := by
    rw [Parts.ratio, hp]
    split <;> simp
  have hden : 0 < p.ratio.2 := by
    rw [Parts.ratio, Nat.pow_eq]
    split
    · exact Nat.one_pos
    · exact Nat.two_pow_pos _
  have hsigned : p.signed p.ratio.1 = 0 := by
    rw [hnum, Parts.signed]
    split <;> rfl
  rw [hsigned, ← cmp_eq_compare, ← cmp_eq_compare]
  simpa using cmp_mul_pos_right (Int.natCast_pos.2 hden) n 0

theorem compareWhole_eq {n : Int} {x : Float} (hx : IsNonneg x.toModel.unpack) :
    compareWhole n x = some (cmp ((n : ℚ) : WithTop ℚ) (amount x.toModel.unpack)) := by
  rw [compareWhole, parts?_eq, isNaN_eq]
  generalize hu : x.toModel.unpack = u at *
  rcases hx with s | (_ | hm)
  · have hzero : cmp (n : ℚ) 0 = compare n 0 := by
      rw [← Int.cast_zero, Int.cast_strictMono.cmp_map_eq, cmp_eq_compare]
    simp only [unpackedParts?, amount]
    rw [← WithTop.coe_zero, WithTop.coe_strictMono.cmp_map_eq, hzero]
    exact congrArg some (compare_nothing rfl)
  · simp only [unpackedParts?, amount, UnpackedFloat.isNaN, isMinus_eq_isNegative hu, isMinus]
    exact congrArg some ((cmp_eq_lt_iff _ _).2 (WithTop.coe_lt_top _)).symm
  · simp only [unpackedParts?, amount, isMinus, Parts.signed]
    rw [WithTop.coe_strictMono.cmp_map_eq]
    exact congrArg some (compare_ratio n _ _)

theorem isNonneg_of_le {x : Float} (h : le 0 (real x) = true) : IsNonneg x.toModel.unpack := by
  have horder : compareWhole 0 x = some .lt ∨ compareWhole 0 x = some .eq := by
    simpa [le, order?] using h
  rw [compareWhole, parts?_eq, isNaN_eq] at horder
  generalize hu : x.toModel.unpack = u at *
  cases u with
  | notANumber => simp [unpackedParts?, UnpackedFloat.isNaN] at horder
  | zero s => exact .zero s
  | infinity s =>
    cases s with
    | positive => exact .positive .infinity
    | negative =>
      simp [unpackedParts?, UnpackedFloat.isNaN, isMinus_eq_isNegative hu, isMinus] at horder
  | finite s m e hm =>
    cases s with
    | positive => exact .positive (.finite hm)
    | negative =>
      have hratio := ratio_pos (p := ⟨isMinus .negative, m, e⟩) hm
      have hless : compare (0 * ((⟨isMinus .negative, m, e⟩ : Parts).ratio.2 : Int))
          ((⟨isMinus .negative, m, e⟩ : Parts).signed
            (⟨isMinus .negative, m, e⟩ : Parts).ratio.1) = .gt := by
        rw [Int.zero_mul, Int.compare_eq_gt]
        show -((⟨isMinus .negative, m, e⟩ : Parts).ratio.1 : Int) < 0
        omega
      simp only [unpackedParts?, hless] at horder
      rcases horder with hlt | heq
      · cases hlt
      · cases heq

theorem lt_zero_real {x : Float} : lt 0 (real x) = true ↔ IsPositive x.toModel.unpack := by
  constructor
  · intro h
    have horder : compareWhole 0 x = some .lt := by simpa [lt, order?] using h
    have hnonneg : IsNonneg x.toModel.unpack := isNonneg_of_le (by simp [le, order?, horder])
    refine hnonneg.isPositive ?_
    rw [compareWhole_eq hnonneg, Option.some.injEq, cmp_eq_lt_iff] at horder
    simpa using horder
  · intro h
    have horder := compareWhole_eq (n := 0) (.positive h)
    rw [Int.cast_zero, WithTop.coe_zero, (cmp_eq_lt_iff _ _).2 (amount_pos h)] at horder
    show (compareWhole 0 x == some .lt) = true
    rw [horder]
    rfl

variable {q r s : Quantity} {n : Int} {x y : Float}

/-- How much a quantity that is not negative amounts to. -/
noncomputable def measure : Quantity → WithTop ℚ
  | whole n => (n : ℚ)
  | real x => amount x.toModel.unpack

theorem le_of_lt (h : q.lt r = true) : q.le r = true := by
  rw [le, Bool.or_eq_true]
  exact .inl h

theorem lt_iff_compare :
    x < y ↔ UnpackedFloat.compare x.toModel.unpack y.toModel.unpack = some .lt := by
  show decide (Float.Model.lt x.toModel y.toModel = true) = true ↔ _
  rw [decide_eq_true_iff, Float.Model.lt, UnpackedFloat.lt, beq_iff_eq]

theorem beq_iff_compare :
    (x == y) = true ↔ UnpackedFloat.compare x.toModel.unpack y.toModel.unpack = some .eq := by
  show Float.Model.beq x.toModel y.toModel = true ↔ _
  rw [Float.Model.beq, UnpackedFloat.beq, beq_iff_eq]

theorem order?_eq_cmp (hq : le 0 q = true) (hr : le 0 r = true) :
    q.order? r = some (cmp q.measure r.measure) := by
  cases q with
  | whole m =>
    cases r with
    | whole n =>
      rw [measure, measure, WithTop.coe_strictMono.cmp_map_eq, Int.cast_strictMono.cmp_map_eq,
        cmp_eq_compare]
      rfl
    | real y => exact compareWhole_eq (isNonneg_of_le hr)
  | real x =>
    cases r with
    | whole n =>
      rw [order?, compareWhole_eq (isNonneg_of_le hq), Option.map_some, cmp_swap]
      rfl
    | real y =>
      have hcompare := compare_eq_cmp (isNonneg_of_le hq) (isNonneg_of_le hr)
      have hswapped := compare_eq_cmp (isNonneg_of_le hr) (isNonneg_of_le hq)
      rw [← cmp_swap] at hswapped
      simp only [order?, gt_iff_lt, lt_iff_compare, beq_iff_compare, hcompare, hswapped, measure]
      cases cmp (amount x.toModel.unpack) (amount y.toModel.unpack) <;> rfl

theorem floatOfInt_pos (hn : 0 < n) (h : floatOfInt n = .ok x) : IsPositive x.toModel.unpack := by
  have hfloat : Binary.ofInt n = Binary.ofRatio n.natAbs 1 := if_neg (by omega)
  simp only [floatOfInt, hfloat] at h
  split at h
  next => cases h
  next hinf =>
    cases h
    exact isPositive_ofRatio Nat.one_pos (by omega) (by simpa using hinf)

theorem floatOfInt_nonneg (hn : 0 ≤ n) (h : floatOfInt n = .ok x) :
    IsNonneg x.toModel.unpack := by
  rcases Int.lt_or_eq_of_le hn with hpos | rfl
  · exact .positive (floatOfInt_pos hpos h)
  · cases h
    exact isNonneg_of_le (by decide +kernel)

theorem whole_pos : lt 0 (whole n) = true ↔ 0 < n := by
  show (some (compare 0 n) == some .lt) = true ↔ _
  rw [beq_iff_eq, Option.some.injEq, Int.compare_eq_lt]

theorem whole_nonneg : le 0 (whole n) = true ↔ 0 ≤ n := by
  have horder : le 0 (whole n) = true ↔ compare 0 n = .lt ∨ compare 0 n = .eq := by
    simp [le, order?]
  rw [horder, Int.compare_eq_lt, compare_eq_iff_eq]
  omega

theorem toFloat_pos (hq : lt 0 q = true) (h : q.toFloat = .ok x) : IsPositive x.toModel.unpack := by
  cases q with
  | whole n => exact floatOfInt_pos (whole_pos.1 hq) h
  | real y =>
    cases h
    exact lt_zero_real.1 hq

theorem toFloat_nonneg (hq : le 0 q = true) (h : q.toFloat = .ok x) :
    IsNonneg x.toModel.unpack := by
  cases q with
  | whole n => exact floatOfInt_nonneg (whole_nonneg.1 hq) h
  | real y =>
    cases h
    exact isNonneg_of_le hq

theorem combine_cases {f : Int → Int → Int} {g : Float → Float → Float}
    (h : combine f g q r = .ok s) :
    (∃ m n, q = whole m ∧ r = whole n ∧ s = whole (f m n)) ∨
      ∃ x y, q.toFloat = .ok x ∧ r.toFloat = .ok y ∧ s = real (g x y) := by
  have hfloats : (do return real (g (← q.toFloat) (← r.toFloat))) = Except.ok s →
      ∃ x y, q.toFloat = .ok x ∧ r.toFloat = .ok y ∧ s = real (g x y) := by
    intro h
    obtain ⟨x, hx, h⟩ := Fallible.bind_eq_ok.1 h
    obtain ⟨y, hy, h⟩ := Fallible.bind_eq_ok.1 h
    cases h
    exact ⟨x, y, hx, hy, rfl⟩
  cases q with
  | whole m =>
    cases r with
    | whole n =>
      cases h
      exact .inl ⟨m, n, rfl, rfl, rfl⟩
    | real y => exact .inr (hfloats h)
  | real x => exact .inr (hfloats h)

theorem pos_add (hq : lt 0 q = true) (hr : le 0 r = true) (h : q.add r = .ok s) :
    lt 0 s = true := by
  rcases combine_cases h with ⟨m, n, rfl, rfl, rfl⟩ | ⟨x, y, hx, hy, rfl⟩
  · have hm := whole_pos.1 hq
    have hn := whole_nonneg.1 hr
    exact whole_pos.2 (by omega)
  · exact lt_zero_real.2 (isPositive_add (toFloat_pos hq hx) (toFloat_nonneg hr hy))

def Faithful : Quantity → Prop
  | whole n => ∃ x, floatOfInt n = .ok x ∧ (whole n).eq (real x) = true
  | real _ => True

/-- Nothing is lost where one is set against the other: both are integers, or floats hold both. -/
def Commensurate (q r : Quantity) : Prop :=
  (∃ m n, q = whole m ∧ r = whole n) ∨ q.Faithful ∧ r.Faithful

theorem amount_of_faithful (hq : le 0 q = true) (hfaithful : q.Faithful) (h : q.toFloat = .ok x) :
    amount x.toModel.unpack = q.measure := by
  cases q with
  | real y =>
    cases h
    rfl
  | whole n =>
    obtain ⟨y, hy, heq⟩ := hfaithful
    obtain rfl : y = x := Except.ok.inj (hy.symm.trans h)
    have horder : compareWhole n y = some .eq := by simpa [eq, order?] using heq
    rw [compareWhole_eq (toFloat_nonneg hq h), Option.some.injEq, cmp_eq_eq_iff] at horder
    exact horder.symm

theorem measure_lt_of_le_eq_false (hq : le 0 q = true) (hr : le 0 r = true)
    (h : q.le r = false) : r.measure < q.measure := by
  rw [le, order?_eq_cmp hq hr] at h
  rw [← cmp_eq_gt_iff]
  revert h
  cases cmp q.measure r.measure <;> decide

theorem pos_sub (hq : lt 0 q = true) (hr : le 0 r = true) (hqr : Commensurate q r)
    (hless : q.le r = false) (h : q.sub r = .ok s) : lt 0 s = true := by
  have horder := measure_lt_of_le_eq_false (le_of_lt hq) hr hless
  rcases combine_cases h with ⟨m, n, rfl, rfl, rfl⟩ | ⟨x, y, hx, hy, hs⟩
  · have hmore : (n : ℚ) < m := WithTop.coe_lt_coe.1 horder
    have hmore : n < m := by exact_mod_cast hmore
    exact whole_pos.2 (by omega)
  · rcases hqr with ⟨m, n, rfl, rfl⟩ | ⟨hfaithful, hfaithful'⟩
    · cases h
      cases hs
    · rw [← amount_of_faithful (le_of_lt hq) hfaithful hx,
        ← amount_of_faithful hr hfaithful' hy] at horder
      rw [hs]
      exact lt_zero_real.2 (isPositive_sub (toFloat_pos hq hx) (toFloat_nonneg hr hy) horder)

theorem pos_min (hq : lt 0 q = true) (hr : lt 0 r = true) : lt 0 (q.min r) = true := by
  rw [min]
  split
  · exact hr
  · exact hq

end Skirmish.Quantity

import Skirmish.Proofs.Fallible
import Skirmish.Proofs.Number.Binary

namespace Skirmish.Quantity

variable {q r : Quantity} {x : Float}

def Fits (q : Quantity) : Prop := ∃ x, q.toFloat = .ok x

instance (q : Quantity) : Decidable q.Fits :=
  decidable_of_iff (q.toFloat.isOk = true)
    ⟨Fallible.exists_eq_ok, by
      rintro ⟨x, hx⟩
      rw [hx]
      rfl⟩

/-- The float nearest to it, which is infinite where none can hold it. -/
def nearest : Quantity → Float
  | whole n => Binary.ofInt n
  | real x => x

theorem toFloat_of_fits (h : q.Fits) : q.toFloat = .ok q.nearest := by
  obtain ⟨x, hx⟩ := h
  cases q with
  | real y => rfl
  | whole n =>
    have hfinite : ¬(Binary.ofInt n).isInf = true := by
      intro hinf
      simp [toFloat, floatOfInt, hinf] at hx
    exact if_neg hfinite

theorem isInf_of_isFinite (h : x.isFinite = true) : x.isInf = false := by
  rw [Float.isInf, Float.Model.isInf]
  rw [Float.isFinite, Float.Model.isFinite] at h
  cases hx : x.toModel.unpack with
  | infinity s =>
    rw [hx] at h
    cases h
  | _ => rfl

theorem exists_floor : (∃ n, (real x).floor = .ok n) ↔ x.isFinite = true := by
  rw [← Binary.isSome_parts?, floor, wholePart]
  cases Binary.parts? x <;> simp

theorem isFinite_of_isNaN (h : x.isNaN = true) : x.isFinite = false := by
  rw [Float.isNaN, Float.Model.isNaN, Float.Model.UnpackedFloat.isNaN_iff] at h
  rw [Float.isFinite, Float.Model.isFinite, h]
  rfl

theorem floor_eq_undefined : (real x).floor = .error .undefined ↔ x.isNaN = true := by
  rw [floor, wholePart]
  split
  next p hp =>
    have hfinite : x.isFinite = true := by rw [← Binary.isSome_parts?, hp]; rfl
    refine ⟨fun h => (by cases h), fun hnan => ?_⟩
    rw [isFinite_of_isNaN hnan] at hfinite
    cases hfinite
  next =>
    cases x.isNaN <;> simp

theorem combine_real_right (f : Int → Int → Int) (g : Float → Float → Float) :
    combine f g q (real x) = q.toFloat >>= fun y => .ok (real (g y x)) := by
  cases q <;> rfl

theorem combine_real_left (f : Int → Int → Int) (g : Float → Float → Float) :
    combine f g (real x) q = q.toFloat >>= fun y => .ok (real (g x y)) := rfl

theorem one_le_of_max {n : Int} (h : max 1 q = whole n) : 1 ≤ n := by
  rw [max] at h
  split at h
  next hlt =>
    subst h
    have hcompare : compare 1 n = .lt := by simpa [lt, order?] using hlt
    exact Int.le_of_lt (compare_lt_iff_lt.1 hcompare)
  next =>
    cases h
    exact Int.le_refl 1

theorem exists_div_max : ∃ x, div 100 (max 1 q) = .ok x := by
  cases hguard : max 1 q with
  | real y => exact ⟨_, rfl⟩
  | whole n =>
    have hn : 1 ≤ n.natAbs := by
      have := one_le_of_max hguard
      omega
    have hbound : 100 ≤ n.natAbs * Binary.greatest := by
      calc 100 ≤ Binary.greatest := by decide +kernel
        _ ≤ n.natAbs * Binary.greatest := Nat.le_mul_of_pos_left _ hn
    have hinf : (Binary.ofRatio 100 n.natAbs).isInf = false :=
      isInf_of_isFinite (Binary.isFinite_ofRatio hbound)
    show ∃ x, div (whole 100) (whole n) = .ok x
    simp [div, hinf]

theorem exists_add_hundred : ∃ r, add 100 q = .ok r := by
  cases q with
  | whole n => exact ⟨_, rfl⟩
  | real y => exact ⟨_, rfl⟩

open Fallible

abbrev OnlyOverflows {α : Type} (r : Result α) : Prop := FailsOnly (· = .overflow) r

theorem toFloat_overflows (q : Quantity) : OnlyOverflows q.toFloat := by
  cases q with
  | whole n =>
    intro cause h
    simp only [toFloat, floatOfInt] at h
    split at h <;> cases h
    rfl
  | real x => exact .ok x

theorem toFloat_of_not_fits (h : ¬q.Fits) : q.toFloat = .error .overflow := by
  cases hq : q.toFloat with
  | ok x => exact absurd ⟨x, hq⟩ h
  | error cause => rw [toFloat_overflows q cause hq]

theorem combine_overflows (f : Int → Int → Int) (g : Float → Float → Float) (q r : Quantity) :
    OnlyOverflows (combine f g q r) := by
  rw [combine.eq_def]
  split
  · exact .ok _
  · exact (toFloat_overflows q).bind fun x _ => (toFloat_overflows r).bind fun y _ => .ok _

theorem add_overflows (q r : Quantity) : OnlyOverflows (q.add r) := combine_overflows _ _ q r

theorem sub_overflows (q r : Quantity) : OnlyOverflows (q.sub r) := combine_overflows _ _ q r

theorem div_overflows (q r : Quantity) : OnlyOverflows (q.div r) := by
  rw [div.eq_def]
  split
  · intro cause h
    dsimp only at h
    split at h <;> cases h
    rfl
  · exact (toFloat_overflows q).bind fun x _ => (toFloat_overflows r).bind fun y _ => .ok _

theorem shown_overflows (q : Quantity) : OnlyOverflows q.shown := by
  intro cause h
  cases hq : q.toFloat with
  | ok x => simp [shown, hq] at h
  | error e =>
    have he := toFloat_overflows q e hq
    simp only [shown, hq] at h
    cases h
    exact he

end Skirmish.Quantity

import Skirmish.Proofs.Chance
import Skirmish.Proofs.Number.Sums

namespace Skirmish

namespace Quantity

variable {q r : Quantity}

theorem lt_of_not_le (h : q.le r = false) (hq : q.isNaN = false) (hr : r.isNaN = false) :
    r.lt q = true := by
  by_contra hnot
  rw [Bool.not_eq_true] at hnot
  rw [le_of_not_lt hnot hr hq] at h
  cases h

theorem not_lt_of_le (h : q.le r = true) : r.lt q = false := by
  rw [Bool.eq_false_iff]
  intro hless
  have hself := lt_of_le_of_lt h hless
  obtain ⟨a, b, ha, hb, hab⟩ := lt_iff.1 hself
  obtain rfl : a = b := Option.mem_unique ha hb
  exact lt_irrefl a hab

end Quantity

namespace Binary

open Float.Model UnpackedFloat

theorem isNaN_mul {x y : Float} (h : y.isNaN = true) : (x * y).isNaN = true := by
  have hnan : (Float.Model.pack .notANumber).unpack.isNaN = true := rfl
  rw [isNaN_eq, UnpackedFloat.isNaN_iff] at h
  rw [isNaN_eq]
  show (Float.Model.pack
    (UnpackedFloat.mul .binary64 x.toModel.unpack y.toModel.unpack)).unpack.isNaN = true
  rw [h]
  generalize x.toModel.unpack = u
  cases u <;> exact hnan

end Binary

namespace Chance

variable {ε α β : Type} {P : α → Prop} {m n : Nat}

/-- A success yields what is said of it, after so many draws. -/
def Spends (n : Nat) (x : Roll ε α) (P : α → Prop) : Prop :=
  ∀ dice a dice', x.run.run dice = (.ok a, dice') → P a ∧ dice' = dice.after n

theorem spends_pure {a : α} (h : P a) : Spends 0 (pure a : Roll ε α) P := by
  intro dice a' dice' hrun
  cases hrun
  exact ⟨h, rfl⟩

theorem Spends.bind {x : Roll ε α} {f : α → Roll ε β} {R : β → Prop} (hx : Spends m x P)
    (hf : ∀ a, P a → Spends n (f a) R) : Spends (m + n) (x >>= f) R := by
  intro dice b dice' hrun
  obtain ⟨a, between, hfirst, hrun⟩ := run_bind_eq_ok hrun
  obtain ⟨ha, rfl⟩ := hx dice a between hfirst
  obtain ⟨hb, rfl⟩ := hf a ha _ b dice' hrun
  exact ⟨hb, Dice.after_after dice m n⟩

theorem Spends.adapt {ε' : Type} {x : Roll ε α} (hx : Spends n x P) (f : ε → ε') :
    Spends n (ExceptT.adapt f x) P :=
  fun dice a dice' hrun => hx dice a dice' (run_adapt_eq_ok hrun)

theorem Spends.and {x : Roll ε α} {Q : α → Prop} (hx : Spends n x P) (h : Yields x Q) :
    Spends n x fun a => P a ∧ Q a := by
  intro dice a dice' hrun
  obtain ⟨ha, hdice⟩ := hx dice a dice' hrun
  exact ⟨⟨ha, h dice a dice' hrun⟩, hdice⟩

theorem Spends.mono {x : Roll ε α} {Q : α → Prop} (hx : Spends n x P) (h : ∀ a, P a → Q a) :
    Spends n x Q := by
  intro dice a dice' hrun
  obtain ⟨ha, hdice⟩ := hx dice a dice' hrun
  exact ⟨h a ha, hdice⟩

theorem spends_unit : Spends 1 (unit : Roll ε Float) fun _ => True := by
  intro dice a dice' hrun
  cases hrun
  exact ⟨trivial, Dice.afterDraw_eq dice⟩

def Still (x : Roll ε α) : Prop := ∀ dice, (x.run.run dice).2 = dice

theorem still_pure (a : α) : Still (pure a : Roll ε α) := fun _ => rfl

theorem still_lift (x : Except ε α) : Still (liftM x : Roll ε α) := by
  intro dice
  cases x <;> rfl

theorem Still.bind {x : Roll ε α} {f : α → Roll ε β} (hx : Still x) (hf : ∀ a, Still (f a)) :
    Still (x >>= f) := by
  intro dice
  have hdice := hx dice
  rw [ExceptT.run_bind, StateT.run_bind]
  cases hrun : x.run.run dice with
  | mk outcome between =>
    rw [hrun] at hdice
    obtain rfl : between = dice := hdice
    cases outcome with
    | error e => rfl
    | ok a => exact hf a between

theorem Still.spends {x : Roll ε α} (hx : Still x) : Spends 0 x fun _ => True := by
  intro dice a dice' hrun
  have hdice := hx dice
  rw [hrun] at hdice
  exact ⟨trivial, hdice⟩

section

variable {span : Quantity} {dice dice' : Dice} {k : Int}

/-- How many numbers a whole number below a span takes. -/
def cost (span : Quantity) : Nat := if Quantity.lt 0 span then 1 else 0

/-- The whole number below a span that a drawn number comes to. -/
def scaled (span : Quantity) (x : Float) : Quantity.Result Int :=
  if Quantity.lt 0 span then (Quantity.real x).mul span >>= Quantity.floor else .ok 0

theorem mul_floor_ne_ok {x : Float} (hnan : span.isNaN = true) :
    ((Quantity.real x).mul span >>= Quantity.floor) ≠ .ok k := by
  cases span with
  | whole n => cases hnan
  | real y =>
    have hfloor := Quantity.floor_eq_undefined.2 (Binary.isNaN_mul (x := x) hnan)
    show (Quantity.real (x * y)).floor ≠ _
    rw [hfloor]
    rintro ⟨⟩

theorem run_below (h : (below span).run.run dice = (.ok k, dice')) :
    scaled span dice.next = .ok k ∧ dice' = dice.after (cost span) := by
  rw [below] at h
  cases hspan : span.le 0 with
  | true =>
    rw [hspan] at h
    cases h
    simp [scaled, cost, Quantity.not_lt_of_le hspan]
  | false =>
    rw [hspan] at h
    obtain ⟨x, between, hunit, h⟩ := run_bind_eq_ok h
    cases hunit
    obtain ⟨product, between, hproduct, h⟩ := run_bind_eq_ok h
    obtain ⟨hmul, rfl⟩ := run_lift_eq_ok hproduct
    obtain ⟨hfloor, rfl⟩ := run_lift_eq_ok h
    have hk : ((Quantity.real dice.next).mul span >>= Quantity.floor) = .ok k :=
      Fallible.bind_eq_ok.2 ⟨product, hmul, hfloor⟩
    have hnan : span.isNaN = false := by
      rw [Bool.eq_false_iff]
      exact fun hnan => mul_floor_ne_ok hnan hk
    simp [scaled, cost, Quantity.lt_of_not_le hspan hnan rfl, hk, Dice.afterDraw_eq]

end

end Chance

end Skirmish

import Skirmish.Modifier.Stack
import Skirmish.Proofs.Fallible
import Skirmish.Proofs.Table

namespace Skirmish.Modifier.Stack

variable {t t' : Totals} {e : Effect × Int} {es : List (Effect × Int)} {isFlat : Bool}
  {stat : String} {q : Quantity}

def effectsOn (stat : String) (isFlat : Bool) (es : List (Effect × Int)) : List (Effect × Int) :=
  es.filter fun e => e.1.stat = stat ∧ e.1.mode.isFlat = isFlat

/-- What the effects come to on top of a quantity, each as often as it counts. -/
def tally (q : Quantity) : List (Effect × Int) → Quantity.Result Quantity
  | [] => .ok q
  | e :: es => do
    let value ← e.1.value.mul (.whole e.2)
    tally (← q.add value) es

theorem effectsOn_cons_self :
    effectsOn e.1.stat e.1.mode.isFlat (e :: es) =
      e :: effectsOn e.1.stat e.1.mode.isFlat es := by
  simp [effectsOn]

theorem effectsOn_cons_of_ne (h : ¬(e.1.stat = stat ∧ e.1.mode.isFlat = isFlat)) :
    effectsOn stat isFlat (e :: es) = effectsOn stat isFlat es :=
  List.filter_cons_of_neg (by simpa using h)

namespace Totals

def sum (t : Totals) (isFlat : Bool) (stat : String) : Quantity :=
  if isFlat then t.flat.getD stat 0 else t.percent.getD stat 0

def put (t : Totals) (isFlat : Bool) (stat : String) (q : Quantity) : Totals :=
  if isFlat then { t with flat := t.flat.insert stat q }
  else { t with percent := t.percent.insert stat q }

theorem sum_put {isFlat' : Bool} {stat' : String} :
    (t.put isFlat stat q).sum isFlat' stat' =
      if stat = stat' ∧ isFlat = isFlat' then q else t.sum isFlat' stat' := by
  by_cases hstat : stat = stat'
  · subst hstat
    cases isFlat <;> cases isFlat' <;> simp [put, sum, Table.getD_insert]
  · cases isFlat <;> cases isFlat' <;>
      simp [put, sum, Table.getD_insert, hstat, Ne.symm hstat]

theorem add_eq : t.add e.1 e.2 = (do
    let value ← e.1.value.mul (.whole e.2)
    let sum ← (t.sum e.1.mode.isFlat e.1.stat).add value
    return t.put e.1.mode.isFlat e.1.stat sum) := by
  rw [add]
  cases e.1.mode.isFlat <;> rfl

end Totals

/-- Gathered along with all others, the effects on a stat come to their own tally. -/
theorem tally_effectsOn (h : total t es = .ok t') :
    tally (t.sum isFlat stat) (effectsOn stat isFlat es) = .ok (t'.sum isFlat stat) := by
  induction es generalizing t with
  | nil =>
      cases h
      rfl
  | cons e es ih =>
      obtain ⟨between, hadd, htotal⟩ := Fallible.bind_eq_ok.1 h
      rw [Totals.add_eq] at hadd
      obtain ⟨value, hvalue, hadd⟩ := Fallible.bind_eq_ok.1 hadd
      obtain ⟨sum, hsum, hput⟩ := Fallible.bind_eq_ok.1 hadd
      cases hput
      have hrest := ih htotal
      rw [Totals.sum_put] at hrest
      by_cases hconcerns : e.1.stat = stat ∧ e.1.mode.isFlat = isFlat
      · rw [if_pos hconcerns] at hrest
        obtain ⟨rfl, rfl⟩ := hconcerns
        rw [effectsOn_cons_self, tally, hvalue, Fallible.ok_bind, hsum, Fallible.ok_bind]
        exact hrest
      · rw [if_neg hconcerns] at hrest
        rwa [effectsOn_cons_of_ne hconcerns]

theorem tally_effectsOn_empty (h : total {} es = .ok t) :
    tally 0 (effectsOn stat isFlat es) = .ok (t.sum isFlat stat) := by
  rw [← tally_effectsOn h]
  cases isFlat <;> rfl

end Skirmish.Modifier.Stack

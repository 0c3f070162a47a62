import Skirmish.Number.Quantity
import Skirmish.Table

namespace Skirmish.Modifier

/-- Any mode other than `flat` works as a percentage. -/
inductive Mode where
  | flat | percent
  | other (name : String) (unknown : name ≠ "flat" ∧ name ≠ "percent")
  deriving DecidableEq, Repr

namespace Mode

def name : Mode → String
  | flat => "flat"
  | percent => "percent"
  | other s _ => s

def ofName (s : String) : Mode :=
  if hflat : s = "flat" then flat
  else if hpercent : s = "percent" then percent
  else other s ⟨hflat, hpercent⟩

theorem ofName_name (m : Mode) : ofName m.name = m := by
  cases m with
  | flat | percent => rfl
  | other s unknown => rw [name, ofName, dif_neg unknown.1, dif_neg unknown.2]

def isFlat (m : Mode) : Bool := m = flat

end Mode

structure Effect where
  stat : String
  mode : Mode
  value : Quantity

def raised (value percent : Quantity) : Quantity.Result Quantity := do
  let share ← percent.div 100
  let factor ← Quantity.add 1 (.real share)
  value.mul factor

namespace Effect

def apply (e : Effect) (base : Quantity) : Quantity.Result Quantity :=
  if e.mode.isFlat then base.add e.value else raised base e.value

structure Sums where
  flat : Quantity := .real 0
  percent : Quantity := .real 0

def Sums.add (s : Sums) (e : Effect) : Quantity.Result Sums := do
  if e.mode.isFlat then return { s with flat := ← s.flat.add e.value }
  else return { s with percent := ← s.percent.add e.value }

/-- The effects of one stat that its sums amount to; a zero sum gives none. -/
def Sums.effects (stat : String) (s : Sums) : List Effect :=
  (if s.flat.isZero then [] else [⟨stat, .flat, s.flat⟩]) ++
    (if s.percent.isZero then [] else [⟨stat, .percent, s.percent⟩])

def collect (sums : Table Sums) : List Effect → Quantity.Result (Table Sums)
  | [] => .ok sums
  | e :: es => do
    let s ← (sums.getD e.stat {}).add e
    collect (sums.insert e.stat s) es

/-- One flat and one percent effect at most for each stat, in the order of first mention. -/
def merge (lists : List (List Effect)) : Quantity.Result (List Effect) := do
  let sums ← lists.foldlM collect {}
  return sums.entries.flatMap fun e => e.2.effects e.1

end Effect

end Skirmish.Modifier

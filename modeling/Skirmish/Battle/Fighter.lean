import Skirmish.Halt
import Skirmish.Modifier.Stack

namespace Skirmish

structure Fighter where
  id : String
  name : String
  isPlayer : Bool
  baseStats : Stat.Block
  stats : Stat.Block
  hp : Quantity
  mp : Quantity
  maxHp : Quantity
  maxMp : Quantity
  skills : List String := []
  modifiers : Modifier.Stack := {}
  isDefending : Bool := false
  isAlive : Bool := true
  level : Quantity := 1

abbrev Roster := Table Fighter

namespace Fighter

def share (part whole : Quantity) : Quantity.Result Float := do
  return (← part.div whole) * 100

def hpPercent (f : Fighter) : Quantity.Result Float :=
  if f.maxHp.le 0 then .ok 0 else share f.hp f.maxHp

/-- Without a positive maximum nothing is missing. -/
def mpPercent (f : Fighter) : Quantity.Result Float :=
  if f.maxMp.le 0 then .ok 100 else share f.mp f.maxMp

def withHp (f : Fighter) (hp : Quantity) : Fighter := { f with hp }

abbrev Result := Except (Halt ArithmeticError Fighter)

def takeDamage (f : Fighter) (amount : Quantity) : Quantity.Result Fighter := do
  let hp := Quantity.max 0 (← f.hp.sub amount)
  return { f with hp, isAlive := f.isAlive && !hp.le 0 }

def fell (before after : Fighter) : Bool := before.isAlive && !after.isAlive

/-- Gains life up to the maximum; beside the fighter stands what was gained. -/
def restoreHp (f : Fighter) (amount : Quantity) : Result (Fighter × Quantity) := do
  let hp := f.maxHp.min (← leaving f (f.hp.add amount))
  return ({ f with hp }, ← leaving { f with hp } (hp.sub f.hp))

def restoreMp (f : Fighter) (amount : Quantity) : Result (Fighter × Quantity) := do
  let mp := f.maxMp.min (← leaving f (f.mp.add amount))
  return ({ f with mp }, ← leaving { f with mp } (mp.sub f.mp))

def addModifier (f : Fighter) (definition : Modifier.Definition) (source : String) : Fighter :=
  { f with modifiers := f.modifiers.add definition source }

end Fighter

namespace Roster

def players (r : Roster) : List Fighter := r.values.filter Fighter.isPlayer

def enemies (r : Roster) : List Fighter := r.values.filter fun f => !f.isPlayer

def living (fs : List Fighter) : List Fighter := fs.filter Fighter.isAlive

def isAlive (r : Roster) (id : String) : Bool := ((r.get? id).map Fighter.isAlive).getD false

abbrev Result := Except (Halt ArithmeticError Roster)

def halted (r : Roster) (h : Halt ArithmeticError Fighter) : Halt ArithmeticError Roster :=
  ⟨h.cause, r.insert h.left.id h.left⟩

end Roster

end Skirmish

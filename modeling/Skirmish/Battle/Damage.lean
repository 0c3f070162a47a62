import Skirmish.Battle.Fighter
import Skirmish.Chance
import Skirmish.Formula.Eval
import Skirmish.Stat.Definition

namespace Skirmish.Damage

inductive Kind where
  | physical | magic
  deriving DecidableEq, Repr

structure Formulas where
  physical : String
  magic : String
  critical : String

namespace Formulas

def standard : Formulas where
  physical := "Attack * SkillPower / 100 * (100 / (100 + EnemyDef)) * (1 + Variance * 0.1)"
  magic := "MagicPower * SkillPower / 100 * (100 / (100 + EnemyRes)) * (1 + Variance * 0.1)"
  critical := "CritRate"

def ofCombat : Option Stat.CombatFormulas → Formulas
  | none => standard
  | some c => ⟨c.physicalDamage, c.magicDamage, c.criticalCheck⟩

def forKind (f : Formulas) : Kind → String
  | .physical => f.physical
  | .magic => f.magic

end Formulas

def attackerDefaults : Stat.Block := Table.ofList [
  ("Attack", 10), ("MagicPower", 10), ("Strength", 10), ("Intelligence", 10), ("Dexterity", 10),
  ("Luck", 10), ("CritRate", 5), ("CritDamage", 150), ("Speed", 10)]

def defenderDefault : Quantity := 10

def insertAll (block : Stat.Block) (entries : List (String × Quantity)) : Stat.Block :=
  entries.foldl (fun b e => b.insert e.1 e.2) block

def context (attacker defender : Fighter) (power variance random : Quantity) : Stat.Block :=
  let defense := defender.stats.getD "Defense" defenderDefault
  let resistance := defender.stats.getD "MagicResist" defenderDefault
  insertAll (insertAll attackerDefaults attacker.stats.entries) [
    ("Level", attacker.level),
    ("EnemyDef", defense),
    ("EnemyRes", resistance),
    ("EnemyDefense", defense),
    ("EnemyMagicResist", resistance),
    ("EnemySpeed", defender.stats.getD "Speed" 0),
    ("EnemyEvasion", defender.stats.getD "Evasion" 0),
    ("SkillPower", power),
    ("Variance", variance),
    ("IsCritical", 0),
    ("Random", random)]

def compute (formula : String) (c : Stat.Block) : Quantity.Result (Option Float) :=
  match Formula.compute formula (.ofBlock c) with
  | .ok x => .ok (some x)
  | .error (.arithmetic cause) => .error cause
  | .error _ => .ok none

def orElse (q default : Quantity) : Quantity := if q.isZero then default else q

def offense (kind : Kind) (c : Stat.Block) : Quantity :=
  match kind with
  | .physical => c.getD "Attack" 0
  | .magic => c.getD "MagicPower" 0

def protection (kind : Kind) (c : Stat.Block) : Quantity :=
  match kind with
  | .physical => c.getD "EnemyDef" 0
  | .magic => c.getD "EnemyRes" 0

/-- The fixed rule: offense reduced by protection, in proportion to the power. -/
def fallback (kind : Kind) (power : Quantity) (c : Stat.Block) : Quantity.Result Float := do
  let guard := Quantity.max 1 (← Quantity.add 100 (protection kind c))
  let reduced ← (offense kind c).mul (.real (← Quantity.div 100 guard))
  let raw ← (← reduced.mul power).div 100
  return if raw.isFinite then raw else 1

def rawDamage (formula : String) (kind : Kind) (power : Quantity) (c : Stat.Block) :
    Quantity.Result Float := do
  match ← compute formula c with
  | some x => if x.isFinite then return x else fallback kind power c
  | none => fallback kind power c

def isCritical (formula : String) (c : Stat.Block) (roll : Float) : Quantity.Result Bool := do
  match ← compute formula c with
  | some rate => return roll < rate
  | none => return (Quantity.real roll).lt (orElse (c.getD "CritRate" 0) 5)

def criticalFactor (c : Stat.Block) : Quantity.Result Float :=
  (orElse (c.getD "CritDamage" 0) 150).div 100

structure Hit where
  damage : Int
  isCritical : Bool
  rawDamage : Int
  mitigated : Int

def resolve (f : Formulas) (kind : Kind) (power : Quantity) (c : Stat.Block) (roll : Float) :
    Quantity.Result Hit := do
  let critical ← isCritical f.critical c roll
  let c := c.insert "IsCritical" (if critical then 1 else 0)
  let plain ← rawDamage (f.forKind kind) kind power c
  let raw ← if critical then (plain * ·) <$> criticalFactor c else pure plain
  let whole ← (Quantity.real raw).floor
  let damage := max 1 whole
  let full ← (Quantity.real (← (← (offense kind c).mul power).div 100)).floor
  return ⟨damage, critical, whole, max 0 (full - damage)⟩

def calculate (f : Formulas) (attacker defender : Fighter) (kind : Kind) (power : Quantity) :
    Roll ArithmeticError Hit := do
  let variance ← Chance.variance
  let roll ← Chance.percent
  let random ← Chance.unit
  resolve f kind power (context attacker defender power (.real variance) (.real random)) roll

def healingMagic (healer : Fighter) : Quantity :=
  healer.stats.getD "MagicPower" (healer.stats.getD "Intelligence" 10)

/-- The base and half the magic power, give or take a tenth. -/
def healing (healer : Fighter) (base : Quantity) : Roll ArithmeticError Int := do
  let x ← Chance.unit
  let share ← (healingMagic healer).mul (.real 0.5)
  let amount ← (← base.add share).mul (.real (0.9 + x * 0.2))
  amount.floor

structure Preview where
  low : Int
  high : Int
  critical : Int

def atLeastOne (x : Float) : Quantity.Result Int := do
  return max 1 (← (Quantity.real x).floor)

def formulaBounds (formula : String) (low high : Stat.Block) :
    Quantity.Result (Option (Int × Int)) :=
  let attempt : Formula.Result (Int × Int) := do
    let a ← Formula.arithmetic (atLeastOne (← Formula.compute formula (.ofBlock low)))
    let b ← Formula.arithmetic (atLeastOne (← Formula.compute formula (.ofBlock high)))
    return (a, b)
  match attempt with
  | .ok r => .ok (some r)
  | .error (.arithmetic .undefined) => .error .undefined
  | .error _ => .ok none

def preview (f : Formulas) (attacker defender : Fighter) (kind : Kind) (power : Quantity) :
    Quantity.Result Preview := do
  let low := context attacker defender power (-1 : Quantity) 0
  let high := context attacker defender power 1 0
  let (a, b) ← match ← formulaBounds (f.forKind kind) low high with
    | some r => pure r
    | none => do
      let base ← fallback kind power low
      pure (← atLeastOne (base * 0.9), ← atLeastOne (base * 1.1))
  let average ← (Quantity.whole (a + b)).div 2
  let rate ← (orElse (low.getD "CritRate" 0) 5).div 100
  let factor ← criticalFactor low
  let critical ← (Quantity.real (average * (1 - rate) + average * factor * rate)).floor
  return ⟨a, b, critical⟩

end Skirmish.Damage

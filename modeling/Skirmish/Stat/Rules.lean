import Skirmish.Formula.Eval
import Skirmish.Stat.Block
import Skirmish.Stat.Definition

namespace Skirmish.Stat

inductive FormulaPlace where
  | derived (id : String)
  | physicalDamage | magicDamage | criticalCheck | turnOrder
  deriving DecidableEq, Repr

def FormulaPlace.label : FormulaPlace → String
  | derived id => "derived stat '" ++ id ++ "'"
  | physicalDamage => "combat formula 'physical_damage'"
  | magicDamage => "combat formula 'magic_damage'"
  | criticalCheck => "combat formula 'critical_check'"
  | turnOrder => "combat formula 'turn_order'"

inductive ConfigError where
  | invalidFormula (place : FormulaPlace) (cause : Formula.Error)
  | unknownStat (place : FormulaPlace) (name : String)
  deriving DecidableEq, Repr

def ConfigError.message : ConfigError → String
  | invalidFormula place cause => "Invalid formula for " ++ place.label ++ ": " ++ cause.message
  | unknownStat place name => place.label ++ " references unknown stat '" ++ name ++ "'"

structure Rules where
  primary : List Primary
  derived : List Derived
  combat : CombatFormulas

def combatNames : List String := ["EnemyDef", "EnemyRes", "EnemySpeed", "EnemyEvasion", "Level"]

def checkFormula (place : FormulaPlace) (formula : String) (available : List String) :
    Except ConfigError Unit :=
  match Formula.parse formula with
  | .error e => .error (.invalidFormula place e)
  | .ok e =>
    match e.distinctNames.find? fun n => !available.contains n with
    | some n => .error (.unknownStat place n)
    | none => .ok ()

def checkDerived (available : List String) : List Derived → Except ConfigError (List String)
  | [] => .ok available
  | d :: ds => do
    checkFormula (.derived d.id) d.formula available
    checkDerived (d.id :: available) ds

namespace Rules

def ofConfig (c : Config) : Except ConfigError Rules := do
  let combat := c.combat.getD .standard
  let known ← checkDerived ("Level" :: c.primary.map Primary.id) c.derived
  let names := combatNames ++ known
  checkFormula .physicalDamage combat.physicalDamage names
  checkFormula .magicDamage combat.magicDamage names
  checkFormula .criticalCheck combat.criticalCheck names
  checkFormula .turnOrder combat.turnOrder names
  return ⟨c.primary, c.derived, combat⟩

def defaultBlock (r : Rules) : Block :=
  Table.ofList (r.primary.map fun s => (s.id, s.default))

def deriveFrom (context stats : Block) : List Derived → Formula.Result Block
  | [] => .ok stats
  | d :: ds => do
    let x ← Formula.compute d.formula (.ofBlock context)
    let n ← Formula.arithmetic (Quantity.real x).floor
    deriveFrom (context.insert d.id (.whole n)) (stats.insert d.id (.whole n)) ds

def derivedStats (r : Rules) (primary : Block) (level : Quantity) : Formula.Result Block :=
  deriveFrom (primary.insert "Level" level) {} r.derived

def completeStats (r : Rules) (primary : Block) (level : Quantity) : Formula.Result Block := do
  let derived ← r.derivedStats primary level
  return derived.entries.foldl (fun b e => b.insert e.1 e.2) (primary.insert "Level" level)

def damageStats (attacker defender : Block) : Block :=
  (((attacker.insert "EnemyDef" (defender.getD "Defense" 0)).insert
    "EnemyRes" (defender.getD "MagicResist" 0)).insert
    "EnemySpeed" (defender.getD "Speed" 0)).insert
    "EnemyEvasion" (defender.getD "Evasion" 0)

def damage (formula : String) (attacker defender : Block) : Formula.Result Int := do
  let x ← Formula.compute formula (.ofBlock (damageStats attacker defender))
  let n ← Formula.arithmetic (Quantity.real x).floor
  return max 1 n

def physicalDamage (r : Rules) : Block → Block → Formula.Result Int :=
  damage r.combat.physicalDamage

def magicDamage (r : Rules) : Block → Block → Formula.Result Int :=
  damage r.combat.magicDamage

/-- A percentage between 0 and 100; NaN counts as 0. -/
def criticalChance (r : Rules) (attacker : Block) : Formula.Result Float := do
  let x ← Formula.compute r.combat.criticalCheck (.ofBlock attacker)
  return Formula.Builtin.smaller 100 (Formula.Builtin.greater 0 x)

def turnOrder (r : Rules) (stats : Block) : Formula.Result Float :=
  Formula.compute r.combat.turnOrder (.ofBlock stats)

def primary? (r : Rules) (id : String) : Option Primary := r.primary.find? fun s => s.id = id

def derived? (r : Rules) (id : String) : Option Derived := r.derived.find? fun s => s.id = id

def isValid (r : Rules) (id : String) (value : Quantity) : Bool :=
  match r.primary? id with
  | none => true
  | some s => s.minimum.le value && value.le s.maximum

def clamp (r : Rules) (id : String) (value : Quantity) : Quantity :=
  match r.primary? id with
  | none => value
  | some s => s.maximum.min (s.minimum.max value)

end Rules

end Skirmish.Stat

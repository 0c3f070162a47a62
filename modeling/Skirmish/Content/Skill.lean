import Skirmish.Modifier.Effect

namespace Skirmish

/-- `other` is a kind that no rule knows; using such a skill does nothing. -/
inductive Skill.Kind where
  | physical | magic | healing | buff | debuff | defense | special
  | other (name : String)
  deriving DecidableEq, Repr

namespace Skill.Kind

def name : Kind → String
  | physical => "physical"
  | magic => "magic"
  | healing => "healing"
  | buff => "buff"
  | debuff => "debuff"
  | defense => "defense"
  | special => "special"
  | other s => s

def known : List Kind := [physical, magic, healing, buff, debuff, defense, special]

def ofName (s : String) : Kind := (known.find? fun k => k.name = s).getD (other s)

def isAttack (k : Kind) : Bool := k = physical || k = magic

end Skill.Kind

structure Skill.Change where
  stat : String
  value : Quantity
  duration : Option Int
  mode : Modifier.Mode

structure Skill where
  id : String
  name : String
  kind : Skill.Kind
  mpCost : Quantity
  hpCost : Quantity
  power : Option Quantity
  value : Option Quantity
  target : String
  description : String
  buff : Option Skill.Change
  debuff : Option Skill.Change

namespace Skill

def lacksMp (s : Skill) (mp : Quantity) : Bool := mp.lt s.mpCost

/-- Life may be spent only as long as some is left. -/
def lacksHp (s : Skill) (hp : Quantity) : Bool := !s.hpCost.isZero && hp.le s.hpCost

end Skill

end Skirmish

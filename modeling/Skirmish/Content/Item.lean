import Skirmish.Modifier.Definition

namespace Skirmish

inductive Item.Use where
  | healHp | healMp | revive | buff | damage | cure | nothing
  | other (name : String)
  deriving DecidableEq, Repr

namespace Item.Use

def name : Use → String
  | healHp => "healHp"
  | healMp => "healMp"
  | revive => "revive"
  | buff => "buff"
  | damage => "damage"
  | cure => "cure"
  | nothing => "none"
  | other s => s

def known : List Use := [healHp, healMp, revive, buff, damage, cure, nothing]

def ofName (s : String) : Use := (known.find? fun u => u.name = s).getD (other s)

end Item.Use

structure Item where
  id : String
  name : String
  use : Item.Use
  value : Quantity
  kind : String
  target : String
  description : String
  buffStat : Option String
  buffValue : Option Quantity
  buffDuration : Option Int
  slot : Option String
  modifiers : List Modifier.Effect

namespace Item

def equipmentModifier (i : Item) : Quantity.Result Modifier.Definition :=
  Modifier.Definition.equipment ("equip_" ++ i.id) i.name i.modifiers

end Item

end Skirmish

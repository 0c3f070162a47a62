import Skirmish.Number.Quantity

namespace Skirmish.Stat

structure Primary where
  id : String
  name : String
  abbreviation : String := ""
  description : String := ""
  default : Quantity := 10
  minimum : Quantity := 1
  maximum : Quantity := 999

structure Derived where
  id : String
  name : String
  formula : String
  description : String := ""

structure CombatFormulas where
  physicalDamage : String
  magicDamage : String
  criticalCheck : String
  turnOrder : String

structure Config where
  primary : List Primary
  derived : List Derived
  combat : Option CombatFormulas

def CombatFormulas.standard : CombatFormulas where
  physicalDamage := "Attack * (100 / (100 + EnemyDef))"
  magicDamage := "MagicPower * (100 / (100 + EnemyRes))"
  criticalCheck := "CritRate"
  turnOrder := "Speed + Dexterity * 0.5"

def Config.standard : Config where
  primary := [
    ⟨"Strength", "Strength", "STR", "Physical power", 10, 1, 999⟩,
    ⟨"Dexterity", "Dexterity", "DEX", "Agility and precision", 10, 1, 999⟩,
    ⟨"Constitution", "Constitution", "CON", "Health and stamina", 10, 1, 999⟩,
    ⟨"Intelligence", "Intelligence", "INT", "Magic power", 10, 1, 999⟩,
    ⟨"Wisdom", "Wisdom", "WIS", "Magic resistance", 10, 1, 999⟩,
    ⟨"Luck", "Luck", "LCK", "Fortune and criticals", 10, 1, 999⟩]
  derived := [
    ⟨"MaxHP", "Max HP", "Constitution * 10 + Level * 5", ""⟩,
    ⟨"MaxMP", "Max MP", "Intelligence * 5 + Wisdom * 3", ""⟩,
    ⟨"Attack", "Attack", "Strength * 2 + Dexterity * 0.5", ""⟩,
    ⟨"Defense", "Defense", "Constitution * 1.5 + Strength * 0.5", ""⟩,
    ⟨"MagicPower", "Magic Power", "Intelligence * 3", ""⟩,
    ⟨"MagicResist", "Magic Resist", "Wisdom * 2 + Constitution * 0.5", ""⟩,
    ⟨"Speed", "Speed", "Dexterity * 2 + Intelligence * 0.5", ""⟩,
    ⟨"Evasion", "Evasion", "Dexterity + Luck * 0.5", ""⟩,
    ⟨"CritRate", "Crit Rate", "5 + Luck * 0.3 + Dexterity * 0.1", ""⟩]
  combat := some .standard

end Skirmish.Stat

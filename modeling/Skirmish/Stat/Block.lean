import Skirmish.Number.Quantity
import Skirmish.Table

namespace Skirmish.Stat

abbrev Block := Table Quantity

def aliases : List (String × List String) := [
  ("MaxHP", ["maxHp", "MaxHp", "maxHP"]),
  ("MaxMP", ["maxMp", "MaxMp", "maxMP"]),
  ("Attack", ["attack", "physAtk"]),
  ("Defense", ["defense", "physDef"]),
  ("MagicPower", ["magicPower", "magAtk"]),
  ("MagicResist", ["magicResist", "magDef"]),
  ("Speed", ["speed"]),
  ("Evasion", ["evasion"]),
  ("CritRate", ["critRate"]),
  ("CritDamage", ["critDamage", "critDmg"]),
  ("Strength", ["strength", "str"]),
  ("Dexterity", ["dexterity", "dex"]),
  ("Intelligence", ["intelligence", "int"]),
  ("Luck", ["luck", "lck"])]

def canonicalName (key : String) : String :=
  match aliases.find? fun a => a.1 = key || a.2.contains key with
  | some a => a.1
  | none => key

namespace Block

/-- Adds a canonical name that is missing, with the value of its first alias in the block. -/
def complete (stats block : Block) (names : String × List String) : Block :=
  if block.contains names.1 then block
  else
    match names.2.findSome? stats.get? with
    | some value => block.insert names.1 value
    | none => block

def withCanonicalNames (stats : Block) : Block :=
  aliases.foldl stats.complete stats

end Block

end Skirmish.Stat

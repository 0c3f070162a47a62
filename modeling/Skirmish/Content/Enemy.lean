import Skirmish.Stat.Block

namespace Skirmish

namespace Tactics

/-- `other` is a behaviour that no rule knows; such an enemy acts at random. -/
inductive Behavior where
  | aggressive | defensive | balanced | random | scripted
  | other (name : String)
  deriving DecidableEq, Repr

namespace Behavior

def name : Behavior → String
  | aggressive => "aggressive"
  | defensive => "defensive"
  | balanced => "balanced"
  | random => "random"
  | scripted => "scripted"
  | other s => s

def known : List Behavior := [aggressive, defensive, balanced, random, scripted]

def ofName (s : String) : Behavior := (known.find? fun b => b.name = s).getD (other s)

end Behavior

inductive Preference where
  | weakest | strongest | random
  deriving DecidableEq, Repr

namespace Preference

def name : Preference → String
  | weakest => "weakest"
  | strongest => "strongest"
  | random => "random"

def known : List Preference := [weakest, strongest, random]

def ofName? (s : String) : Option Preference := known.find? fun p => p.name = s

end Preference

structure Declaration where
  behavior : Option Behavior
  healThreshold : Option Quantity
  defendThreshold : Option Quantity
  preference : Option Preference
  skillPriority : Option (List String)

end Tactics

structure Drop where
  itemId : String
  chance : Quantity
  count : Int

structure Enemy where
  id : String
  name : String
  stats : Stat.Block
  skills : List String
  drops : List Drop
  exp : Int
  gold : Int
  tactics : Option Tactics.Declaration
  description : String

end Skirmish

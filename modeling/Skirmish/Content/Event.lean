import Skirmish.Number.Quantity

namespace Skirmish

mutual

/-- Without a target an event meets the fighter whose turn it is; `other` is no event at all. -/
inductive Event where
  | dialog (text : String) (speaker : Option String) (options : List DialogOption)
  | spawn (enemyId : String)
  | buff (stat : String) (value : Quantity) (target : Option String) (duration : Option Int)
  | heal (amount : Quantity) (target : Option String)
  | damage (amount : Quantity) (target : Option String)
  | flee (target : Option String)
  | transform (enemyId : String) (target : Option String)
  | multi (events : List Event)
  | other (text : String)

inductive DialogOption where
  | option (id text : String) (event : Option Event)

end

namespace DialogOption

def id : DialogOption → String
  | option id _ _ => id

def text : DialogOption → String
  | option _ text _ => text

def event? : DialogOption → Option Event
  | option _ _ event => event

end DialogOption

namespace Event

instance : Inhabited Event := ⟨multi []⟩

def kindName : Event → String
  | dialog .. => "dialog"
  | spawn .. => "spawn"
  | buff .. => "buff"
  | heal .. => "heal"
  | damage .. => "damage"
  | flee .. => "flee"
  | transform .. => "transform"
  | multi .. => "multi"
  | other s => s

def kindNames : List String :=
  ["dialog", "spawn", "buff", "heal", "damage", "flee", "transform", "multi"]

end Event

end Skirmish

import Skirmish.Content.Event
import Skirmish.Table

namespace Skirmish

structure Trigger where
  id : Option String
  condition : String
  once : Bool
  maxFires : Option Int
  event : Event

structure ItemNeed where
  itemId : String
  count : Int

inductive Flag where
  | bool (b : Bool)
  | number (q : Quantity)
  | text (s : String)

structure Requirements where
  stats : Table Quantity
  items : List ItemNeed
  flags : Table Flag
  skills : List String

structure Choice where
  id : String
  text : String
  nextScene : Option String
  condition : Option String
  showIf : Option String
  requires : Option Requirements

structure Scene where
  id : String
  kind : String
  choices : List Choice
  enemies : List String
  victoryScene : Option String
  defeatScene : Option String
  triggers : List Trigger

end Skirmish

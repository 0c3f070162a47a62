import Skirmish.Stat.Block

namespace Skirmish

structure Character where
  id : String
  name : String
  stats : Stat.Block
  skills : List String
  level : Int
  exp : Int
  hp : Option Quantity
  mp : Option Quantity
  currentStats : Option Stat.Block
  equipment : Table String
  inventory : Table Int

end Skirmish

import Skirmish.Battle.Fighter
import Skirmish.Chance

namespace Skirmish.Initiative

structure Entry where
  id : String
  initiative : Quantity

def defaultSpeed : Quantity := 10

def defaultVariance : Quantity := 10

def roll (variance : Quantity) (f : Fighter) : Roll ArithmeticError Entry := do
  let n ← Chance.below variance
  let initiative ← (f.stats.getD "Speed" defaultSpeed).add (.whole n)
  return ⟨f.id, initiative⟩

/-- Puts an entry before the first one of strictly lower initiative. -/
def place (e : Entry) : List Entry → List Entry
  | [] => [e]
  | x :: xs => if x.initiative.lt e.initiative then e :: x :: xs else x :: place e xs

def arrange (entries : List Entry) : List Entry :=
  entries.foldl (fun queue e => place e queue) []

def queue (variance : Quantity) (fighters : List Fighter) : Roll ArithmeticError (List Entry) := do
  let entries ← (Roster.living fighters).mapM (roll variance)
  return arrange entries

end Skirmish.Initiative

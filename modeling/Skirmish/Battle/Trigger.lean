import Skirmish.Battle.Fighter
import Skirmish.Content.Scene
import Skirmish.Formula.Eval

namespace Skirmish

namespace Fighter

/-- What conditions may know of a fighter; a stat of the same name goes first. -/
def conditions (f : Fighter) : Quantity.Result Formula.Context := do
  let hpPercent ← f.hpPercent
  let mpPercent ← f.mpPercent
  let own : Stat.Block := Table.ofList [
    ("hp", f.hp), ("maxHp", f.maxHp), ("hpPercent", .real hpPercent),
    ("mp", f.mp), ("maxMp", f.maxMp), ("mpPercent", .real mpPercent),
    ("level", f.level),
    ("isAlive", if f.isAlive then 1 else 0),
    ("isDefending", if f.isDefending then 1 else 0)]
  return .ofBlock (f.stats.entries.foldl (fun b e => b.insert e.1 e.2) own)

end Fighter

namespace Trigger

def count (p : Fighter → Bool) (fs : List Fighter) : Formula.Context :=
  .ofNat (fs.filter p).length

def roleContext (role : String) (fs : List Fighter) :
    Quantity.Result (List (String × Formula.Context)) :=
  match fs with
  | [] => .ok []
  | f :: _ => do return [(role, ← f.conditions)]

/-- The turn, the numbers of fighters, every fighter by its id, and the first one of each side. -/
def context (fighters : List Fighter) (turn : Quantity) : Quantity.Result Formula.Context := do
  let players := fighters.filter Fighter.isPlayer
  let enemies := fighters.filter fun f => !f.isPlayer
  let counts := [
    ("turn", Formula.Context.number turn),
    ("playersAlive", count Fighter.isAlive players),
    ("enemiesAlive", count Fighter.isAlive enemies),
    ("totalPlayers", count (fun _ => true) players),
    ("totalEnemies", count (fun _ => true) enemies)]
  let each ← fighters.mapM fun f => do return (f.id, ← f.conditions)
  let player ← roleContext "player" players
  let enemy ← roleContext "enemy" enemies
  return .scope ((each ++ player ++ enemy).foldl (fun es e => Table.put e.1 e.2 es) counts)

def key (t : Trigger) : String := t.id.getD ""

def holds (t : Trigger) (c : Formula.Context) : Quantity.Result Bool :=
  match Formula.compute t.condition c with
  | .ok x => .ok (Formula.isTrue x)
  | .error (.arithmetic cause) => .error cause
  | .error _ => .ok false

def mayFire (t : Trigger) (fired : Nat) : Bool :=
  !(t.once && 1 ≤ fired) &&
    match t.maxFires with
    | none => true
    | some most => (fired : Int) < most

abbrev Counts := Table Nat

/-- Fires the triggers in order; the counts of those that fired stay even if a later one fails. -/
def fireAll (c : Formula.Context) : List Trigger →
    ExceptT ArithmeticError (StateM Counts) (List Trigger)
  | [] => return []
  | t :: ts => do
    let fired := (← getThe Counts).getD t.key 0
    if !t.mayFire fired then fireAll c ts
    else if ← t.holds c then
      modifyThe Counts fun counts => counts.insert t.key (fired + 1)
      return t :: (← fireAll c ts)
    else fireAll c ts

/-- Triggers with their counts, and the number of ids given away so far. -/
structure Book where
  triggers : List Trigger := []
  fired : Counts := {}
  named : Nat := 0

namespace Book

def assignIds (named : Nat) : List Trigger → List Trigger × Nat
  | [] => ([], named)
  | t :: ts =>
    if t.key.isEmpty then
      let (rest, last) := assignIds (named + 1) ts
      ({ t with id := some ("trigger_" ++ toString named) } :: rest, last)
    else
      let (rest, last) := assignIds named ts
      (t :: rest, last)

def setTriggers (b : Book) (triggers : List Trigger) : Book :=
  let (triggers, named) := assignIds b.named triggers
  { triggers, named }

def clear (b : Book) : Book := { named := b.named }

def firedCount (b : Book) (id : String) : Nat := b.fired.getD id 0

def evaluate (b : Book) (fighters : List Fighter) (turn : Quantity) :
    Quantity.Result (List Trigger) × Book :=
  match context fighters turn with
  | .error e => (.error e, b)
  | .ok c =>
    let (outcome, fired) := (fireAll c b.triggers).run.run b.fired
    (outcome, { b with fired })

end Book

end Trigger

end Skirmish

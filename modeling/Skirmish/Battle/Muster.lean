import Skirmish.Battle.State

namespace Skirmish.Battle

def statsOf (r : Stat.Rules) (f : Fighter) : Except Error Stat.Block := do
  let complete ← (r.completeStats f.baseStats f.level).mapError .formula
  arithmetic (f.modifiers.applyTo complete.withCanonicalNames)

/-- Brings stats and maxima up to date; a maximum that is no stat is the one given. -/
def refreshWith (r : Stat.Rules) (maxHp maxMp : Quantity) (f : Fighter) : Except Error Fighter := do
  let stats ← statsOf r f
  return { f with stats, maxHp := stats.getD "MaxHP" maxHp, maxMp := stats.getD "MaxMP" maxMp }

def refresh (r : Stat.Rules) (f : Fighter) : Except Error Fighter :=
  refreshWith r f.maxHp f.maxMp f

def refreshFighter (b : Battle) (id : String) : Result Battle :=
  match b.fighter? id with
  | none => .ok b
  | some f => do return b.setFighter (← leaving b (refresh b.rules f))

def refreshAll (b : Battle) : List String → Result Battle
  | [] => .ok b
  | id :: ids => do refreshAll (← refreshFighter b id) ids

def renew (b : Battle) (f : Fighter) : Except Error Fighter :=
  refreshWith b.rules b.config.defaultMaxHp b.config.defaultMaxMp f

/-- A fighter with full life unless a lower one is carried over. -/
def recruit (b : Battle) (f : Fighter) (hp mp : Option Quantity) : Except Error Fighter := do
  let f ← renew b f
  return { f with
    hp := ((hp.map fun q => q.min f.maxHp).getD f.maxHp)
    mp := ((mp.map fun q => q.min f.maxMp).getD f.maxMp) }

def equip (g : Game) : List String → Modifier.Stack → Quantity.Result Modifier.Stack
  | [], s => .ok s
  | id :: ids, s =>
    match g.item? id with
    | none => equip g ids s
    | some item =>
      if item.modifiers.isEmpty then equip g ids s
      else do equip g ids (s.add (← item.equipmentModifier) "equipment")

def recruitPlayer (b : Battle) (c : Character) : Except Error Fighter := do
  let modifiers ← arithmetic (equip b.game c.equipment.values {})
  recruit b
    { id := c.id, name := c.name, isPlayer := true, baseStats := c.stats, stats := {}
      hp := 0, mp := 0, maxHp := b.config.defaultMaxHp, maxMp := b.config.defaultMaxMp
      skills := c.skills, modifiers, level := .whole c.level } c.hp c.mp

def recruitEnemy (b : Battle) (e : Enemy) (id : String) : Except Error Fighter :=
  recruit b
    { id, name := e.name, isPlayer := false, baseStats := e.stats, stats := {}
      hp := 0, mp := 0, maxHp := b.config.defaultMaxHp, maxMp := b.config.defaultMaxMp
      skills := e.skills } none none

def enroll (b : Battle) (e : Enemy) (id : String) : Result Battle := do
  let f ← leaving b (recruitEnemy b e id)
  return { b.setFighter f with origins := b.origins.insert id e }

def numbered (id : String) (n : Nat) : String := id ++ "_" ++ toString n

/-- Takes in enemies; one declared before under the same id gets its number in the list. -/
def enrollAll (b : Battle) (seen : List String) : List Enemy → Result Battle
  | [] => .ok b
  | e :: es => do
    let id := if seen.contains e.id then numbered e.id seen.length else e.id
    enrollAll (← enroll b e id) (seen ++ [e.id]) es

def sceneEnemies (b : Battle) : List Enemy :=
  match b.scene with
  | none => []
  | some s => s.enemies.filterMap b.game.enemy?

def freshId (r : Roster) (id : String) : String :=
  let forms := id :: (List.range r.size).map fun n => numbered id (n + 1)
  (forms.find? fun x => !r.contains x).getD id

def sum : Quantity → List Quantity → Quantity.Result Quantity
  | total, [] => .ok total
  | total, q :: qs => do sum (← total.add q) qs

def meanInitiative (queue : List Initiative.Entry) : Quantity.Result Quantity := do
  if queue.isEmpty then return 0
  else
    let total ← sum 0 (queue.map (·.initiative))
    return .real (← total.div (.whole queue.length))

def spawn (b : Battle) (e : Enemy) : Result Battle := do
  let id := freshId b.fighters e.id
  let b ← enroll b e id
  let initiative ← leaving b (arithmetic (meanInitiative b.queue))
  let entry : Initiative.Entry := ⟨id, initiative⟩
  return { b with queue := b.queue ++ [entry] }.say (e.name ++ " appeared!")

def transform (b : Battle) (f : Fighter) (e : Enemy) : Result Battle := do
  let ratio ← leaving b
    (if Quantity.lt 0 f.maxHp then arithmetic (f.hp.div f.maxHp) else pure 1)
  let f := { f with name := e.name, baseStats := e.stats, skills := e.skills }
  let f ← leaving (b.setFighter f) (renew b f)
  let hp ← leaving (b.setFighter f) (arithmetic (do (← f.maxHp.mul (.real ratio)).floor))
  let b := b.setFighter { f with hp := .whole hp }
  return { b with origins := b.origins.insert f.id e }.say (f.name ++ " transformed!")

end Skirmish.Battle

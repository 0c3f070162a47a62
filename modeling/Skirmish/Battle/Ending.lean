import Skirmish.Battle.State

namespace Skirmish.Battle

def addFound (found : List Found) (itemId : String) (count : Int) : List Found :=
  match found with
  | [] => [⟨itemId, count⟩]
  | f :: fs =>
    if f.itemId = itemId then { f with count := f.count + count } :: fs
    else f :: addFound fs itemId count

def drawDrops (found : List Found) : List Drop → Roll Error (List Found)
  | [] => return found
  | d :: ds => do
    let o ← Chance.test d.chance
    drawDrops (if o.success then addFound found d.itemId d.count else found) ds

def rewards (enemies : List Enemy) : Roll Error Rewards := do
  let items ← drawDrops [] (enemies.flatMap Enemy.drops)
  let exp := (enemies.map Enemy.exp).foldl (· + ·) 0
  let gold := (enemies.map Enemy.gold).foldl (· + ·) 0
  return ⟨exp, gold, items⟩

def survivors (b : Battle) : List Survivor :=
  b.players.map fun f => ⟨f.id, f.name, f.hp, f.maxHp, f.mp, f.maxMp⟩

def foundMessage (g : Game) (f : Found) : String :=
  "Obtained " ++ ((g.item? f.itemId).map Item.name).getD f.itemId ++
    (if 1 < f.count then " x" ++ toString f.count else "") ++ "!"

def rewardMessages (g : Game) (r : Rewards) : List String :=
  ["Victory!"] ++
    (if 0 < r.exp then ["Gained " ++ toString r.exp ++ " EXP!"] else []) ++
    (if 0 < r.gold then ["Found " ++ toString r.gold ++ " gold!"] else []) ++
    r.items.map (foundMessage g)

def lose (b : Battle) : Battle :=
  let lost := { b with
    phase := .defeat, resume := []
    outcome := some ⟨false, none, survivors b, b.turn⟩ }
  (lost.say "Defeat...").notify

def win (b : Battle) : Result Battle := do
  let ended := { b with phase := .victory, resume := [] }
  let (r, b) ← ended.roll (rewards ended.origins.values) id
  let won := { b with outcome := some ⟨true, some r, survivors b, b.turn⟩ }
  return (won.sayAll (rewardMessages b.game r)).notify

/-- Ends the battle when a side has fallen; an outcome once reached stays. -/
def checkEnd (b : Battle) : Result Battle :=
  if b.outcome.isSome then .ok b
  else if b.players.isEmpty then .ok b.lose
  else if b.enemies.isEmpty then b.win
  else .ok b

end Skirmish.Battle

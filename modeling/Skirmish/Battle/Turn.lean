import Skirmish.Battle.Ending
import Skirmish.Battle.Script

namespace Skirmish.Battle

def effectMessage (name : String) (e : Action.Effect) : Quantity.Result String := do
  let stat := match e.stat with
    | none | some "" => "stats"
    | some s => s
  match e.kind with
  | .damage =>
    return name ++ " takes " ++ (← e.value.shown) ++ " damage!" ++
      (if e.isCritical then " Critical hit!" else "")
  | .heal => return name ++ " recovers " ++ (← e.value.shown) ++ " HP!"
  | .healMp => return name ++ " recovers " ++ (← e.value.shown) ++ " MP!"
  | .buff => return name ++ "'s " ++ stat ++ " increased!"
  | .debuff => return name ++ "'s " ++ stat ++ " decreased!"
  | .revive => return name ++ " was revived with " ++ (← e.value.shown) ++ " HP!"

def sayEffects (b : Battle) : List Action.Effect → Result Battle
  | [] => .ok b
  | e :: es =>
    match b.fighter? e.targetId with
    | none => sayEffects b es
    | some f => do
      sayEffects (b.say (← leaving b (arithmetic (effectMessage f.name e)))) es

def sayKilled (b : Battle) (killed : List String) : Battle :=
  b.sayAll (killed.filterMap fun id => (b.fighter? id).map fun f => f.name ++ " was defeated!")

def changesStats (e : Action.Effect) : Bool := e.kind = .buff || e.kind = .debuff

def applyReport (b : Battle) (r : Action.Report) : Result Battle := do
  let b := b.say r.message
  if !r.success then return b
  else
    let b ← b.sayEffects r.effects
    (b.sayKilled r.killed).refreshAll ((r.effects.filter changesStats).map (·.targetId))

def actionRules (b : Battle) : Action.Rules :=
  ⟨.ofCombat b.game.stats.combat, b.config.defendFactor⟩

def basicDamage (b : Battle) (attack : Quantity) (target : Fighter) : Quantity.Result Int := do
  let defense := target.stats.getD "Defense" b.config.basicDefense
  let guard := Quantity.max 1 (← Quantity.add 100 defense)
  let base := max 1 (← (← attack.mul (.real (← Quantity.div 100 guard))).floor)
  if target.isDefending then (← (Quantity.whole base).mul b.config.defendFactor).floor
  else return base

def basicAttackOn (b : Battle) (attack : Quantity) : List String → Result Battle
  | [] => .ok b
  | id :: ids =>
    match (b.fighter? id).filter Fighter.isAlive with
    | none => basicAttackOn b attack ids
    | some target => do
      let damage ← leaving b (arithmetic (b.basicDamage attack target))
      let after ← leaving b (arithmetic (target.takeDamage (.whole damage)))
      let b := (b.setFighter after).say
        (target.name ++ " takes " ++ toString damage ++ " damage!")
      let b := if Fighter.fell target after then b.say (target.name ++ " was defeated!") else b
      basicAttackOn b attack ids

def basicAttack (b : Battle) (actor : Fighter) (targets : List String) : Result Battle :=
  (b.say (actor.name ++ " attacks!")).basicAttackOn (actor.stats.getD "Attack" 10) targets

def haltedAll (h : Halt ArithmeticError Roster) (b : Battle) : Halt Error Battle :=
  ⟨.arithmetic h.cause, { b with fighters := h.left }⟩

def runSkill (b : Battle) (actor : Fighter) (o : Order) : Result Battle :=
  match b.game.skill? (o.skillId.getD "") with
  | none => b.basicAttack actor o.targets
  | some skill => do
    let ((report, fighters), b) ←
      b.rollOr (Action.useSkill b.actionRules b.fighters actor skill o.targets) haltedAll
    { b with fighters }.applyReport report

def runItem (b : Battle) (actor : Fighter) (o : Order) : Result Battle :=
  match b.game.item? (o.itemId.getD "") with
  | none => .ok (b.say (actor.name ++ " tries to use an item, but nothing happens!"))
  | some item => do
    let ((report, fighters), b) ←
      b.rollOr (Action.useItem b.fighters actor item o.targets) haltedAll
    { b with fighters }.applyReport report

def runDefend (b : Battle) (actor : Fighter) : Battle :=
  (b.setFighter { actor with isDefending := true }).say (actor.name ++ " is defending!")

def runOrder (b : Battle) (actor : Fighter) (o : Order) : Result Battle :=
  match o.kind with
  | .skill => b.runSkill actor o
  | .item => b.runItem actor o
  | .defend => .ok (b.runDefend actor)
  | .flee | .other _ => .error ⟨.notExecutable o.kind.name, b⟩

def rollQueue (b : Battle) : Result (List Initiative.Entry × Battle) :=
  b.roll (Initiative.queue b.config.initiativeVariance b.fighters.values) .arithmetic

def nextTurn (b : Battle) : Result Battle := do
  if b.index + 1 < b.queue.length then return { b with index := b.index + 1 }
  else
    let (queue, b) ← { b with turn := b.turn + 1, index := 0 }.rollQueue
    let b := { b with queue }
    if queue.isEmpty then b.checkEnd else return b

def endTurn (b : Battle) : Result Battle := (b.enter .turnEnd).nextTurn

def executePending (b : Battle) : Result Battle :=
  match b.pending with
  | none => .ok b
  | some o =>
    let b := b.enter .actionExecute
    match b.fighter? o.actorId with
    | none => { b with pending := none }.endTurn
    | some actor => do
      let b ← b.runOrder actor o
      let b ← { b with pending := none }.checkEnd
      if b.phase = .actionExecute then b.endTurn else return b

def enemyOrder (b : Battle) (f : Fighter) : Result (Order × Battle) :=
  let declared := (b.origins.get? f.id).bind Enemy.tactics
  b.roll (Tactics.choose b.game f b.fighters.values b.turn declared) .chance

def dispatch (b : Battle) (f : Fighter) : Result Battle :=
  if !f.isAlive then b.endTurn
  else if f.isPlayer then .ok (b.enter .actionSelect)
  else do
    let (o, b) ← b.enemyOrder f
    { b with pending := some o }.executePending

def beginTurn (b : Battle) (f : Fighter) : Result Battle := do
  let worn := f.modifiers.expiring
  let f := { f with isDefending := false, modifiers := f.modifiers.tick }
  let b := if worn.isEmpty then b else b.say (f.name ++ "'s effects wore off")
  let f ← leaving (b.setFighter f) (refresh b.rules f)
  return (b.setFighter f).say (f.name ++ "'s turn")

def startTurn (b : Battle) : Result Battle := do
  let b := { b with phase := .turnStart }
  match b.current?.filter Fighter.isAlive with
  | none => b.nextTurn
  | some f =>
    let b ← b.beginTurn f
    let b ← b.checkTriggers
    let b ← b.checkEnd
    if b.isOver || b.phase = .dialog then return b.notify
    else b.dispatch ((b.fighter? f.id).getD f)

/-- Takes turns until a command is needed or the battle is over; nothing if they never end. -/
def turns (b : Battle) : Option (Result Battle) :=
  if b.isRunning then
    match b.startTurn with
    | .error h => some (.error h)
    | .ok b => b |>.turns
  else some (.ok b)
partial_fixpoint

def run (b : Battle) : Result Battle := b.turns.getD (.error ⟨.turnLimit, b⟩)

end Skirmish.Battle

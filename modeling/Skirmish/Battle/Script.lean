import Skirmish.Battle.Muster

namespace Skirmish.Battle

def queueDialog (b : Battle) (d : Dialog) : Result Battle :=
  let b := { b with dialogs := b.dialogs ++ [d] }
  if b.phase = .dialog then .ok b
  else if b.isOver then .ok b.notify
  else if b.config.maxPhaseDepth ≤ b.resume.length then
    if b.resume.isEmpty then .error ⟨.nothingToResume, b⟩ else .ok (b.enter .dialog)
  else .ok ({ b with resume := b.phase :: b.resume }.enter .dialog)

def target? (b : Battle) : Option String → Option Fighter
  | none => b.current?
  | some id => b.fighter? id

def living? (b : Battle) (target : Option String) : Option Fighter :=
  (b.target? target).filter Fighter.isAlive

def withFighter (b : Battle) (f : Option Fighter) (step : Fighter → Result Battle) :
    Result Battle :=
  match f with
  | none => .ok b
  | some f => step f

def scriptBuff (b : Battle) (stat : String) (value : Quantity) (duration : Option Int)
    (f : Fighter) : Result Battle := do
  let number := b.buffsMade + 1
  let turns := duration.getD b.config.buffDuration
  let modifier := Modifier.Definition.timed ("trigger_buff_" ++ toString number) "Battle Effect"
    ⟨stat, .flat, value⟩ (some turns) "Applied by battle trigger"
  let b := { b with buffsMade := number }
  let f := f.addModifier modifier "buff"
  let f ← leaving (b.setFighter f) (refresh b.rules f)
  return (b.setFighter f).say (f.name ++ " gained a buff!")

def halted (b : Battle) (h : Halt ArithmeticError Fighter) : Halt Error Battle :=
  ⟨.arithmetic h.cause, b.setFighter h.left⟩

def scriptHeal (b : Battle) (amount : Quantity) (f : Fighter) : Result Battle := do
  let (f, gained) ← (f.restoreHp amount).mapError b.halted
  let shown ← leaving (b.setFighter f) (arithmetic gained.shown)
  return (b.setFighter f).say (f.name ++ " recovered " ++ shown ++ " HP!")

def scriptDamage (b : Battle) (amount : Quantity) (f : Fighter) : Result Battle := do
  let after ← leaving b (arithmetic (f.takeDamage amount))
  let shown ← leaving (b.setFighter after) (arithmetic amount.shown)
  let b := (b.setFighter after).say (f.name ++ " took " ++ shown ++ " damage!")
  return if Fighter.fell f after then b.say (f.name ++ " was defeated!") else b

def scriptFlee (b : Battle) (f : Fighter) : Battle :=
  if f.isPlayer then b
  else (b.setFighter { f with isAlive := false }).say (f.name ++ " fled the battle!")

def named? (b : Battle) : Option String → Option Fighter
  | none | some "" => none
  | some id => b.fighter? id

def scriptTransform (b : Battle) (enemyId : String) (target : Option String) : Result Battle :=
  match b.game.enemy? enemyId, b.target? target with
  | some e, some f => if f.isPlayer then .ok b else transform b f e
  | _, _ => .ok b

def speakerOr (b : Battle) : Option String → String
  | none | some "" => b.config.narrator
  | some s => s

mutual

def perform (b : Battle) : Event → Result Battle
  | .dialog text speaker options => b.queueDialog ⟨b.speakerOr speaker, text, options⟩
  | .spawn enemyId =>
    match b.game.enemy? enemyId with
    | none => .ok b
    | some e => b.spawn e
  | .buff stat value target duration =>
    b.withFighter (b.target? target) (b.scriptBuff stat value duration)
  | .heal amount target => b.withFighter (b.living? target) (b.scriptHeal amount)
  | .damage amount target => b.withFighter (b.living? target) (b.scriptDamage amount)
  | .flee target => .ok (((b.named? target).map b.scriptFlee).getD b)
  | .transform enemyId target => b.scriptTransform enemyId target
  | .multi events => performAll b events
  | .other text => .error ⟨.unknownEvent text, b⟩

def performAll (b : Battle) : List Event → Result Battle
  | [] => .ok b
  | e :: es => do performAll (← perform b e) es

end

/-- Fires the triggers on the state as it is, then lets their events happen in order. -/
def checkTriggers (b : Battle) : Result Battle := do
  let (fired, triggers) := b.triggers.evaluate b.fighters.values (.whole b.turn)
  let b := { b with triggers }
  performAll b ((← leaving b (arithmetic fired)).map Trigger.event)

end Skirmish.Battle

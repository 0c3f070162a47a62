import Skirmish.Battle.Turn

namespace Skirmish.Battle

/-- The fighters take the field; all that a battle before it left behind is gone. -/
def assemble (b : Battle) (player : Option Character) (enemies : Option (List Enemy)) :
    Result Battle := do
  let cleared := { b with
    fighters := {}, origins := {}, log := [], dialogs := [], resume := [], pending := none
    outcome := none, queue := [], index := 0 }
  let f ← leaving cleared (recruitPlayer cleared (player.getD b.game.player))
  let b ← (cleared.setFighter f).enrollAll [] (enemies.getD b.sceneEnemies)
  let triggers := match b.scene with
    | none => b.triggers
    | some s => b.triggers.setTriggers s.triggers
  return ({ b with triggers, turn := 0, phase := .start }.say "Battle Start!").notify

def start (b : Battle) : Result Battle := do
  let (queue, b) ← b.rollQueue
  run { b with queue, turn := 1, index := 0, phase := .turnStart }

def nextScene (b : Battle) (victory : Bool) : Option String :=
  b.scene.bind fun s => if victory then s.victoryScene else s.defeatScene

def withoutMagic (f : Fighter) : Fighter :=
  { f with modifiers := (f.modifiers.clearSource "buff").clearSource "debuff" }

def settleAll (b : Battle) : List String → Result Battle
  | [] => .ok b
  | id :: ids =>
    match b.fighter? id with
    | none => settleAll b ids
    | some f => do
      let f := withoutMagic f
      settleAll (b.setFighter (← leaving (b.setFighter f) (refresh b.rules f))) ids

def close (b : Battle) : Result Battle := do
  let b ← b.settleAll b.fighters.keys
  return { b with listeners := [], triggers := b.triggers.clear }

def attemptFlee (b : Battle) : Result Battle := do
  let chance ← leaving b (arithmetic (b.config.fleeChance.mul 100))
  let (o, b) ← b.roll (Chance.test chance) id
  let b := { b with pending := none }
  if o.success then return { b.say "Escaped successfully!" with resume := [] }.enter .fled
  else run (← (b.say "Failed to escape!").endTurn)

def selectAction (b : Battle) (o : Order) : Result Battle :=
  if b.phase ≠ .actionSelect then .ok b
  else
    match o.kind with
    | .other name => .error ⟨.unknownAction name, b⟩
    | kind =>
      if (b.current?.map Fighter.id) ≠ some o.actorId then .ok b
      else
        let b := { b with pending := some o }
        match kind with
        | .defend => do run (← b.executePending)
        | .flee => b.attemptFlee
        | _ => .ok (b.enter .targetSelect)

def selectTargets (b : Battle) (targets : List String) : Result Battle :=
  match b.pending with
  | none => .ok b
  | some o =>
    if b.phase ≠ .targetSelect then .ok b
    else do run (← { b with pending := some { o with targets } }.executePending)

def cancelTargets (b : Battle) : Battle :=
  if b.phase ≠ .targetSelect then b else { b with pending := none }.enter .actionSelect

def resumePhase (b : Battle) : Result Battle :=
  let previous := b.resume.headD .start
  let b := { b with phase := previous, resume := b.resume.tail }
  if previous ≠ .turnStart then .ok b.notify
  else
    match b.current? with
    | none => do run (← b.nextTurn)
    | some f => do run (← b.dispatch f)

def afterDialog (b : Battle) : Result Battle :=
  if !b.dialogs.isEmpty || b.isOver then .ok b.notify else b.resumePhase

def dismissDialog (b : Battle) : Result Battle :=
  match b.dialogs with
  | [] => .ok b
  | d :: rest => if d.options.isEmpty then { b with dialogs := rest }.afterDialog else .ok b

def chooseOption (b : Battle) (id : String) : Result Battle :=
  match b.dialogs with
  | [] => .ok b
  | d :: rest =>
    match d.options.find? fun o => o.id = id with
    | none => .ok b
    | some o => do
      let b := { b with dialogs := rest }
      match o.event? with
      | none => b.afterDialog
      | some e => (← (← b.perform e).checkEnd).afterDialog

end Skirmish.Battle

import Skirmish.Battle.Action
import Skirmish.Battle.Initiative
import Skirmish.Battle.Tactics
import Skirmish.Battle.Trigger
import Skirmish.Stat.Rules

namespace Skirmish.Battle

inductive Phase where
  | start | turnStart | actionSelect | targetSelect | actionExecute | turnEnd
  | victory | defeat | fled | dialog
  deriving DecidableEq, Repr

namespace Phase

def name : Phase → String
  | start => "start"
  | turnStart => "turn_start"
  | actionSelect => "action_select"
  | targetSelect => "target_select"
  | actionExecute => "action_execute"
  | turnEnd => "turn_end"
  | victory => "victory"
  | defeat => "defeat"
  | fled => "fled"
  | dialog => "dialog"

def isTerminal (p : Phase) : Bool := p = victory || p = defeat || p = fled

def isWaiting (p : Phase) : Bool := p = actionSelect || p = targetSelect || p = dialog

end Phase

structure Config where
  fleeChance : Quantity := .real 0.5
  initiativeVariance : Quantity := 10
  defendFactor : Quantity := .real 0.5
  basicDefense : Quantity := 5
  defaultMaxHp : Quantity := 100
  defaultMaxMp : Quantity := 50
  buffDuration : Int := 3
  narrator : String := "Narrator"
  maxPhaseDepth : Int := 4

structure Dialog where
  speaker : String
  text : String
  options : List DialogOption

structure Found where
  itemId : String
  count : Int

structure Rewards where
  exp : Int
  gold : Int
  items : List Found

structure Survivor where
  id : String
  name : String
  hp : Quantity
  maxHp : Quantity
  mp : Quantity
  maxMp : Quantity

structure Outcome where
  victory : Bool
  rewards : Option Rewards
  survivors : List Survivor
  turns : Nat

inductive Error where
  | unknownAction (name : String)
  | unknownEvent (text : String)
  | notExecutable (name : String)
  | formula (cause : Formula.Error)
  | chance (cause : Chance.Error)
  | arithmetic (cause : ArithmeticError)
  /-- The dialog depth is used up while no phase waits to be resumed. -/
  | nothingToResume
  /-- The turns go on for ever without coming to a decision. -/
  | turnLimit
  deriving DecidableEq, Repr

def Error.message : Error → String
  | unknownAction name => "Unknown action kind: " ++ name
  | unknownEvent text => "Unknown trigger action: " ++ Text.quoted text
  | notExecutable name => "Cannot execute action kind: " ++ name
  | formula cause => cause.message
  | chance cause => cause.message
  | arithmetic cause => (Chance.Error.arithmetic cause).message
  | nothingToResume => "no phase to resume"
  | turnLimit => "too many turns without a decision"

end Battle

open Battle in
/-- `resume` holds the phases that dialogs interrupted, the latest first; `origins` the enemy that
each enemy fighter was made from; `notices` the phases that listeners were told. -/
structure Battle where
  game : Game
  scene : Option Scene
  rules : Stat.Rules
  config : Config
  dice : Dice
  phase : Phase := .start
  resume : List Phase := []
  turn : Nat := 0
  index : Nat := 0
  queue : List Initiative.Entry := []
  fighters : Roster := {}
  origins : Table Enemy := {}
  pending : Option Order := none
  log : List String := []
  dialogs : List Dialog := []
  outcome : Option Outcome := none
  listeners : List Nat := []
  listenersMade : Nat := 0
  notices : List Phase := []
  triggers : Trigger.Book := {}
  buffsMade : Nat := 0

namespace Battle

/-- What a battle goes through; a failure leaves the battle as it has become by then. -/
abbrev Result := Except (Halt Error Battle)

def arithmetic {α : Type} (r : Quantity.Result α) : Except Error α := r.mapError .arithmetic

def isOver (b : Battle) : Bool := b.phase.isTerminal

def isRunning (b : Battle) : Bool := !b.phase.isTerminal && !b.phase.isWaiting

def say (b : Battle) (message : String) : Battle := { b with log := b.log ++ [message] }

def sayAll (b : Battle) (messages : List String) : Battle := { b with log := b.log ++ messages }

def notify (b : Battle) : Battle :=
  { b with notices := b.notices ++ b.listeners.map fun _ => b.phase }

def enter (b : Battle) (p : Phase) : Battle := { b with phase := p }.notify

def fighter? (b : Battle) (id : String) : Option Fighter := b.fighters.get? id

def setFighter (b : Battle) (f : Fighter) : Battle :=
  { b with fighters := b.fighters.insert f.id f }

def current? (b : Battle) : Option Fighter := (b.queue[b.index]?).bind fun e => b.fighter? e.id

def rollOr {ε α : Type} (b : Battle) (r : Roll ε α) (halt : ε → Battle → Halt Error Battle) :
    Result (α × Battle) :=
  match (r.run).run b.dice with
  | (.ok a, dice) => .ok (a, { b with dice })
  | (.error e, dice) => .error (halt e { b with dice })

def roll {ε α : Type} (b : Battle) (r : Roll ε α) (wrap : ε → Error) : Result (α × Battle) :=
  b.rollOr r fun e b => ⟨wrap e, b⟩

def players (b : Battle) : List Fighter := Roster.living b.fighters.players

def enemies (b : Battle) : List Fighter := Roster.living b.fighters.enemies

def subscribe (b : Battle) : Nat × Battle :=
  (b.listenersMade,
    { b with listeners := b.listeners ++ [b.listenersMade], listenersMade := b.listenersMade + 1 })

def unsubscribe (b : Battle) (listener : Nat) : Battle :=
  { b with listeners := b.listeners.erase listener }

def create (game : Game) (scene : Option Scene) (rules : Stat.Rules) (config : Config)
    (dice : Dice) : Battle :=
  let triggers := (scene.map Scene.triggers).getD []
  { game, scene, rules, config, dice
    triggers := if triggers.isEmpty then {} else Trigger.Book.setTriggers {} triggers }

end Battle

end Skirmish

import Skirmish.Content.Game
import Skirmish.Document
import Skirmish.Formula.Eval
import Skirmish.Number.Numeral

namespace Skirmish

abbrev Story := List (String × Document)

namespace Choice

inductive Obstacle where
  | hidden
  | stat (name : String) (minimum current : Quantity)
  | item (name : String) (count : Int)
  | flag (name : String)
  | skill (name : String)
  | condition

def Obstacle.message : Obstacle → Quantity.Result String
  | hidden => .ok "hidden"
  | stat name minimum current => do
    let least ← minimum.shown
    let now ← current.shown
    return "Requires " ++ name ++ " " ++ least ++ " (current: " ++ now ++ ")"
  | item name count => .ok ("Requires " ++ toString count ++ "x " ++ name)
  | flag name => .ok ("Requires " ++ name)
  | skill name => .ok ("Requires skill: " ++ name)
  | condition => .ok "condition not met"

def variableValue? : Document → Option Quantity
  | .bool b => some (if b then 1 else 0)
  | .number q => some q
  | _ => none

def context (c : Character) (story : Story) : Stat.Block :=
  let put (b : Stat.Block) (e : String × Quantity) := b.insert e.1 e.2
  let stats := ((c.currentStats.map Table.entries).getD []).foldl put c.stats
  let maxHp := stats.getD "maxHp" (stats.getD "MaxHP" 100)
  let maxMp := stats.getD "maxMp" (stats.getD "MaxMP" 50)
  let own := [
    ("hp", c.hp.getD maxHp), ("maxHp", maxHp), ("mp", c.mp.getD maxMp), ("maxMp", maxMp),
    ("level", Quantity.whole c.level)].foldl put stats
  let named := story.filterMap fun v => (variableValue? v.2).map fun q => ("var_" ++ v.1, q)
  named.foldl put own

/-- A formula that is at fault hides nothing. -/
def isVisible (formula : String) (c : Character) (story : Story) :
    Quantity.Result Bool :=
  match Formula.compute formula (.ofBlock (context c story)) with
  | .ok x => .ok (Formula.isTrue x)
  | .error (.arithmetic cause) => .error cause
  | .error _ => .ok true

def effectiveStat (c : Character) (id : String) : Quantity :=
  ((c.currentStats.bind fun b => b.get? id).or (c.stats.get? id)).getD 0

def statName (g : Game) (id : String) : String :=
  match g.stats.primary.find? fun s => s.id = id with
  | some s => s.name
  | none => id

def itemName (g : Game) (id : String) : String := ((g.item? id).map Item.name).getD id

def skillName (g : Game) (id : String) : String := ((g.skill? id).map Skill.name).getD id

def statObstacle? (g : Game) (c : Character) (need : String × Quantity) : Option Obstacle :=
  let current := effectiveStat c need.1
  if current.lt need.2 then some (.stat (statName g need.1) need.2 current) else none

def itemObstacle? (g : Game) (c : Character) (need : ItemNeed) : Option Obstacle :=
  if c.inventory.getD need.itemId 0 < need.count then
    some (.item (itemName g need.itemId) need.count)
  else none

/-- Truth values count as one and zero; a text equals texts only. -/
def meetsFlag : Document → Flag → Bool
  | .text s, .text t => s = t
  | d, .number q => ((variableValue? d).map fun p => p.eq q).getD false
  | d, .bool b => ((variableValue? d).map fun p => p.eq (if b then 1 else 0)).getD false
  | _, _ => false

def flagObstacle? (story : Story) (need : String × Flag) : Option Obstacle :=
  match Table.lookup need.1 story with
  | some d => if meetsFlag d need.2 then none else some (.flag need.1)
  | none => some (.flag need.1)

def skillObstacle? (g : Game) (c : Character) (id : String) : Option Obstacle :=
  if c.skills.contains id then none else some (.skill (skillName g id))

def unmet? (g : Game) (c : Character) (story : Story) (r : Requirements) :
    Option Obstacle :=
  (r.stats.entries.findSome? (statObstacle? g c)).or
    ((r.items.findSome? (itemObstacle? g c)).or
      ((r.flags.entries.findSome? (flagObstacle? story)).or
        (r.skills.findSome? (skillObstacle? g c))))

def shownVariable : Option Document → String
  | none | some .null => "undefined"
  | some (.bool b) => if b then "true" else "false"
  | some (.number (.real x)) =>
    match Binary.wholePart? x with
    | some n => toString n
    | none => Decimal.exact x
  | some d => d.shown

/-- The number of a variable or a text; NaN if it has none. -/
def numberOf : Option Document → Quantity.Result Float
  | some (.bool b) => .ok (if b then 1 else 0)
  | some (.number q) => q.toFloat
  | some (.text s) => .ok ((Numeral.real? s).getD Binary.nan)
  | _ => .ok Binary.nan

def compareNumbers (op : String) (a b : Float) : Bool :=
  match op with
  | ">" => a > b
  | "<" => a < b
  | ">=" => a ≥ b
  | "<=" => a ≤ b
  | _ => true

/-- A condition of three words: variable, comparison, value. Any other text is no condition. -/
def passes (condition : String) (story : Story) : Quantity.Result Bool :=
  match Text.words condition with
  | [name, op, expected] =>
    let actual := Table.lookup name story
    if op = "==" then .ok (shownVariable actual = expected)
    else if op = "!=" then .ok (shownVariable actual ≠ expected)
    else do
      let a ← numberOf actual
      let b ← numberOf (some (.text expected))
      return compareNumbers op a b
  | _ => .ok true

def isHidden (c : Choice) (character : Character) (story : Story) :
    Quantity.Result Bool :=
  match c.showIf with
  | none | some "" => .ok false
  | some formula => do return !(← isVisible formula character story)

def failsCondition (c : Choice) (story : Story) : Quantity.Result Bool :=
  match c.condition with
  | none | some "" => .ok false
  | some condition => do return !(← passes condition story)

def obstacle? (g : Game) (c : Choice) (character : Character) (story : Story) :
    Quantity.Result (Option Obstacle) := do
  if ← c.isHidden character story then return some .hidden
  else
    match c.requires.bind (unmet? g character story) with
    | some o => return some o
    | none => return if ← c.failsCondition story then some .condition else none

def Obstacle.isHidden : Obstacle → Bool
  | hidden => true
  | _ => false

def listed (g : Game) (choices : List Choice) (character : Character) (story : Story) :
    Quantity.Result (List (Choice × Option Obstacle)) := do
  let all ← choices.mapM fun c => do return (c, ← c.obstacle? g character story)
  return all.filter fun e => !(e.2.map Obstacle.isHidden).getD false

end Choice

end Skirmish

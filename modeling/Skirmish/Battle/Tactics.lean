import Skirmish.Battle.Fighter
import Skirmish.Chance
import Skirmish.Content.Game
import Skirmish.Sorting

namespace Skirmish

inductive Order.Kind where
  | skill | item | defend | flee
  | other (name : String)
  deriving DecidableEq, Repr

namespace Order.Kind

def name : Kind → String
  | skill => "skill"
  | item => "item"
  | defend => "defend"
  | flee => "flee"
  | other s => s

def known : List Kind := [skill, item, defend, flee]

def ofName (s : String) : Kind := (known.find? fun k => k.name = s).getD (other s)

end Order.Kind

structure Order where
  kind : Order.Kind
  actorId : String
  skillId : Option String := none
  itemId : Option String := none
  targets : List String := []

namespace Tactics

structure Config where
  behavior : Behavior := .balanced
  healThreshold : Quantity := 30
  defendThreshold : Quantity := 20
  preference : Preference := .random
  skillPriority : List String := []

def Config.ofDeclaration : Option Declaration → Config
  | none => {}
  | some d => {
      behavior := match d.behavior with
        | none | some (.other "") => .balanced
        | some b => b
      healThreshold := d.healThreshold.getD 30
      defendThreshold := d.defendThreshold.getD 20
      preference := d.preference.getD .random
      skillPriority := d.skillPriority.getD [] }

def basicAttackId : String := "basic_attack"

def buffChance : Float := 0.3

def debuffChance : Float := 0.2

def buffPeriod : Int := 3

def firstLeast {α : Type} (before : α → α → Bool) : α → List α → α
  | best, [] => best
  | best, x :: xs => firstLeast before (if before x best then x else best) xs

def affordable (f : Fighter) (s : Skill) : Bool := !s.lacksMp f.mp && !s.lacksHp f.hp

def knownSkills (g : Game) (f : Fighter) : List Skill := f.skills.filterMap g.skill?

def powerOf (s : Skill) : Quantity := s.power.getD 0

def weaker (a b : Fighter) : Bool := a.hp.lt b.hp || (a.hp.eq b.hp && a.id < b.id)

def stronger (a b : Fighter) : Bool := b.hp.lt a.hp || (a.hp.eq b.hp && a.id < b.id)

structure View where
  self : Fighter
  skills : List Skill
  player : Fighter
  others : List Fighter

namespace View

def players (v : View) : List Fighter := v.player :: v.others

def target (v : View) : Preference → Roll Chance.Error Fighter
  | .weakest => return firstLeast weaker v.player v.others
  | .strongest => return firstLeast stronger v.player v.others
  | .random => Chance.pick v.players

def targetIds (v : View) (s : Skill) (target : Fighter) : List String :=
  if s.kind = .healing || s.kind = .buff || s.kind = .defense || s.target = "self" then [v.self.id]
  else if s.target = "all" then v.players.map Fighter.id
  else [target.id]

def useOn (v : View) (skillId : String) (targets : List String) : Order :=
  { kind := .skill, actorId := v.self.id, skillId := some skillId, targets }

def use (v : View) (s : Skill) (target : Fighter) : Order := v.useOn s.id (v.targetIds s target)

def defend (v : View) : Order := { kind := .defend, actorId := v.self.id }

def usable (v : View) : List Skill := v.skills.filter (affordable v.self)

def attacks (v : View) : List Skill := v.usable.filter fun s => s.kind.isAttack

def first? (v : View) (kind : Skill.Kind) : Option Skill := v.usable.find? fun s => s.kind = kind

def heal? (v : View) (percent : Float) (threshold : Quantity) : Option Order :=
  if (Quantity.real percent).le threshold then
    (v.first? .healing).map fun s => v.useOn s.id [v.self.id]
  else none

end View

def aggressive (c : Config) (v : View) : Roll Chance.Error Order := do
  let target ← v.target (if c.preference = .random then .weakest else c.preference)
  match Sorting.sorted (fun s t => (powerOf t).lt (powerOf s)) v.attacks with
  | [] => return v.useOn basicAttackId [target.id]
  | s :: _ => return v.use s target

def defensive (c : Config) (v : View) : Roll Chance.Error Order := do
  let percent ← Chance.arithmetic v.self.hpPercent
  match v.heal? percent c.healThreshold with
  | some order => return order
  | none =>
    if (Quantity.real percent).le c.defendThreshold then return v.defend
    else
      match Sorting.sorted (fun s t => (powerOf s).lt (powerOf t)) v.attacks with
      | [] => return v.defend
      | s :: _ => return v.use s (← v.target c.preference)

def tempted (s : Option Skill) (chance : Float) : Roll Chance.Error (Option Skill) :=
  match s with
  | none => return none
  | some s => do return if (← Chance.unit) < chance then some s else none

def balanced (c : Config) (v : View) : Roll Chance.Error Order := do
  let percent ← Chance.arithmetic v.self.hpPercent
  match v.heal? percent c.healThreshold with
  | some order => return order
  | none =>
    match ← tempted (v.first? .buff) buffChance with
    | some s => return v.useOn s.id [v.self.id]
    | none =>
      match ← tempted (v.first? .debuff) debuffChance with
      | some s => return v.useOn s.id [(← v.target .strongest).id]
      | none =>
        if v.attacks.isEmpty then return v.defend
        else
          let s ← Chance.pick v.attacks
          return v.use s (← v.target c.preference)

def random (v : View) : Roll Chance.Error Order := do
  if v.usable.isEmpty then return v.defend
  else
    let s ← Chance.pick v.usable
    return v.use s (← v.target .random)

def wanted? (c : Config) (v : View) (turn : Int) : Option Skill := do
  let id ← c.skillPriority[(turn % c.skillPriority.length).toNat]?
  v.usable.find? fun s => s.id = id

def scripted (c : Config) (v : View) (turn : Int) : Roll Chance.Error Order := do
  match wanted? c v turn with
  | some s => return v.use s (← v.target c.preference)
  | none =>
    match if turn % buffPeriod = 0 then v.first? .buff else none with
    | some s => return v.useOn s.id [v.self.id]
    | none => balanced c v

def act (c : Config) (v : View) (turn : Int) : Roll Chance.Error Order :=
  match c.behavior with
  | .aggressive => aggressive c v
  | .defensive => defensive c v
  | .balanced => balanced c v
  | .scripted => scripted c v turn
  | .random | .other _ => random v

def choose (g : Game) (self : Fighter) (fighters : List Fighter) (turn : Int)
    (d : Option Declaration) : Roll Chance.Error Order :=
  match Roster.living (fighters.filter Fighter.isPlayer) with
  | [] => return { kind := .defend, actorId := self.id }
  | player :: others =>
    act (.ofDeclaration d) { self, skills := knownSkills g self, player, others } turn

end Tactics

end Skirmish

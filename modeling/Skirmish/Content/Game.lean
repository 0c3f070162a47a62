import Skirmish.Content.Character
import Skirmish.Content.Enemy
import Skirmish.Content.Item
import Skirmish.Content.Scene
import Skirmish.Content.Skill
import Skirmish.Stat.Definition

namespace Skirmish

structure Game where
  id : String
  title : String
  version : String
  stats : Stat.Config
  player : Character
  enemies : List Enemy
  skills : List Skill
  items : List Item
  scenes : List Scene
  startingScene : String

namespace Game

def skill? (g : Game) (id : String) : Option Skill := g.skills.find? fun s => s.id = id

def item? (g : Game) (id : String) : Option Item := g.items.find? fun i => i.id = id

def enemy? (g : Game) (id : String) : Option Enemy := g.enemies.find? fun e => e.id = id

def scene? (g : Game) (id : String) : Option Scene := g.scenes.find? fun s => s.id = id

end Game

end Skirmish

import Skirmish.Battle.Muster
import Skirmish.Proofs.Fallible

namespace Skirmish.Battle

variable {r : Stat.Rules} {b b' : Battle} {f g : Fighter}

theorem refreshWith_eq_ok {maxHp maxMp : Quantity} :
    refreshWith r maxHp maxMp f = .ok g ↔ ∃ stats, statsOf r f = .ok stats ∧ g =
      { f with stats, maxHp := stats.getD "MaxHP" maxHp, maxMp := stats.getD "MaxMP" maxMp } := by
  simp only [refreshWith, Fallible.bind_eq_ok, Fallible.pure_eq, Except.ok.injEq]
  exact exists_congr fun _ => and_congr_right fun _ => eq_comm

theorem refreshWith_side {maxHp maxMp : Quantity} (h : refreshWith r maxHp maxMp f = .ok g) :
    g.id = f.id ∧ g.isPlayer = f.isPlayer := by
  obtain ⟨stats, -, rfl⟩ := refreshWith_eq_ok.1 h
  exact ⟨rfl, rfl⟩

theorem recruit_eq_ok {hp mp : Option Quantity} (h : recruit b f hp mp = .ok g) :
    ∃ fresh, renew b f = .ok fresh ∧ ∃ hp mp, g = { fresh with hp, mp } := by
  simp only [recruit, Fallible.bind_eq_ok, Fallible.pure_eq, Except.ok.injEq] at h
  obtain ⟨fresh, hfresh, rfl⟩ := h
  exact ⟨fresh, hfresh, _, _, rfl⟩

theorem recruit_side {hp mp : Option Quantity} (h : recruit b f hp mp = .ok g) :
    g.id = f.id ∧ g.isPlayer = f.isPlayer := by
  obtain ⟨fresh, hfresh, hp, mp, rfl⟩ := recruit_eq_ok h
  have hside := refreshWith_side hfresh
  exact hside

theorem recruitPlayer_side {c : Character} (h : recruitPlayer b c = .ok f) :
    f.id = c.id ∧ f.isPlayer = true := by
  simp only [recruitPlayer, Fallible.bind_eq_ok] at h
  obtain ⟨modifiers, -, h⟩ := h
  exact recruit_side h

theorem recruitEnemy_side {e : Enemy} {id : String} (h : recruitEnemy b e id = .ok f) :
    f.id = id ∧ f.isPlayer = false :=
  recruit_side h

theorem enroll_eq_ok {e : Enemy} {id : String} (h : b.enroll e id = .ok b') :
    ∃ f, recruitEnemy b e id = .ok f ∧
      b' = { b.setFighter f with origins := b.origins.insert id e } := by
  obtain ⟨f, hf, h⟩ := Fallible.bind_eq_ok.1 h
  cases h
  exact ⟨f, Fallible.leaving_eq_ok.1 hf, rfl⟩

def shareOf (f : Fighter) : Except Error Float :=
  if Quantity.lt 0 f.maxHp then arithmetic (f.hp.div f.maxHp) else .ok 1

/-- What a fighter that keeps its share of life has of a new maximum. -/
def keptHp (f : Fighter) (maxHp : Quantity) : Except Error Int := do
  let share ← shareOf f
  arithmetic (do (← maxHp.mul (.real share)).floor)

theorem transform_eq_ok_keptHp {e : Enemy} (h : b.transform f e = .ok b') :
    ∃ g n, renew b { f with name := e.name, baseStats := e.stats, skills := e.skills } = .ok g ∧
      keptHp f g.maxHp = .ok n ∧
      b' = { b.setFighter { g with hp := .whole n } with
        origins := b.origins.insert g.id e }.say (g.name ++ " transformed!") := by
  simp only [transform, Fallible.bind_eq_ok, Fallible.leaving_eq_ok] at h
  obtain ⟨share, hshare, g, hg, n, hn, h⟩ := h
  cases h
  exact ⟨g, n, hg, Fallible.bind_eq_ok.2 ⟨share, hshare, hn⟩, rfl⟩

theorem transform_eq_ok {e : Enemy} (h : b.transform f e = .ok b') :
    ∃ g hp, renew b { f with name := e.name, baseStats := e.stats, skills := e.skills } = .ok g ∧
      b' = { b.setFighter { g with hp } with
        origins := b.origins.insert g.id e }.say (g.name ++ " transformed!") := by
  obtain ⟨g, n, hg, -, hb'⟩ := transform_eq_ok_keptHp h
  exact ⟨g, .whole n, hg, hb'⟩

end Skirmish.Battle

namespace Skirmish

def Character.plain (id : String) : Character where
  id := id
  name := id
  stats := Table.ofList [("MaxHP", 50), ("Speed", 20)]
  skills := []
  level := 1
  exp := 0
  hp := none
  mp := none
  currentStats := none
  equipment := {}
  inventory := {}

def Enemy.plain (id : String) : Enemy where
  id := id
  name := id
  stats := Table.ofList [("MaxHP", 20), ("Speed", 5)]
  skills := []
  drops := []
  exp := 0
  gold := 0
  tactics := none
  description := ""

def Game.plain (player : Character) : Game where
  id := player.id
  title := player.name
  version := ""
  stats := ⟨[], [], none⟩
  player := player
  enemies := []
  skills := []
  items := []
  scenes := []
  startingScene := ""

def Scene.plain (triggers : List Trigger) : Scene where
  id := ""
  kind := "battle"
  choices := []
  enemies := []
  victoryScene := none
  defeatScene := none
  triggers := triggers

def Battle.plain (scene : Option Scene) : Battle :=
  create (.plain (.plain "hero")) scene ⟨[], [], .standard⟩ {} {}

end Skirmish

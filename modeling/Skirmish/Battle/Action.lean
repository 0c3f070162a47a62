import Skirmish.Battle.Damage
import Skirmish.Content.Game

namespace Skirmish.Action

inductive EffectKind where
  | damage | heal | healMp | buff | debuff | revive
  deriving DecidableEq, Repr

def EffectKind.name : EffectKind → String
  | damage => "damage"
  | heal => "heal"
  | healMp => "healMp"
  | buff => "buff"
  | debuff => "debuff"
  | revive => "revive"

structure Effect where
  targetId : String
  kind : EffectKind
  value : Quantity
  isCritical : Bool := false
  stat : Option String := none

structure Report where
  success : Bool
  message : String
  effects : List Effect := []
  killed : List String := []

inductive Refusal where
  | noEffect (name : String)
  | notEnoughMp (needed owned : Quantity)
  | notEnoughHp (needed owned : Quantity)

def costMessage (what : String) (needed owned : Quantity) : Quantity.Result String := do
  let need ← needed.shown
  let owns ← owned.shown
  return "Not enough " ++ what ++ "! (Need " ++ need ++ ", have " ++ owns ++ ")"

def Refusal.message : Refusal → Quantity.Result String
  | noEffect name => .ok (name ++ " has no effect!")
  | notEnoughMp needed owned => costMessage "MP" needed owned
  | notEnoughHp needed owned => costMessage "HP" needed owned

structure Progress where
  roster : Roster
  effects : List Effect := []
  killed : List String := []

namespace Progress

def record (p : Progress) (f : Fighter) (e : Effect) : Progress :=
  { p with roster := p.roster.insert f.id f, effects := p.effects ++ [e] }

def update (p : Progress) (f : Fighter) : Progress :=
  { p with roster := p.roster.insert f.id f }

def strike (p : Progress) (before after : Fighter) (e : Effect) : Progress :=
  let p := p.record after e
  if Fighter.fell before after then { p with killed := p.killed ++ [after.id] } else p

end Progress

structure Rules where
  formulas : Damage.Formulas
  defendFactor : Quantity := .real 0.5

/-- What an action goes through; a failure keeps the draws, and what has become of the roster. -/
abbrev Attempt := Roll (Halt ArithmeticError Roster)

def Progress.draw {α : Type} (p : Progress) (x : Roll ArithmeticError α) : Attempt α :=
  ExceptT.adapt (fun cause => ⟨cause, p.roster⟩) x

def Progress.through {α : Type} (p : Progress) (x : Fighter.Result α) : Roster.Result α :=
  x.mapError p.roster.halted

abbrev Step := Progress → Fighter → Attempt Progress

def forEach (step : Step) (p : Progress) : List String → Attempt Progress
  | [] => return p
  | id :: ids => do
    match p.roster.get? id with
    | none => forEach step p ids
    | some f => forEach step (← step p f) ids

def livingIds (r : Roster) (targets : List String) : List String := targets.filter r.isAlive

def forLiving (targets : List String) (step : Step) (p : Progress) : Attempt Progress :=
  forEach step p (livingIds p.roster targets)

def defaultPower : Quantity := 100

def damageKind (k : Skill.Kind) : Damage.Kind := if k = .magic then .magic else .physical

def takenDamage (r : Rules) (target : Fighter) (damage : Int) : Quantity.Result Int := do
  if target.isDefending then (← (Quantity.whole damage).mul r.defendFactor).truncate
  else return damage

def attackStep (r : Rules) (actorId : String) (skill : Skill) : Step := fun p target => do
  let actor := (p.roster.get? actorId).getD target
  let hit ← p.draw (Damage.calculate r.formulas actor target (damageKind skill.kind)
    (skill.power.getD defaultPower))
  let damage ← leaving p.roster (takenDamage r target hit.damage)
  let after ← leaving p.roster (target.takeDamage (.whole damage))
  return p.strike target after
    { targetId := target.id, kind := .damage, value := .whole damage, isCritical := hit.isCritical }

def defaultHealing : Quantity := 50

def healStep (actorId : String) (skill : Skill) : Step := fun p target => do
  let actor := (p.roster.get? actorId).getD target
  let amount ← p.draw (Damage.healing actor (skill.power.getD defaultHealing))
  let (after, gained) ← p.through (target.restoreHp (.whole amount))
  return p.record after { targetId := target.id, kind := .heal, value := gained }

def modifierStep (definition : Modifier.Definition) (source : String) (e : Fighter → Effect) :
    Step := fun p target =>
  return p.record (target.addModifier definition source) (e target)

def changeModifier (id : String) (skill : Skill) (c : Skill.Change) (value : Quantity)
    (duration : Option Int) : Modifier.Definition :=
  .timed id skill.name ⟨c.stat, c.mode, value⟩ duration skill.description

def buffStep (skill : Skill) (c : Skill.Change) : Step :=
  modifierStep (changeModifier ("buff_" ++ skill.id) skill c c.value c.duration) "buff"
    fun f => { targetId := f.id, kind := .buff, value := c.value, stat := some c.stat }

/-- Takes the declared value away, whatever its sign. -/
def debuffStep (skill : Skill) (c : Skill.Change) : Step :=
  let value := -c.value.abs
  modifierStep (changeModifier ("debuff_" ++ skill.id) skill c value c.duration) "debuff"
    fun f => { targetId := f.id, kind := .debuff, value, stat := some c.stat }

def buffAll (skill : Skill) (targets : List String) (p : Progress) : Attempt Progress :=
  match skill.buff with
  | none => return p
  | some c => forLiving targets (buffStep skill c) p

def debuffAll (skill : Skill) (targets : List String) (p : Progress) : Attempt Progress :=
  match skill.debuff with
  | none => return p
  | some c => forLiving targets (debuffStep skill c) p

def attackAll (r : Rules) (actorId : String) (skill : Skill) (targets : List String)
    (p : Progress) : Attempt Progress :=
  forLiving targets (attackStep r actorId skill) p

/-- The actor defends, and a buff of the skill lasts one turn. -/
def defend (skill : Skill) (p : Progress) (actor : Fighter) : Progress :=
  let actor := { actor with isDefending := true }
  let actor := match skill.buff with
    | none => actor
    | some c =>
      actor.addModifier (changeModifier ("defense_" ++ skill.id) skill c c.value (some 1)) "buff"
  p.record actor
    { targetId := actor.id, kind := .buff, value := skill.value.getD 50, stat := some "Defense" }

def hasPower (skill : Skill) : Bool :=
  match skill.power with
  | none => false
  | some power => Quantity.lt 0 power

def perform (r : Rules) (actor : Fighter) (skill : Skill) (targets : List String) (p : Progress) :
    Attempt Progress :=
  match skill.kind with
  | .physical | .magic => attackAll r actor.id skill targets p
  | .healing => forLiving targets (healStep actor.id skill) p
  | .buff => buffAll skill targets p
  | .debuff => debuffAll skill targets p
  | .defense => return defend skill p actor
  | .special => do
    let p ← buffAll skill targets p
    let p ← debuffAll skill targets p
    if hasPower skill then attackAll r actor.id skill targets p else return p
  | .other _ => return p

def refusal? (actor : Fighter) (skill : Skill) : Option Refusal :=
  match skill.kind with
  | .other _ => some (.noEffect skill.name)
  | _ =>
    if skill.lacksMp actor.mp then some (.notEnoughMp skill.mpCost actor.mp)
    else if skill.lacksHp actor.hp then some (.notEnoughHp skill.hpCost actor.hp)
    else none

def pay (actor : Fighter) (skill : Skill) : Fighter.Result Fighter := do
  let mp ← leaving actor (actor.mp.sub skill.mpCost)
  let hp ← leaving { actor with mp }
    (if skill.hpCost.isZero then pure actor.hp else actor.hp.sub skill.hpCost)
  return { actor with mp, hp }

def Progress.report (p : Progress) (actor : Fighter) (what : String) : Report :=
  { success := true, message := actor.name ++ " uses " ++ what ++ "!"
    effects := p.effects, killed := p.killed }

def refuse (roster : Roster) (why : Refusal) : Roster.Result (Report × Roster) := do
  return ({ success := false, message := ← leaving roster why.message }, roster)

def useSkill (r : Rules) (roster : Roster) (actor : Fighter) (skill : Skill)
    (targets : List String) : Attempt (Report × Roster) := do
  match refusal? actor skill with
  | some why => refuse roster why
  | none =>
    let paid ← (pay actor skill).mapError roster.halted
    let p ← perform r paid skill targets { roster := roster.insert actor.id paid }
    return (p.report actor skill.name, p.roster)

def itemHealHp (item : Item) : Step := fun p target => do
  let (after, gained) ← p.through (target.restoreHp item.value)
  return p.record after { targetId := target.id, kind := .heal, value := gained }

def itemHealMp (item : Item) : Step := fun p target => do
  let (after, gained) ← p.through (target.restoreMp item.value)
  return p.record after
    { targetId := target.id, kind := .healMp, value := gained, stat := some "MP" }

def revivedHp (item : Item) (f : Fighter) : Quantity.Result Int := do
  (Quantity.real (← (← f.maxHp.mul item.value).div 100)).truncate

/-- The fallen rise before their life is known. -/
def itemRevive (item : Item) : Step := fun p target => do
  if target.isAlive then return p
  else
    let risen := p.update { target with isAlive := true }
    let hp ← leaving risen.roster (revivedHp item target)
    return p.record { target with isAlive := true, hp := .whole hp }
      { targetId := target.id, kind := .revive, value := .whole hp }

def itemDamage (item : Item) : Step := fun p target => do
  let after ← leaving p.roster (target.takeDamage item.value)
  return p.strike target after { targetId := target.id, kind := .damage, value := item.value }

def itemCure : Step := fun p target =>
  return p.record { target with modifiers := target.modifiers.clearSource "debuff" }
    { targetId := target.id, kind := .buff, value := 0, stat := some "status" }

def defaultBuffDuration : Int := 3

/-- An item buffs if it names a stat and a value other than zero. -/
def itemBuff? (item : Item) : Option (String × Quantity) :=
  match item.buffStat, item.buffValue with
  | some stat, some value => if stat.isEmpty || value.isZero then none else some (stat, value)
  | _, _ => none

def itemBuff (item : Item) (stat : String) (value : Quantity) : Step :=
  modifierStep
    (.timed ("item_" ++ item.id) item.name ⟨stat, .flat, value⟩
      (some (item.buffDuration.getD defaultBuffDuration)) item.description) "item"
    fun f => { targetId := f.id, kind := .buff, value, stat := some stat }

def applyItem (item : Item) (targets : List String) (p : Progress) : Attempt Progress :=
  match item.use with
  | .healHp => forLiving targets (itemHealHp item) p
  | .healMp => forLiving targets (itemHealMp item) p
  | .revive => forEach (itemRevive item) p targets
  | .buff =>
    match itemBuff? item with
    | none => return p
    | some (stat, value) => forLiving targets (itemBuff item stat value) p
  | .damage => forLiving targets (itemDamage item) p
  | .cure => forLiving targets itemCure p
  | .nothing | .other _ => return p

def useItem (roster : Roster) (actor : Fighter) (item : Item) (targets : List String) :
    Attempt (Report × Roster) := do
  match item.use with
  | .other _ => refuse roster (.noEffect item.name)
  | _ =>
    let p ← applyItem item targets { roster }
    return (p.report actor item.name, p.roster)

end Skirmish.Action

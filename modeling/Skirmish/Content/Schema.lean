import Skirmish.Content.Decode
import Skirmish.Content.Game

namespace Skirmish.Content

open Decode

def primaryStat : Decoder Stat.Primary :=
  object "StatDoc" fun fs =>
    (fun id name abbreviation description default minimum maximum =>
      { id, name := nameOr id name, abbreviation, description, default, minimum, maximum })
    <$> required "id" nonEmptyText fs
    <*> optional "name" text fs
    <*> withDefault "abbrev" text "" fs
    <*> withDefault "description" text "" fs
    <*> withDefault "default_value" real 10 fs
    <*> withDefault "min_value" real 1 fs
    <*> withDefault "max_value" real 999 fs

def derivedStat : Decoder Stat.Derived :=
  object "DerivedStatDoc" fun fs =>
    (fun id name formula description => { id, name := nameOr id name, formula, description })
    <$> required "id" nonEmptyText fs
    <*> optional "name" text fs
    <*> required "formula" text fs
    <*> withDefault "description" text "" fs

def combatFormulas : Decoder Stat.CombatFormulas :=
  object "CombatFormulasDoc" fun fs =>
    Stat.CombatFormulas.mk
    <$> required "physical_damage" text fs
    <*> required "magic_damage" text fs
    <*> required "critical_check" text fs
    <*> required "turn_order" text fs

def stats : Decoder Stat.Config :=
  object "StatsDoc" fun fs =>
    Stat.Config.mk
    <$> required "primary" (list primaryStat) fs
    <*> required "derived" (list derivedStat) fs
    <*> optional "combat_formulas" combatFormulas fs

def inventoryEntry : Decoder (String × Int) :=
  object "InventoryEntryDoc" fun fs =>
    Prod.mk <$> required "id" text fs <*> withDefault "count" integer 1 fs

/-- Counts by item id, or a list of ids with counts; if neither can be read, both are reported. -/
def inventory : Decoder (Table Int) := fun v =>
  match dictionary integer v, Table.ofList <$> list inventoryEntry v with
  | .ok counts, _ => .ok counts
  | _, .ok counts => .ok counts
  | .wrong ps, .wrong qs =>
    .wrong (ps.map (Problem.under "dict[str,int]") ++
      qs.map (Problem.under "list[InventoryEntryDoc]"))

def character : Decoder Character :=
  object "CharacterDoc" fun fs =>
    (fun id name stats skills level exp hp mp currentStats equipment inventory =>
      { id, name := nameOr id name, stats, skills, level, exp, hp, mp, currentStats, equipment
        inventory })
    <$> required "id" nonEmptyText fs
    <*> optional "name" text fs
    <*> dictionaryField "base_stats" real fs
    <*> listField "skills" text fs
    <*> withDefault "level" integer 1 fs
    <*> withDefault "exp" integer 0 fs
    <*> optional "current_hp" real fs
    <*> optional "current_mp" real fs
    <*> optional "current_stats" (dictionary real) fs
    <*> dictionaryField "equipment" text fs
    <*> withDefault "inventory" inventory {} fs

def characters : Decoder Character :=
  object "CharactersDoc" fun fs => required "player" character fs

def drop : Decoder Drop :=
  object "ItemDropDoc" fun fs =>
    Drop.mk
    <$> required "item_id" text fs
    <*> withDefault "chance" real 100 fs
    <*> withDefault "count" integer 1 fs

def behavior : Decoder Tactics.Behavior :=
  oneOf (Tactics.Behavior.known.map (·.name)) Tactics.Behavior.ofName

def preference : Decoder Tactics.Preference :=
  oneOf (Tactics.Preference.known.map (·.name)) fun s =>
    (Tactics.Preference.ofName? s).getD .random

def tactics : Decoder Tactics.Declaration :=
  object "EnemyAIDoc" fun fs =>
    Tactics.Declaration.mk
    <$> optional "behavior" behavior fs
    <*> optional "heal_threshold" real fs
    <*> optional "defend_threshold" real fs
    <*> optional "prefer_targets" preference fs
    <*> optional "skill_priority" (list text) fs

def enemy : Decoder Enemy :=
  object "EnemyDoc" fun fs =>
    (fun id name stats skills drops exp gold description tactics =>
      { id, name := nameOr id name, stats, skills, drops, exp, gold, description, tactics })
    <$> required "id" nonEmptyText fs
    <*> optional "name" text fs
    <*> dictionaryField "base_stats" real fs
    <*> listField "skills" text fs
    <*> listField "drops" drop fs
    <*> withDefault "exp" integer 0 fs
    <*> withDefault "gold" integer 0 fs
    <*> withDefault "description" text "" fs
    <*> optional "ai" tactics fs

def mode : Decoder Modifier.Mode := oneOf ["flat", "percent"] Modifier.Mode.ofName

def change : Decoder Skill.Change :=
  object "SkillEffectDoc" fun fs =>
    Skill.Change.mk
    <$> required "stat" text fs
    <*> required "value" real fs
    <*> optional "duration" integer fs
    <*> withDefault "type" mode .flat fs

def skillKind : Decoder Skill.Kind := oneOf (Skill.Kind.known.map (·.name)) Skill.Kind.ofName

def skill : Decoder Skill :=
  object "SkillDoc" fun fs =>
    (fun id name kind mpCost hpCost power value target description buff debuff =>
      { id, name := nameOr id name, kind, mpCost, hpCost, power, value, target, description, buff
        debuff })
    <$> required "id" nonEmptyText fs
    <*> optional "name" text fs
    <*> required "type" skillKind fs
    <*> withDefault "mp_cost" real 0 fs
    <*> withDefault "hp_cost" real 0 fs
    <*> optional "power" real fs
    <*> optional "value" real fs
    <*> withDefault "target" text "single" fs
    <*> withDefault "description" text "" fs
    <*> optional "buff_effect" change fs
    <*> optional "debuff_effect" change fs

def equipmentEffect : Decoder Modifier.Effect :=
  object "EquipmentModifierDoc" fun fs =>
    Modifier.Effect.mk
    <$> required "stat" text fs
    <*> withDefault "type" mode .flat fs
    <*> required "value" real fs

def itemUse : Decoder Item.Use := oneOf (Item.Use.known.map (·.name)) Item.Use.ofName

def item : Decoder Item :=
  object "ItemDoc" fun fs =>
    (fun id name kind use value target description buffStat buffValue buffDuration slot modifiers =>
      { id, name := nameOr id name, kind, use, value, target, description, buffStat, buffValue
        buffDuration, slot, modifiers })
    <$> required "id" nonEmptyText fs
    <*> optional "name" text fs
    <*> withDefault "type" text "consumable" fs
    <*> withDefault "effect" itemUse .nothing fs
    <*> withDefault "value" real 0 fs
    <*> withDefault "target" text "single" fs
    <*> withDefault "description" text "" fs
    <*> optional "buff_stat" text fs
    <*> optional "buff_value" real fs
    <*> optional "buff_duration" integer fs
    <*> optional "slot" text fs
    <*> listField "modifiers" equipmentEffect fs

def optionOf (event : Decoder Event) : Decoder DialogOption :=
  object "DialogChoiceDoc" fun fs =>
    DialogOption.option
    <$> required "id" text fs
    <*> withDefault "text" text "" fs
    <*> optional "action" event fs

def eventFields (option : Decoder DialogOption) (event : Decoder Event) (kind : String)
    (fs : Fields) : Option (Checked Event) :=
  match kind with
  | "dialog" => some (Event.dialog
      <$> required "text" text fs
      <*> optional "speaker" text fs
      <*> listField "choices" option fs)
  | "spawn" => some (Event.spawn <$> required "enemy_id" text fs)
  | "buff" => some (Event.buff
      <$> required "stat" text fs
      <*> required "value" real fs
      <*> optional "target" text fs
      <*> optional "duration" integer fs)
  | "heal" => some (Event.heal <$> required "amount" real fs <*> optional "target" text fs)
  | "damage" => some (Event.damage <$> required "amount" real fs <*> optional "target" text fs)
  | "flee" => some (Event.flee <$> optional "target" text fs)
  | "transform" =>
    some (Event.transform <$> required "new_enemy_id" text fs <*> optional "target" text fs)
  | "multi" => some (Event.multi <$> listField "actions" event fs)
  | _ => none

def taggedEvent (fields : String → Fields → Option (Checked Event)) : Decoder Event
  | .object fs =>
    match Table.lookup "type" fs with
    | none => .fail .noTag
    | some tag =>
      match tag with
      | .text kind =>
        match fields kind fs with
        | some e => e.under kind
        | none => .fail (.unknownTag kind Event.kindNames)
      | _ => .fail (.unknownTag tag.shown Event.kindNames)
  | _ => .fail .notTagged

inductive Place where
  | outermost
  | inMulti
  | inDialog
  deriving DecidableEq, Repr

/-- The place that an event of a kind opens, if what it holds stands elsewhere than the event. -/
def Place.opened : Place → String → Option Place
  | outermost, "multi" => some inMulti
  | outermost, "dialog" | inMulti, "dialog" => some inDialog
  | _, _ => none

mutual

/-- The fields of an event with so many levels left. Each event and each option takes a level, and
an event that opens a place takes one more. -/
def fieldsWithin : Nat → Place → String → Fields → Option (Checked Event)
  | 0, _, kind, _ => if Event.kindNames.contains kind then some (.fail .tooDeep) else none
  | left + 1, place, kind, fs =>
    match place.opened kind with
    | some inside => fieldsWithin left inside kind fs
    | none =>
      eventFields (optionWithin left place) (taggedEvent (fieldsWithin left place)) kind fs

def optionWithin : Nat → Place → Decoder DialogOption
  | 0, _, _ => .fail .tooDeep
  | left + 1, place, v => optionOf (taggedEvent (fieldsWithin left place)) v

end

def maxLevels : Nat := 255

def event : Decoder Event := taggedEvent (fieldsWithin maxLevels .outermost)

def dialogOption : Decoder DialogOption := optionWithin maxLevels .inDialog

def itemNeed : Decoder ItemNeed :=
  object "ConsumeItemDoc" fun fs =>
    ItemNeed.mk <$> required "id" text fs <*> withDefault "count" integer 1 fs

def flag : Decoder Flag
  | .bool b => .ok (.bool b)
  | .number q => .ok (.number q)
  | .text s => .ok (.text s)
  | .illFormed codes => .ok (.text (Text.ofCodes codes))
  | _ => .wrong [
      ⟨["bool"], .notBool⟩, ⟨["int"], .notInteger⟩, ⟨["float"], .notNumber⟩,
      ⟨["str"], .notText⟩]

def requirements : Decoder Requirements :=
  object "RequirementsDoc" fun fs =>
    Requirements.mk
    <$> dictionaryField "stats" real fs
    <*> listField "items" itemNeed fs
    <*> dictionaryField "flags" flag fs
    <*> listField "skills" text fs

def choice : Decoder Choice :=
  object "ChoiceDoc" fun fs =>
    Choice.mk
    <$> required "id" nonEmptyText fs
    <*> withDefault "text" text "" fs
    <*> optional "next_scene" text fs
    <*> optional "condition" text fs
    <*> optional "show_if" text fs
    <*> optional "requires" requirements fs

def trigger : Decoder Trigger :=
  object "TriggerDoc" fun fs =>
    Trigger.mk
    <$> optional "id" text fs
    <*> required "condition" text fs
    <*> withDefault "once" bool false fs
    <*> optional "max_fires" integer fs
    <*> required "action" event fs

def scene : Decoder Scene :=
  object "SceneDoc" fun fs =>
    Scene.mk
    <$> required "id" nonEmptyText fs
    <*> required "type" (oneOf ["story", "battle"] id) fs
    <*> listField "choices" choice fs
    <*> listField "enemies" text fs
    <*> optional "victory_scene" text fs
    <*> optional "defeat_scene" text fs
    <*> listField "triggers" trigger fs

def game : Decoder Game :=
  object "GameDoc" fun fs =>
    Game.mk
    <$> required "id" nonEmptyText fs
    <*> required "title" nonEmptyText fs
    <*> required "version" nonEmptyText fs
    <*> required "stats" stats fs
    <*> required "characters" characters fs
    <*> required "enemies" (list enemy) fs
    <*> required "skills" (list skill) fs
    <*> required "items" (list item) fs
    <*> required "scenes" (nonEmptyList scene) fs
    <*> required "starting_scene" nonEmptyText fs

def rejection (problems : List Problem) : String :=
  "Invalid game definition: " ++ String.intercalate "; " (problems.map Problem.message)

end Skirmish.Content
